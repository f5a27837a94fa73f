import DesignCanvas.Text.Digit

/-!
# Fingerprints

The SHA-1 digest of bytes, the fingerprint that is its text, and small numbers drawn from the digest of a key.
-/

namespace DesignCanvas.Digest

open DesignCanvas

/-- The five words that the digest is worked out in. -/
structure Words where
  a : UInt32
  b : UInt32
  c : UInt32
  d : UInt32
  e : UInt32

def initial : Words :=
  ⟨0x67452301, 0xEFCDAB89, 0x98BADCFE, 0x10325476, 0xC3D2E1F0⟩

/-- The word with its bits turned to the left. -/
def turn (x : UInt32) (n : UInt32) : UInt32 :=
  (x <<< n) ||| (x >>> (32 - n))

/-- The bytes with a one bit, zeros and the length in bits behind them, a whole number of 64-byte blocks. -/
def padded (bytes : List UInt8) : List UInt8 :=
  let zeros := (119 - bytes.length % 64) % 64
  let bits := 8 * bytes.length
  bytes ++ 0x80 :: List.replicate zeros 0
    ++ (List.range 8).map fun i => (bits / Nat.pow 2 (8 * (7 - i))).toUInt8

/-- The big-endian words of bytes; fewer than four bytes at the end make none. -/
def wordsOf : List UInt8 → List UInt32
  | a :: b :: c :: d :: rest =>
    ((a.toUInt32 <<< 24) ||| (b.toUInt32 <<< 16) ||| (c.toUInt32 <<< 8) ||| d.toUInt32) :: wordsOf rest
  | _ => []

/-- Extends the sixteen words of a block, each further one made of four words before it. -/
def schedule (block : Array UInt32) : Array UInt32 :=
  (List.range 64).foldl (fun w i =>
    let back (k : Nat) := w.getD (i + 16 - k) 0
    w.push (turn (back 3 ^^^ back 8 ^^^ back 14 ^^^ back 16) 1)) block

/-- The mixing function and the constant of a round. -/
def round (i : Nat) (s : Words) : UInt32 × UInt32 :=
  if i < 20 then ((s.b &&& s.c) ||| (~~~s.b &&& s.d), 0x5A827999)
  else if i < 40 then (s.b ^^^ s.c ^^^ s.d, 0x6ED9EBA1)
  else if i < 60 then ((s.b &&& s.c) ||| (s.b &&& s.d) ||| (s.c &&& s.d), 0x8F1BBCDC)
  else (s.b ^^^ s.c ^^^ s.d, 0xCA62C1D6)

/-- Takes one block into the words. -/
def absorb (s : Words) (block : List UInt32) : Words :=
  let w := schedule block.toArray
  let t := (List.range 80).foldl (fun (s : Words) i =>
    let (f, k) := round i s
    ⟨turn s.a 5 + f + s.e + k + w.getD i 0, s.a, turn s.b 30, s.c, s.d⟩) s
  ⟨s.a + t.a, s.b + t.b, s.c + t.c, s.d + t.d, s.e + t.e⟩

/-- Takes blocks of sixteen words into the words, as many as `count`. -/
def absorbAll (s : Words) (ws : List UInt32) : Nat → Words
  | 0 => s
  | count + 1 => absorbAll (absorb s (ws.take 16)) (ws.drop 16) count

def sha1 (bytes : List UInt8) : Words :=
  let ws := wordsOf (padded bytes)
  absorbAll initial ws (ws.length / 16)

def wordText (x : UInt32) : List Char :=
  let n := x.toNat
  Text.hexByte (n / 0x1000000) ++ Text.hexByte (n / 0x10000 % 0x100) ++ Text.hexByte (n / 0x100 % 0x100)
    ++ Text.hexByte (n % 0x100)

/-- The fingerprint of bytes: the forty hexadecimal digits of their digest. -/
def fingerprint (bytes : ByteArray) : String :=
  let s := sha1 bytes.toList
  String.ofList ([s.a, s.b, s.c, s.d, s.e].flatMap wordText)

/-- A number below `modulus` that a key always gives; a modulus of zero counts as one. -/
def seed (key : String) (modulus : Nat) : Nat :=
  (sha1 key.toUTF8.toList).a.toNat % max modulus 1

end DesignCanvas.Digest
