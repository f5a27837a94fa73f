import DesignCanvas.Json.Literal

/-!
# JSON tokens

The cutting of a JSON text into tokens. A string with half of a surrogate pair and a number beyond the doubles
are tokens without a value; anything else that is no token fails the whole text.
-/

namespace DesignCanvas.Json

open DesignCanvas

/-- A token of JSON text. -/
inductive Token where
  | openArray
  | closeArray
  | openObject
  | closeObject
  | comma
  | colon
  | null
  | bool (b : Bool)
  | str (s : Option String)
  | num (n : Option Number)

def isSpace (c : Char) : Bool :=
  c = ' ' || c = '\n' || c = '\t' || c = '\r'

/-- The character that a short escape stands for. -/
def shortEscape? : Char → Option Char
  | '"' => some '"'
  | '\\' => some '\\'
  | '/' => some '/'
  | 'b' => some '\x08'
  | 'f' => some '\x0c'
  | 'n' => some '\n'
  | 'r' => some '\r'
  | 't' => some '\t'
  | _ => none

/-- What has been read of a string: its characters, the last one first, a high surrogate that waits for its
partner, and whether a surrogate went without one. -/
structure Reading where
  chars : List Char
  high : Option Nat
  torn : Bool

def Reading.push (r : Reading) (c : Char) : Reading :=
  { chars := c :: r.chars, high := none, torn := r.torn || r.high.isSome }

/-- Adds a code unit that was written as an escape. -/
def Reading.pushUnit (r : Reading) (u : Nat) : Reading :=
  if 0xDC00 ≤ u ∧ u ≤ 0xDFFF then
    match r.high with
    | some h =>
      { r with chars := Char.ofNat (0x10000 + (h - 0xD800) * 0x400 + (u - 0xDC00)) :: r.chars, high := none }
    | none => { r with torn := true }
  else if 0xD800 ≤ u ∧ u ≤ 0xDBFF then { r with high := some u, torn := r.torn || r.high.isSome }
  else r.push (Char.ofNat u)

/-- The string that was read, if every surrogate has its partner. -/
def Reading.string? (r : Reading) : Option String :=
  if r.torn || r.high.isSome then none else some (String.ofList r.chars.reverse)

/-- Reads a string after its opening quote; gives its value and what comes after the closing quote. -/
def scanString (r : Reading) : List Char → Option (Option String × List Char)
  | [] => none
  | '"' :: s => some (r.string?, s)
  | '\\' :: 'u' :: a :: b :: c :: d :: s =>
    if [a, b, c, d].all Text.isHexDigit then
      scanString (r.pushUnit ([a, b, c, d].foldl (fun n x => 16 * n + Text.hexValue x) 0)) s
    else none
  | '\\' :: e :: s =>
    match shortEscape? e with
    | some c => scanString (r.push c) s
    | none => none
  | c :: s => if c.toNat < 0x20 ∨ c = '\\' then none else scanString (r.push c) s

/-- Reads a fraction, a point and at least one digit, if there is one. -/
def scanFraction : List Char → Option (List Char × List Char)
  | '.' :: s =>
    let digits := s.takeWhile Text.isPlainDigit
    if digits.isEmpty then none else some (digits, s.dropWhile Text.isPlainDigit)
  | s => some ([], s)

/-- Reads the sign of an exponent, if there is one. -/
def scanSign : List Char → Bool × List Char
  | '+' :: s => (false, s)
  | '-' :: s => (true, s)
  | s => (false, s)

/-- Reads an exponent of at least one digit, if there is one. -/
def scanExponent : List Char → Option (Option (Bool × List Char) × List Char)
  | c :: s =>
    if c = 'e' ∨ c = 'E' then
      let (down, s) := scanSign s
      let digits := s.takeWhile Text.isPlainDigit
      if digits.isEmpty then none else some (some (down, digits), s.dropWhile Text.isPlainDigit)
    else some (none, c :: s)
  | [] => some (none, [])

/-- Reads the rest of a number after its sign. No digit may come after a leading zero. -/
def scanNumber (negative : Bool) (s : List Char) : Option (Option Number × List Char) := do
  let whole := s.takeWhile Text.isPlainDigit
  if whole.isEmpty ∨ (whole.head? = some '0' ∧ 1 < whole.length) then none
  else
    let (fraction, s) ← scanFraction (s.dropWhile Text.isPlainDigit)
    let (exponent, s) ← scanExponent s
    return (Literal.number? { negative, whole, fraction, exponent }, s)

/-- Reads the token at the start of a text. -/
def scanToken : List Char → Option (Token × List Char)
  | '[' :: s => some (.openArray, s)
  | ']' :: s => some (.closeArray, s)
  | '{' :: s => some (.openObject, s)
  | '}' :: s => some (.closeObject, s)
  | ',' :: s => some (.comma, s)
  | ':' :: s => some (.colon, s)
  | 'n' :: 'u' :: 'l' :: 'l' :: s => some (.null, s)
  | 't' :: 'r' :: 'u' :: 'e' :: s => some (.bool true, s)
  | 'f' :: 'a' :: 'l' :: 's' :: 'e' :: s => some (.bool false, s)
  | '"' :: s => (scanString ⟨[], none, false⟩ s).map fun (v, s) => (.str v, s)
  | '-' :: s => (scanNumber true s).map fun (v, s) => (.num v, s)
  | c :: s =>
    if Text.isPlainDigit c then (scanNumber false (c :: s)).map fun (v, s) => (.num v, s) else none
  | [] => none

/-- The tokens of a text, put in front of those already read, which are in reverse. Each step takes a
character at least. -/
def tokensFrom : Nat → List Token → List Char → Option (List Token)
  | 0, _, _ => none
  | steps + 1, done, s =>
    match s.dropWhile isSpace with
    | [] => some done.reverse
    | c :: s =>
      match scanToken (c :: s) with
      | none => none
      | some (t, s) => tokensFrom steps (t :: done) s

/-- The tokens of a text. -/
def tokens? (s : List Char) : Option (List Token) :=
  tokensFrom (s.length + 1) [] s

end DesignCanvas.Json
