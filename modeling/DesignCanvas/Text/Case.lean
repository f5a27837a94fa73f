import DesignCanvas.Text.Case.Table
import DesignCanvas.Text.Digit

/-!
# Letter case

The lower case of a text. It is taken character by character, but for two characters: the dotted
capital I becomes two characters, and a capital sigma becomes the final sigma at the end of a word.
-/

namespace DesignCanvas.Text

/-- The code point that a run gives to one of its members. -/
def CaseRun.apply? (r : CaseRun) (n : Nat) : Option Nat :=
  if r.first ≤ n && n ≤ r.last && (n - r.first) % r.step == 0 then some (n + r.shift).toNat else none

/-- The lower-case partner of a code point among runs in ascending order, or the code point itself. -/
def lowerIn (n : Nat) : List CaseRun → Nat
  | [] => n
  | r :: rs =>
    if n < r.first then n
    else match r.apply? n with
      | some m => m
      | none => lowerIn n rs

/-- The lower case of one character, where its neighbours do not matter. -/
def lowerChar (c : Char) : List Char :=
  if c = 'İ' then ['i', '\u0307'] else [Char.ofNat (lowerIn c.toNat lowerRuns)]

/-- Says that the first character that counts for word ends has case. -/
def meetsCased (s : List Char) : Bool :=
  match s.dropWhile fun c => inRanges c.toNat caseIgnorableRanges with
  | [] => false
  | c :: _ => inRanges c.toNat casedRanges

/-- The lower case of a text that comes after the characters `before`, the nearest of them first. -/
def lowerAfter (before : List Char) : List Char → List Char
  | [] => []
  | c :: s =>
    let here :=
      if c = 'Σ' then [if meetsCased before && !meetsCased s then 'ς' else 'σ'] else lowerChar c
    here ++ lowerAfter (c :: before) s

def lower (s : List Char) : List Char :=
  lowerAfter [] s

/-- The lower case of a text where only ASCII letters have case. -/
def lowerPlain (s : List Char) : List Char :=
  s.map Char.toLower

def lowered (s : String) : String :=
  String.ofList (lower s.toList)

end DesignCanvas.Text
