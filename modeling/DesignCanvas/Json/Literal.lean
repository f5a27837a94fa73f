import DesignCanvas.Json.Basic
import DesignCanvas.Text.Digit

/-!
# Number literals

The number that a JSON literal stands for. A literal without fraction and exponent that fits 64 bits is a
whole number. Of any other the leading digits that fit 64 bits make a significand, which is then scaled by a
power of ten with one rounding; a result beyond the doubles is no number.
-/

namespace DesignCanvas.Json

open DesignCanvas

/-- The parts of a number literal, digits as they were written. -/
structure Literal where
  negative : Bool
  whole : List Char
  fraction : List Char
  /-- The sign and the digits of the exponent. -/
  exponent : Option (Bool × List Char)

/-- One more than the largest significand. -/
def significandLimit : Nat := 0x10000000000000000

/-- The largest exponent that is read digit by digit. -/
def exponentLimit : Nat := 0x80000000

/-- Takes digits into a significand until one does not fit; gives the significand, how many digits it took,
and how many it left. -/
def takeDigits (significand taken : Nat) : List Char → Nat × Nat × Nat
  | [] => (significand, taken, 0)
  | c :: s =>
    let next := 10 * significand + Text.digitValue c
    if next < significandLimit then takeDigits next (taken + 1) s
    else (significand, taken, s.length + 1)

/-- The double nearest to a power of ten. -/
def tenTo (n : Nat) : Float :=
  Float.ofScientific 1 false n

/-- Scales a double by a power of ten, in steps where the power is too small for a double. Three steps bring
every significand to zero. -/
def scaleFrom : Nat → Float → Int → Option Float
  | 0, f, _ => some f
  | steps + 1, f, e =>
    if e.natAbs ≤ 308 then
      if 0 ≤ e then
        let g := f * tenTo e.toNat
        if g.isInf then none else some g
      else some (f / tenTo e.natAbs)
    else if f == 0 then some f
    else if 0 ≤ e then none
    else scaleFrom steps (f / tenTo 308) (e + 308)

/-- A significand scaled by a power of ten. -/
def scale (negative : Bool) (significand : Nat) (e : Int) : Option Number :=
  (scaleFrom 4 significand.toUInt64.toFloat e).map fun f => .float (if negative then -f else f)

/-- The magnitude of the least whole number of 64 bits with a sign. -/
def lowestMagnitude : Nat := 0x8000000000000000

/-- A whole number that fits 64 bits; a negative one that does not fit, and the negative zero, are doubles. -/
def wholeNumber (negative : Bool) (n : Nat) : Number :=
  if !negative then .int n
  else if n = 0 ∨ lowestMagnitude < n then .float (-(n.toUInt64.toFloat))
  else .int (-(n : Int))

/-- The number that a literal stands for. -/
def Literal.number? (l : Literal) : Option Number :=
  let (s₀, _, left) := takeDigits 0 0 l.whole
  let (s₁, taken, _) := takeDigits s₀ 0 l.fraction
  let shift : Int := left - taken
  match l.exponent with
  | some (down, digits) =>
    let e := Text.plainValueFrom 0 digits
    if e < exponentLimit then scale l.negative s₁ (if down then shift - e else shift + e)
    else if s₁ ≠ 0 ∧ !down then none
    else some (.float (if l.negative then -0.0 else 0.0))
  | none =>
    if l.fraction.isEmpty ∧ left = 0 then some (wholeNumber l.negative s₀)
    else scale l.negative s₁ shift

end DesignCanvas.Json
