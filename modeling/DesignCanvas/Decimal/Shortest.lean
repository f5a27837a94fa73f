import DesignCanvas.Decimal.Exact

/-!
# Shortest decimals

The shortest decimal of a double is the one on the coarsest decimal grid among those that read back as
the double, and the nearest to it of these. A grid has such a point only if one of the two grid points
around the double is one, so two points are tried on each grid.
-/

namespace DesignCanvas.Decimal

/-- A decimal number: `significand · 10 ^ exponent`. -/
structure Digits where
  significand : Nat
  exponent : Int
  deriving DecidableEq, Repr

/-- Says that `d · 10 ^ k` rounds to the double `m · 2 ^ e`. The bounds are halfway to the neighbours of
the double and belong to it when its mantissa is even; below a power of two the neighbour is half as
far. Numbers are compared in quarters of the last place. -/
def readsBack (m : Nat) (e : Int) (d : Nat) (k : Int) : Bool :=
  let (num, den) := quotient d (2 - e) k
  let low := if m = smallestNormal ∧ lowestExponent < e then 4 * m - 1 else 4 * m - 2
  let high := 4 * m + 2
  if m % 2 = 0 then low * den ≤ num && num ≤ high * den else low * den < num && num < high * den

/-- The better of the two points of the grid `10 ^ k` around `m · 2 ^ e`, if one of them reads back. -/
def onGrid? (m : Nat) (e k : Int) : Option Digits :=
  let (num, den) := quotient m e (-k)
  let d := num / den
  match readsBack m e d k, readsBack m e (d + 1) k with
  | true, true => some (if 2 * num < (2 * d + 1) * den then ⟨d, k⟩ else ⟨d + 1, k⟩)
  | true, false => some ⟨d, k⟩
  | false, true => some ⟨d + 1, k⟩
  | false, false => none

/-- Tries the grids from `10 ^ k` on to finer ones. Seventeen digits always suffice, so the last grid is
never reached. -/
def fromGrid (m : Nat) (e : Int) : Nat → Int → Digits
  | 0, k =>
    let (num, den) := quotient m e (-k)
    ⟨num / den, k⟩
  | steps + 1, k => (onGrid? m e k).getD (fromGrid m e steps (k - 1))

/-- The exponent of the leading decimal digit of `m · 2 ^ e`, from the length of `m` in binary and the
decimal logarithm of two. -/
def leadingExponent (m : Nat) (e : Int) : Int :=
  let guess := ((Nat.log2 m + e) * 30103).fdiv 100000
  let below (p : Int) : Bool :=
    let (num, den) := quotient m e (-p)
    decide (num < den)
  if below guess then guess - 1 else if below (guess + 1) then guess else guess + 1

/-- The shortest decimal that reads back as `m · 2 ^ e`, for a positive mantissa. -/
def shortest (m : Nat) (e : Int) : Digits :=
  fromGrid m e 20 (leadingExponent m e + 1)

end DesignCanvas.Decimal
