/-!
# Doubles as exact numbers

A double is a sign and a magnitude, and a finite magnitude is a whole number times a power of two.
Everything about the text of a double is decided on that pair in exact arithmetic.
-/

namespace DesignCanvas.Decimal

/-- The magnitude of a double; a finite one is `mantissa · 2 ^ exponent`. -/
inductive Magnitude where
  | notNumber
  | infinite
  | finite (mantissa : Nat) (exponent : Int)
  deriving DecidableEq, Repr

/-- A double taken apart. -/
structure Exact where
  negative : Bool
  magnitude : Magnitude
  deriving DecidableEq, Repr

/-- The exponent of the smallest doubles. -/
def lowestExponent : Int := -1074

/-- The smallest mantissa with all of its 53 bits, two to the power of 52. -/
def smallestNormal : Nat := 0x10000000000000

/-- Takes a double apart by its bits: one of sign, eleven of exponent and 52 of mantissa. -/
def Exact.ofFloat (x : Float) : Exact :=
  let bits := x.toBits.toNat
  let fraction := bits % smallestNormal
  let biased := bits / smallestNormal % 0x800
  { negative := bits / 0x8000000000000000 % 2 == 1
    magnitude :=
      if biased = 2047 then (if fraction = 0 then .infinite else .notNumber)
      else if biased = 0 then .finite fraction lowestExponent
      else .finite (smallestNormal + fraction) (lowestExponent + (biased - 1 : Nat)) }

/-- The number `m · 2 ^ e · 10 ^ p` as a quotient of two whole numbers. -/
def quotient (m : Nat) (e p : Int) : Nat × Nat :=
  (m * Nat.pow 2 e.toNat * Nat.pow 10 p.toNat, Nat.pow 2 (-e).toNat * Nat.pow 10 (-p).toNat)

/-- The whole number nearest to a quotient, a half going up. -/
def nearestUp (num den : Nat) : Nat :=
  (2 * num + den) / (2 * den)

/-- The whole number nearest to a quotient, a half going to the even neighbour. -/
def nearestEven (num den : Nat) : Nat :=
  let q := num / den
  let r := num % den
  if 2 * r < den then q else if den < 2 * r then q + 1 else q + q % 2

/-- The whole number nearest to `m · 2 ^ e`, a half going up. -/
def nearest (m : Nat) (e : Int) : Nat :=
  let (num, den) := quotient m e 0
  nearestUp num den

/-- The whole number nearest to a double, a half going away from zero, brought into the range from 0 to
`top`; what is no number gives 0. -/
def clampedNat (x : Float) (top : Nat) : Nat :=
  let t := Exact.ofFloat x
  match t.magnitude with
  | .notNumber => 0
  | .infinite => if t.negative then 0 else top
  | .finite m e => if t.negative then 0 else min (nearest m e) top

/-- The double nearest to a whole number of at most 64 bits. -/
def ofInt (n : Int) : Float :=
  let size := n.natAbs.toUInt64.toFloat
  if n < 0 then -size else size

end DesignCanvas.Decimal
