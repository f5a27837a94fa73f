import DesignCanvas.Decimal.Shortest
import DesignCanvas.Text.Digit

/-!
# Decimal text

How the digits of a double are set: with the point in place or with an exponent, with a given number
of places, or as a whole number.
-/

namespace DesignCanvas.Decimal

open DesignCanvas

/-- The choices of a way to write doubles. -/
structure Layout where
  /-- The point is set in place when it stands after more than the first and at most the second number of
  digits, counted from the first one; without bounds it always is. -/
  positional : Option (Int × Int)
  /-- What is written after the digits of a whole number. -/
  wholeEnd : String

/-- Digits with the point in place: after `point` of them, with zeros where there are none. -/
def placePoint (digits : List Char) (point : Int) (wholeEnd : String) : List Char :=
  if point ≤ 0 then '0' :: '.' :: (List.replicate (-point).toNat '0' ++ digits)
  else if digits.length ≤ point.toNat then
    digits ++ List.replicate (point.toNat - digits.length) '0' ++ wholeEnd.toList
  else digits.take point.toNat ++ '.' :: digits.drop point.toNat

/-- Digits with the point after the first one and an exponent. -/
def withExponent (digits : List Char) (point : Int) : List Char :=
  let tail := digits.drop 1
  digits.take 1 ++ (if tail.isEmpty then [] else '.' :: tail) ++ 'e' :: (toString (point - 1)).toList

/-- The text of a positive decimal in a layout. -/
def Layout.digits (l : Layout) (d : Digits) : List Char :=
  let ds := Text.decimal d.significand
  let point := ds.length + d.exponent
  match l.positional with
  | none => placePoint ds point l.wholeEnd
  | some (low, high) =>
    if low < point ∧ point ≤ high then placePoint ds point l.wholeEnd else withExponent ds point

/-- A minus sign in front of what is negative. -/
def signed (negative : Bool) (s : List Char) : String :=
  String.ofList (if negative then '-' :: s else s)

/-- The text of a double in a layout: its shortest digits, with the sign of a negative zero kept. -/
def Layout.write (l : Layout) (x : Float) : String :=
  let t := Exact.ofFloat x
  match t.magnitude with
  | .notNumber => "NaN"
  | .infinite => signed t.negative "inf".toList
  | .finite m e =>
    signed t.negative (if m = 0 then '0' :: l.wholeEnd.toList else l.digits (shortest m e))

/-- The way numbers are written in messages: never with an exponent, whole numbers without a point. -/
def plain : Layout := ⟨none, ""⟩

/-- A double rounded to a whole number, a half going away from zero; the sign of a negative number stays
when nothing else of it does. A double without a fraction is written as it is. -/
def rounded (x : Float) : String :=
  let t := Exact.ofFloat x
  match t.magnitude with
  | .finite m e => if e < 0 then signed t.negative (Text.decimal (nearest m e)) else plain.write x
  | _ => plain.write x

/-- A double with a given positive number of decimal places, a half going to the even neighbour. -/
def fixed (places : Nat) (x : Float) : String :=
  let t := Exact.ofFloat x
  match t.magnitude with
  | .notNumber => "NaN"
  | .infinite => signed t.negative "inf".toList
  | .finite m e =>
    let (num, den) := quotient m e places
    let n := nearestEven num den
    let unit := Nat.pow 10 places
    let frac := Text.decimal (n % unit)
    signed t.negative
      (Text.decimal (n / unit) ++ '.' :: (List.replicate (places - frac.length) '0' ++ frac))

end DesignCanvas.Decimal
