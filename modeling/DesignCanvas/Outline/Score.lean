import DesignCanvas.Text.Case
import DesignCanvas.Text.Search
import DesignCanvas.Decimal.Exact

/-!
# Similarity

How alike two texts are, whatever the case of their letters: four fifths if one of them is part of the other, and
else the share that their common characters have in all of their characters, each character counted once.
-/

namespace DesignCanvas

/-- A fraction. -/
structure Score where
  num : Nat
  den : Nat
  deriving DecidableEq, Repr

namespace Score

/-- Compares fractions with positive denominators. -/
def less (a b : Score) : Bool :=
  a.num * b.den < b.num * a.den

/-- The double nearest to a fraction. -/
def toFloat (s : Score) : Float :=
  Decimal.ofInt s.num / Decimal.ofInt s.den

/-- The score of equal texts. -/
def full : Score := ⟨1, 1⟩

/-- The score of a text and a part of it. -/
def containment : Score := ⟨4, 5⟩

/-- Texts that are less alike than this, or just as much, have nothing to do with each other. -/
def threshold : Score := ⟨3, 10⟩

/-- The share of common characters in all characters. -/
def shared (a b : List Char) : Score :=
  let a := a.eraseDups
  let b := b.eraseDups
  let common := (a.filter fun c => b.contains c).length
  ⟨common, a.length + b.length - common⟩

/-- The score of two texts in lower case. Neither of them is empty if none is part of the other. -/
def ofLowered (a b : List Char) : Score :=
  if Text.contains b a || Text.contains a b then containment else shared a b

/-- The score of two texts. -/
def similarity (a b : String) : Score :=
  ofLowered (Text.lower a.toList) (Text.lower b.toList)

end Score

end DesignCanvas
