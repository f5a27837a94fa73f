import DesignCanvas.Decimal.Exact

/-!
# JSON values

The values that a JSON text denotes. Whole numbers are kept apart from doubles, members keep their order
and their repetitions, and a piece of text that has the shape of a value without having one keeps its
place as `broken`.
-/

namespace DesignCanvas

/-- A JSON number: a whole number that was written as one and fits 64 bits, or a double. -/
inductive Number where
  | int (n : Int)
  | float (x : Float)
  deriving DecidableEq, Repr

/-- A JSON value. -/
inductive Json where
  | null
  | bool (b : Bool)
  | num (n : Number)
  | str (s : String)
  | arr (items : List Json)
  | obj (members : List (String × Json))
  /-- A string with half of a surrogate pair, a number beyond the doubles, or values nested too deep. It may
  be passed over but not read. -/
  | broken
  deriving Inhabited, Repr

def Number.toFloat : Number → Float
  | .int n => Decimal.ofInt n
  | .float x => x

namespace Json

def nat (n : Nat) : Json :=
  .num (.int n)

def float (x : Float) : Json :=
  .num (.float x)

def strings (xs : List String) : Json :=
  .arr (xs.map .str)

mutual

/-- A value in which nothing is broken. -/
def sound : Json → Bool
  | .null => true
  | .bool _ => true
  | .num _ => true
  | .str _ => true
  | .arr items => soundItems items
  | .obj members => soundMembers members
  | .broken => false

def soundItems : List Json → Bool
  | [] => true
  | v :: vs => v.sound && soundItems vs

def soundMembers : List (String × Json) → Bool
  | [] => true
  | (_, v) :: ms => v.sound && soundMembers ms

end

end Json

end DesignCanvas
