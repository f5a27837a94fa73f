import DesignCanvas.Text.Digit

/-!
# YAML values

The values that a YAML text denotes, and the forms in which texts, numbers, lists and records stand in them. What a
scalar means is decided only when it is read: as a text it is what was written, whatever that looks like.
-/

namespace DesignCanvas

/-- A YAML value. -/
inductive Yaml where
  /-- A text, written with quotes or plainly. -/
  | scalar (plain : Bool) (text : String)
  | list (items : List Yaml)
  | map (entries : List (String × Yaml))
  deriving Inhabited, Repr

namespace Yaml

def empty : Yaml :=
  .scalar true ""

def text? : Yaml → Option String
  | .scalar _ s => some s
  | _ => none

/-- The plain words for an absent value. -/
def nullWords : List String :=
  ["", "~", "null", "Null", "NULL"]

/-- The text of a scalar, if it is not absent. -/
def optionalText? : Yaml → Option (Option String)
  | .scalar plain s => some (if plain && nullWords.contains s then none else some s)
  | _ => none

/-! ## Numbers -/

def digit? (base : Nat) (c : Char) : Option Nat :=
  if Text.isHexDigit c ∧ Text.hexValue c < base then some (Text.hexValue c) else none

/-- The number that digits write in a base. -/
def ofDigits? (base : Nat) (s : List Char) : Option Nat :=
  if s.isEmpty then none else (s.mapM (digit? base)).map fun ds => ds.foldl (fun n d => base * n + d) 0

/-- The count that a word without a plus sign writes, in base sixteen, eight, two or ten. No decimal count of more
than one digit begins with a zero. -/
def unsigned? : List Char → Option Nat
  | '0' :: 'x' :: s => ofDigits? 16 s
  | '0' :: 'o' :: s => ofDigits? 8 s
  | '0' :: 'b' :: s => ofDigits? 2 s
  | '0' :: c :: s => if (c :: s).all Text.isPlainDigit then none else ofDigits? 10 ('0' :: c :: s)
  | s => ofDigits? 10 s

/-- The count that a word writes. -/
def count? : List Char → Option Nat
  | '+' :: s => unsigned? s
  | s => unsigned? s

/-- A plain count below a limit. -/
def natBelow? (limit : Nat) : Yaml → Option Nat
  | .scalar true s => (count? s.toList).bind fun n => if n < limit then some n else none
  | _ => none

/-! ## Lists and records -/

/-- The items of a list, each read by `f`. Nothing is the empty list. -/
def list? (f : Yaml → Option α) : Yaml → Option (List α)
  | .list items => items.mapM f
  | .scalar true "" => some []
  | _ => none

/-- The entries of a record in which none of the given names comes twice. Nothing is the record without entries. -/
def entries? (names : List String) : Yaml → Option (List (String × Yaml))
  | .map entries => if names.all fun n => (entries.countP fun e => e.1 == n) ≤ 1 then some entries else none
  | .scalar true "" => some []
  | _ => none

/-- The value of an entry that has to be there. -/
def required (entries : List (String × Yaml)) (name : String) (f : Yaml → Option α) : Option α :=
  (entries.lookup name).bind f

/-- The value of an entry, or a default if it is not there. -/
def defaulted (entries : List (String × Yaml)) (name : String) (f : Yaml → Option α) (default : α) : Option α :=
  match entries.lookup name with
  | some v => f v
  | none => some default

end Yaml

end DesignCanvas
