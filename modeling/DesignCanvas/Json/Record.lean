import DesignCanvas.Json.Basic

/-!
# Reading records from JSON

The forms in which records, choices and lists stand in JSON. A record is an object in which no known name
comes twice and unknown names are passed over, or an array of its fields in their order, which may leave out
the last ones as long as they have a default. A choice with contents is an object or an array that carries the
name of the choice beside the contents.
-/

namespace DesignCanvas

open Json

/-- The values of a record's fields by name. -/
structure Record where
  fields : List (String × Json)

namespace Json

def string? : Json → Option String
  | .str s => some s
  | _ => none

def bool? : Json → Option Bool
  | .bool b => some b
  | _ => none

def float? : Json → Option Float
  | .num n => some n.toFloat
  | _ => none

def nat? : Json → Option Nat
  | .num (.int n) => if 0 ≤ n then some n.toNat else none
  | _ => none

/-- The items of an array, each read by `f`. -/
def list? (f : Json → Option α) : Json → Option (List α)
  | .arr items => items.mapM f
  | _ => none

/-- A value that may be null. -/
def nullable? (f : Json → Option α) : Json → Option (Option α)
  | .null => some none
  | v => (f v).map some

/-- How often a name occurs among members. -/
def occurrences (name : String) (members : List (String × Json)) : Nat :=
  members.countP fun m => m.1 == name

/-- Reads a record with the given names of fields, of which the first `least` have no default. -/
def record? (names : List String) (least : Nat) : Json → Option Record
  | .obj members => if names.all fun n => occurrences n members ≤ 1 then some ⟨members⟩ else none
  | .arr items =>
    if least ≤ items.length ∧ items.length ≤ names.length then some ⟨names.zip items⟩ else none
  | _ => none

/-- Reads the name of a choice that stands under `tag` in an object or first in an array, together with the
rest of the contents. All of the contents has to be sound. -/
def tagged? (tag : String) (v : Json) : Option (String × Json) :=
  if v.sound then
    match v with
    | .obj members =>
      if occurrences tag members = 1 then
        match members.lookup tag with
        | some (.str name) => some (name, .obj (members.filter fun m => m.1 != tag))
        | _ => none
      else none
    | .arr (.str name :: items) => some (name, .arr items)
    | _ => none
  else none

/-- The contents of a choice without fields: any members, no items. -/
def isBare : Json → Bool
  | .obj _ => true
  | .arr items => items.isEmpty
  | _ => false

/-- The name of a choice without contents: a string, or an object with that one member and null in it. -/
def choice? : Json → Option String
  | .str s => some s
  | .obj [(s, .null)] => some s
  | _ => none

end Json

namespace Record

/-- The value of a field, if it was given. -/
def get? (r : Record) (name : String) : Option Json :=
  r.fields.lookup name

/-- A field that has to be there. -/
def required (r : Record) (name : String) (f : Json → Option α) : Option α :=
  (r.get? name).bind f

/-- A field with a default, which may be left out but not be null. -/
def defaulted (r : Record) (name : String) (f : Json → Option α) (default : α) : Option α :=
  match r.get? name with
  | some v => f v
  | none => some default

/-- A field that may be left out or be null. -/
def optional (r : Record) (name : String) (f : Json → Option α) : Option (Option α) :=
  match r.get? name with
  | some v => nullable? f v
  | none => some none

end Record

def Json.orNull (f : α → Json) : Option α → Json
  | some a => f a
  | none => .null

/-- A member that is only written when it has a value. -/
def optionalMember (name : String) (f : α → Json) : Option α → List (String × Json)
  | some a => [(name, f a)]
  | none => []

end DesignCanvas
