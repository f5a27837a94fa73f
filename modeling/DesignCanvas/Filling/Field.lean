import DesignCanvas.Json.Record

/-!
# Fields

A field is a named list of values that are handed out in turn, again from the first one after the last.
-/

namespace DesignCanvas

open Json

/-- A field with the position of its next value. -/
structure Field where
  name : String
  description : String
  values : List String
  cursor : Nat
  deriving DecidableEq, Repr

namespace Field

/-- Hands out the next value, if there are any values. -/
def next (f : Field) : Option String × Field :=
  match f.values[f.cursor % f.values.length]? with
  | some value => (some value, { f with cursor := (f.cursor + 1) % f.values.length })
  | none => (none, f)

def reset (f : Field) : Field :=
  { f with cursor := 0 }

/-- A field as a record, which does not keep the position. -/
def toJson (f : Field) : Json :=
  .obj [("name", .str f.name), ("description", .str f.description), ("values", .strings f.values)]

/-- Reads a field, which stands before its first value. -/
def ofJson? (v : Json) : Option Field := do
  let f ← record? ["name", "description", "values"] 3 v
  let name ← f.required "name" string?
  let description ← f.defaulted "description" string? ""
  let values ← f.required "values" (list? string?)
  return { name, description, values, cursor := 0 }

end Field

end DesignCanvas
