import DesignCanvas.Filling.Field
import DesignCanvas.Editor.Steps

/-!
# Filling texts

Texts are filled with one value, or with the values of fields: a text that is named like a field takes the next
value of that field, and the other texts take the next values of the fields in turn.
-/

namespace DesignCanvas

/-- The fields to be handed out, and how many texts have taken a field in turn. -/
structure Pools where
  fields : List Field
  turn : Nat
  deriving DecidableEq, Repr

namespace Pools

/-- Fields before their first values. -/
def ofFields (fields : List Field) : Pools :=
  ⟨fields.map Field.reset, 0⟩

/-- The position of the first field with a name, whatever the case of its letters. -/
def named? (p : Pools) (name : String) : Option Nat :=
  let wanted := Text.lowered name
  p.fields.findIdx? fun f => Text.lowered f.name == wanted

/-- The position of the field for a text with a name, and the number of turns taken after that. -/
def choice (p : Pools) (name : String) : Nat × Nat :=
  match p.named? name with
  | some i => (i, p.turn)
  | none => (p.turn % p.fields.length, p.turn + 1)

/-- Hands out the value for a text with a name, if the field for it has any. -/
def draw (p : Pools) (name : String) : Option String × Pools :=
  let (i, turn) := p.choice name
  match p.fields[i]? with
  | none => (none, p)
  | some f =>
    let (value, f) := f.next
    (value, { fields := p.fields.set i f, turn })

/-- A text with the value that it is to have. -/
structure Assignment where
  id : String
  value : String
  deriving DecidableEq, Repr

/-- Hands out values for texts in their order. A text whose field has no values gets none. -/
def assign (p : Pools) : List Attributes → List Assignment
  | [] => []
  | a :: as =>
    match p.draw a.name with
    | (some value, p) => ⟨a.id, value⟩ :: p.assign as
    | (none, p) => p.assign as

/-- Writes an assigned value. -/
def Assignment.step (e : Editor) (a : Assignment) : Step :=
  Step.writeText (fun _ => a.value) e a.id

end Pools

namespace Editor

/-- Fills the texts below the selected nodes with the values of fields. -/
def fillFields (e : Editor) (fields : List Field) : Result Outcome :=
  e.onSelection fun ns =>
    let assignments := (Pools.ofFields fields).assign ((ns.flatMap Tree.texts).map Tree.label)
    (Batch.run "round_robin_fill" Pools.Assignment.id Pools.Assignment.step assignments e).finish .noText fun n =>
      s!"{n}개의 텍스트에 데이터를 순서대로 적용했습니다."

/-- Fills the texts below the selected nodes with one value. -/
def fillTexts (e : Editor) (value : String) : Result Outcome :=
  e.onSelection fun _ =>
    (e.writeAll "apply_dummy_data" value).finish .noText fun n => s!"{n}개의 텍스트에 데이터를 적용했습니다."

end Editor

end DesignCanvas
