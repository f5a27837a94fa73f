import DesignCanvas.Editor.Batch
import DesignCanvas.Scene.Collect
import DesignCanvas.Text.Blank

/-!
# Looking at the selection

The rows of the list of layers, the number of layers with a name, the texts to be checked for spelling, and the
choice of other nodes to be selected.
-/

namespace DesignCanvas

open Json

/-! ## Lists of layers -/

/-- A row of the list of layers. -/
structure LayerRow where
  id : String
  name : String
  /-- The short name of the kind. -/
  label : String
  deriving DecidableEq, Repr

namespace LayerRow

def ofNode (n : Node) : LayerRow :=
  ⟨n.id, n.label.name, n.label.kind.shortLabel⟩

def toJson (r : LayerRow) : Json :=
  .obj [("id", .str r.id), ("name", .str r.name), ("type", .str r.label)]

def ofJson? (v : Json) : Option LayerRow := do
  let f ← record? ["id", "name", "type"] 3 v
  let id ← f.required "id" string?
  let name ← f.required "name" string?
  let label ← f.required "type" string?
  return ⟨id, name, label⟩

end LayerRow

/-- The selected nodes, of which there has to be one. -/
def Document.selectedNodes (d : Document) : Except Refusal (List Node) :=
  match d.roots with
  | [] => .error .emptySelection
  | n :: ns => .ok (n :: ns)

/-- The rows of the selected nodes, each with the nodes right below it. -/
def Document.layerRows (d : Document) : Except Refusal (List LayerRow) :=
  d.selectedNodes.map fun ns => (ns.flatMap Tree.shallow).map LayerRow.ofNode

/-! ## Counting names -/

/-- How many nodes are selected, and how many nodes below them have a name. -/
structure NameCount where
  selected : Nat
  matching : Nat
  deriving DecidableEq, Repr

namespace NameCount

def toJson (c : NameCount) : Json :=
  .obj [("selectionCount", .nat c.selected), ("matchingCount", .nat c.matching)]

def ofJson? (v : Json) : Option NameCount := do
  let f ← record? ["selectionCount", "matchingCount"] 2 v
  let selected ← f.required "selectionCount" nat?
  let matching ← f.required "matchingCount" nat?
  return ⟨selected, matching⟩

end NameCount

/-- Counts the nodes below the selected ones that have a name. A node below two of them counts twice. -/
def Document.countNamed (d : Document) (name : String) : NameCount :=
  ⟨d.roots.length, (d.roots.flatMap (Tree.withName name)).length⟩

/-! ## Texts -/

/-- A text in which there is more than blanks. -/
def isWritten (s : String) : Bool :=
  !Text.allBlank s.toList

/-- The texts below the selected nodes that are to be checked for spelling, of which there has to be one. -/
def Document.textsToCheck (d : Document) : Except Refusal (List String) := do
  let ns ← d.selectedNodes
  let texts := ((ns.flatMap Tree.texts).filterMap fun n => n.label.characters).filter isWritten
  if texts.isEmpty then .error .nothingToCheck else .ok texts

/-! ## Choosing other nodes -/

/-- Selects those of some nodes that there are, of which there has to be one. -/
def Editor.choose (e : Editor) (ids : List String) : Result Outcome :=
  let found := ids.filter fun id => (e.document.find? id).isSome
  if found.isEmpty then .refuse e .nothingToSelect
  else .reply (e.select found) ⟨found.length, s!"{found.length}개의 레이어를 선택했습니다."⟩

end DesignCanvas
