import DesignCanvas.Json.Record
import DesignCanvas.Selection.Layers

/-!
# Texts of a design

The texts that there are below a node, each with the names of the nodes above it.
-/

namespace DesignCanvas

open Json

/-- A text of a design. -/
structure TextRecord where
  nodeId : String
  name : String
  text : String
  /-- The names of the nodes above, outermost first. -/
  path : String
  deriving DecidableEq, Repr

namespace TextRecord

def toJson (r : TextRecord) : Json :=
  .obj [("nodeId", .str r.nodeId), ("name", .str r.name), ("text", .str r.text), ("path", .str r.path)]

def ofJson? (v : Json) : Option TextRecord := do
  let f ← record? ["nodeId", "name", "text", "path"] 4 v
  let nodeId ← f.required "nodeId" string?
  let name ← f.required "name" string?
  let text ← f.required "text" string?
  let path ← f.required "path" string?
  return ⟨nodeId, name, text, path⟩

/-- The text of a visited node, if it is a text node with more than blanks. -/
def ofVisited? (v : Visited Attributes) : Option TextRecord :=
  let a := v.tree.label
  if v.tree.isText && isWritten a.text then
    some ⟨a.id, a.name, a.text, " > ".intercalate (v.ancestors.map fun n => n.label.name)⟩
  else none

end TextRecord

def Tree.textRecords (n : Node) : List TextRecord :=
  (n.visited Tree.isText).filterMap TextRecord.ofVisited?

def Document.textRecords (d : Document) : List TextRecord :=
  d.roots.flatMap Tree.textRecords

end DesignCanvas
