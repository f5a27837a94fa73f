import DesignCanvas.Editor.Steps

/-!
# Naming layers

Layers are renamed one by one from a list, all alike, or each after its role in the design. Names inside reusable
parts are left alone when many layers are renamed at once.
-/

namespace DesignCanvas

open Json

/-! ## Explicit names -/

/-- A new name for the node with an id. -/
structure Renaming where
  id : String
  name : String
  deriving DecidableEq, Repr

namespace Renaming

def toJson (r : Renaming) : Json :=
  .obj [("id", .str r.id), ("name", .str r.name)]

def ofJson? (v : Json) : Option Renaming := do
  let f ← record? ["id", "name"] 2 v
  let id ← f.required "id" string?
  let name ← f.required "name" string?
  return ⟨id, name⟩

def step (e : Editor) (r : Renaming) : Step :=
  Step.setName r.name e r.id

end Renaming

namespace Editor

def runRenamings (e : Editor) (operation : String) (rs : List Renaming) (message : Nat → String) : Result Outcome :=
  (Batch.run operation Renaming.id Renaming.step rs e).finish .nothingToRename message

/-- Carries out renamings in their order. -/
def rename (e : Editor) (rs : List Renaming) : Result Outcome :=
  e.runRenamings "rename_layers" rs fun n => s!"{n}개의 레이어 이름을 변경했습니다."

/-- Gives one name to the selected nodes and all below them, but for reusable parts. -/
def renameSelected (e : Editor) (name : String) : Result Outcome :=
  e.onSelection fun ns =>
    let reached := ns.flatMap (Tree.reached Tree.isReusable)
    let targets := reached.filter fun n => !n.isReusable
    e.runRenamings "rename_selected" (targets.map fun n => ⟨n.id, name⟩) fun n =>
      s!"{n}개의 레이어 이름을 \"{name}\"으로 변경했습니다."

end Editor

/-! ## Names after the role -/

/-- What a layer is in a design. -/
inductive Role where
  | text
  | image
  /-- A container that lays out its children. -/
  | sectionBlock
  /-- A part of such a container, or a plain shape. -/
  | item
  | content
  deriving DecidableEq, Repr

def Role.name : Role → String
  | text => "Text"
  | image => "Image"
  | sectionBlock => "Section"
  | item => "Item"
  | content => "Content"

namespace Attributes

/-- The role of a frame or group. -/
def containerRole (a : Attributes) (inAutoLayout : Bool) : Role :=
  if a.isAutoLayout then .sectionBlock else if inAutoLayout then .item else .content

/-- The role of a layer that may be renamed after it; `inAutoLayout` says that it is laid out by its parent. -/
def role? (a : Attributes) (inAutoLayout : Bool) : Option Role :=
  if a.kind.isReusable then none
  else if a.kind = .text then some .text
  else if a.hasImageFill then some .image
  else if a.kind = .frame ∨ a.kind = .group then some (a.containerRole inAutoLayout)
  else if a.kind.isPrimitive then some .item
  else none

end Attributes

/-- The renaming of a visited node after its role. -/
def roleRenaming? (v : Visited Attributes) : Option Renaming :=
  let inAutoLayout := v.ancestors.getLast?.any fun n => n.label.isAutoLayout
  (v.tree.label.role? inAutoLayout).map fun r => ⟨v.tree.id, r.name⟩

/-- Renames the selected nodes and all below them after their roles, but for reusable parts. -/
def Editor.renameByRole (e : Editor) : Result Outcome :=
  e.onSelection fun ns =>
    let visited := ns.flatMap (Tree.visited Tree.isReusable)
    e.runRenamings "auto_rename" (visited.filterMap roleRenaming?) fun n =>
      s!"{n}개의 레이어를 자동으로 네이밍했습니다."

end DesignCanvas
