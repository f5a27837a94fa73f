import DesignCanvas.Editor.Basic

/-!
# Copies and removal

A copy of a node stands right after it and carries new ids, made from the old ones and a number that makes all of
them new to the document. Removal takes a node out with everything below it.
-/

namespace DesignCanvas

/-- The first number from `n` on that is not taken, if one of the next `tries` numbers or the one after them is
not. -/
def firstFree (taken : Nat → Bool) : Nat → Nat → Nat
  | 0, n => n
  | tries + 1, n => if taken n then firstFree taken tries (n + 1) else n

/-- What the ids in the copy of a given number end in. -/
def copySuffix (number : Nat) : String :=
  s!"-copy-{number}"

/-- The node with every id in it extended. -/
def Tree.extendIds (suffix : String) (n : Node) : Node :=
  n.map fun a => { a with id := a.id ++ suffix }

/-- The ids of a node and of everything below it. -/
def Tree.ids (n : Node) : List String :=
  n.labels.map Attributes.id

namespace Editor

/-- Says that the copy with a given number would have an id that some node has. -/
def copyTaken (e : Editor) (ids : List String) (number : Nat) : Bool :=
  ids.any fun id => (e.document.find? (id ++ copySuffix number)).isSome

/-- The number of the next copy of nodes with given ids. Each node can take one number, so there is a free one
among as many as there are nodes and one more. -/
def copyNumber (e : Editor) (ids : List String) : Nat :=
  firstFree (e.copyTaken ids) e.document.attributes.length (e.copies + 1)

/-- Copies a node; gives the editor and the id of the copy. -/
def copyNode (e : Editor) (id : String) : Except EditError (Editor × String) :=
  match e.document.find? id with
  | none => .error (.nodeNotFound id)
  | some n =>
    let number := e.copyNumber n.ids
    let copy := n.extendIds (copySuffix number)
    match Forest.insertAfter? (Attributes.hasId id) copy e.document.nodes with
    | none => .error (.nodeNotFound id)
    | some nodes => .ok ({ e with document := { e.document with nodes }, copies := number }, copy.id)

/-- Removes a node, also from the selection. -/
def removeNode (e : Editor) (id : String) : Edit :=
  match Forest.remove? (Attributes.hasId id) e.document.nodes with
  | none => .error (.nodeNotFound id)
  | some nodes =>
    .ok { e with
      document := { e.document with nodes, selection := e.document.selection.filter (· != id) } }

end Editor

end DesignCanvas
