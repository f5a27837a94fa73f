import DesignCanvas.Proofs.Document.Addressing
import DesignCanvas.Proofs.Tree.Insertion

/-!
# Copying a node

A copy of a node takes the first number after those of earlier copies that makes all of its ids new, and stands right
behind the node among its siblings. It is the node but for its ids, and everything that was there before stays as it is
and where it is (`Editor.copyNode_faithful`).
-/

namespace DesignCanvas

/-- The first number after those of earlier copies for which no node has an id of the copy. -/
structure Editor.NextNumber (e : Editor) (ids : List String) (k : Nat) : Prop where
  above : e.copies < k
  fresh : ∀ id ∈ ids, id ++ s!"-copy-{k}" ∉ e.document.attributes.map Attributes.id
  least : ∀ j, e.copies < j → j < k → ∃ id ∈ ids, id ++ s!"-copy-{j}" ∈ e.document.attributes.map Attributes.id

/-- The node with the ids that it has in a copy of a given number. -/
def Tree.copied (n : Node) (k : Nat) : Node :=
  n.map fun a => { a with id := a.id ++ s!"-copy-{k}" }

namespace Editor

variable {e : Editor} {id : String} {n : Node}

theorem nextNumber (e : Editor) (ids : List String) : e.NextNumber ids (e.copyNumber ids) where
  above := le_firstFree _ _ _
  fresh id hid hmem := by
    obtain ⟨a, ha, haid⟩ := List.mem_map.1 hmem
    exact ne_copy_id hid ha haid
  least j hlow hhigh := by
    have htaken : e.copyTaken ids j := taken_of_lt_firstFree hlow hhigh
    obtain ⟨id, hid, hsome⟩ := List.any_eq_true.1 htaken
    exact ⟨id, hid, Document.find?_isSome.1 hsome⟩

theorem copyNode_eq (hd : (e.document.attributes.map Attributes.id).Nodup) (hn : e.document.find? id = some n) :
    let k := e.copyNumber n.ids
    let nodes := Forest.graft (Attributes.hasId id) (n.copied k) e.document.nodes
    e.copyNode id = .ok ({ e with document := { e.document with nodes }, copies := k }, id ++ s!"-copy-{k}") := by
  have hid : id ∈ e.document.attributes.map Attributes.id := Document.find?_isSome.1 (by rw [hn]; rfl)
  have hcopy : n.extendIds (copySuffix (e.copyNumber n.ids)) = n.copied (e.copyNumber n.ids) := rfl
  have hnew : (n.copied (e.copyNumber n.ids)).id = id ++ s!"-copy-{e.copyNumber n.ids}" := by
    rw [← hcopy, Tree.id_extendIds, Document.id_of_find? hn]
    rfl
  rw [copyNode, hn]
  simp only [hcopy, Forest.insertAfter?_eq_graft (Document.countP_hasId hd hid), hnew]

/-- A node that is there is copied, with the next number, right behind itself, and a node that is not there is not
found. -/
theorem copyNode_faithful (e : Editor) (id : String) (hd : (e.document.attributes.map Attributes.id).Nodup) :
    (∀ n, e.document.find? id = some n → ∃ k nodes,
      let e' : Editor := { e with document := { e.document with nodes }, copies := k }
      e.copyNode id = .ok (e', id ++ s!"-copy-{k}") ∧ e.NextNumber n.ids k ∧
        Forest.PutAfter n (n.copied k) e.document.nodes nodes ∧
        e'.document.find? (id ++ s!"-copy-{k}") = some (n.copied k) ∧ e'.document.find? id = some n ∧
        (Forest.places e.document.nodes).Sublist (Forest.places nodes)) ∧
    (e.document.find? id = none → e.copyNode id = .error (.nodeNotFound id)) := by
  refine ⟨fun n hn => ?_, fun hnone => by rw [copyNode, hnone]⟩
  have hid : id ∈ e.document.attributes.map Attributes.id := Document.find?_isSome.1 (by rw [hn]; rfl)
  have hnumber := e.nextNumber n.ids
  obtain ⟨hput, hkept⟩ :=
    Forest.putAfter_graft (n.copied (e.copyNumber n.ids)) hn (Document.countP_hasId hd hid)
  refine ⟨e.copyNumber n.ids, _, copyNode_eq hd hn, hnumber, hput, ?_, hkept, hput.places_sublist⟩
  -- the id of the copy is new, so that the copy is the only node that it can stand for
  have hroot : Attributes.hasId (id ++ s!"-copy-{e.copyNumber n.ids}") (n.copied (e.copyNumber n.ids)).label := by
    rw [Attributes.hasId, beq_iff_eq, Tree.copied, Tree.label_map, ← Document.id_of_find? hn]
    rfl
  refine hput.find?_new hroot fun a ha hasId => ?_
  have hfresh := hnumber.fresh id (Document.id_of_find? hn ▸ n.id_mem_ids)
  exact hfresh (beq_iff_eq.1 hasId ▸ List.mem_map_of_mem ha)

end Editor

/-- A page with a frame and a shape whose id is the one that the first copy of the frame would give to what is in it. -/
def Document.numbered : Document where
  nodes := [.branch (.bare "0:1" "Page" .page)
    [.branch (.bare "1:1" "Frame" .frame) [.leaf (.bare "1:2" "Shape" .rectangle)],
     .leaf (.bare "1:2-copy-1" "Shape" .rectangle)]]
  selection := []
  styles := []
  unavailableFonts := []
  images := .empty

namespace Editor

/-- The copy has the number two, since one of its ids would not be new with the number one. -/
theorem copyNode_faithful_numbered :
    let e := opening .numbered
    let n : Node := .branch (.bare "1:1" "Frame" .frame) [.leaf (.bare "1:2" "Shape" .rectangle)]
    (e.document.attributes.map Attributes.id).Nodup ∧ e.document.find? "1:1" = some n ∧ e.NextNumber n.ids 2 ∧
      ∃ nodes, Forest.PutAfter n (n.copied 2) e.document.nodes nodes ∧
        e.copyNode "1:1" =
          .ok ({ e with document := { e.document with nodes }, copies := 2 }, "1:1" ++ s!"-copy-{2}") := by
  intro e n
  have hd : (e.document.attributes.map Attributes.id).Nodup := by decide
  have hn : e.document.find? "1:1" = some n := rfl
  obtain ⟨k, nodes, hcopy, hnumber, hput, -⟩ := (copyNode_faithful e "1:1" hd).1 n hn
  have hcopies : (e.copyNode "1:1").toOption.map (fun r => r.1.copies) = some 2 := by decide +kernel
  rw [hcopy] at hcopies
  obtain rfl : k = 2 := Option.some.inj hcopies
  exact ⟨hd, hn, hnumber, nodes, hput, hcopy⟩

end Editor

end DesignCanvas
