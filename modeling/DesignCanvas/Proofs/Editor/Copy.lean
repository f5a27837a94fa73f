import DesignCanvas.Proofs.Editor.Numbering

/-!
# Copies of nodes

A copy carries the ids of its node, extended by a suffix that makes all of them new to the document
(`Editor.copyNode_ok`, `Editor.ne_copy_id`). So taking it out again by its id leaves the nodes exactly as they were
before (`Editor.removeNode_copyNode`), also where several nodes have the same id.
-/

namespace DesignCanvas

theorem Tree.ids_extendIds (suffix : String) (n : Node) : (n.extendIds suffix).ids = n.ids.map (· ++ suffix) := by
  simp [Tree.extendIds, Tree.ids, Tree.labels_map, Function.comp_def]

theorem Tree.id_extendIds (suffix : String) (n : Node) : (n.extendIds suffix).id = n.id ++ suffix := by
  cases n <;> rfl

theorem Tree.id_mem_ids (n : Node) : n.id ∈ n.ids :=
  List.mem_map_of_mem n.label_mem_labels

namespace Editor

variable {e e' : Editor} {id new : String}

theorem copyNode_ok (h : e.copyNode id = .ok (e', new)) :
    ∃ n nodes, e.document.find? id = some n ∧
      Forest.insertAfter? (Attributes.hasId id) (n.extendIds (copySuffix (e.copyNumber n.ids))) e.document.nodes
        = some nodes ∧
      e' = { e with document := { e.document with nodes }, copies := e.copyNumber n.ids } ∧
      new = n.id ++ copySuffix (e.copyNumber n.ids) := by
  unfold copyNode at h
  split at h
  · cases h
  · next n hn =>
    dsimp only at h
    split at h
    · cases h
    · next nodes hnodes =>
      obtain ⟨rfl, rfl⟩ := Prod.mk.inj (Except.ok.inj h)
      exact ⟨n, nodes, hn, hnodes, rfl, Tree.id_extendIds _ n⟩

theorem ne_copy_id {ids : List String} (hid : id ∈ ids) {a : Attributes} (ha : a ∈ e.document.attributes) :
    a.id ≠ id ++ copySuffix (e.copyNumber ids) := by
  intro heq
  have hfree := e.copyTaken_copyNumber ids
  rw [copyTaken, List.any_eq_false] at hfree
  exact hfree id hid (Forest.find?_isSome.2 ⟨a, ha, by simp [Attributes.hasId, heq]⟩)

/-- Taking out a copy that was just made restores the nodes. -/
theorem removeNode_copyNode (h : e.copyNode id = .ok (e', new)) :
    e'.removeNode new = .ok { e' with
      document := { e.document with selection := e.document.selection.filter (· != new) } } := by
  obtain ⟨n, nodes, hn, hnodes, rfl, rfl⟩ := copyNode_ok h
  have hroot : Attributes.hasId (n.id ++ copySuffix (e.copyNumber n.ids))
      (n.extendIds (copySuffix (e.copyNumber n.ids))).label :=
    beq_iff_eq.2 (Tree.id_extendIds _ n)
  -- the original keeps its id, so the copy is the only node that can be taken out by the new one
  have hnew : ∀ a ∈ Forest.labels e.document.nodes,
      ¬ Attributes.hasId (n.id ++ copySuffix (e.copyNumber n.ids)) a := by
    intro a ha
    simpa [Attributes.hasId] using ne_copy_id n.id_mem_ids ha
  rw [removeNode, Forest.remove?_insertAfter? hroot hnodes hnew]

theorem find?_copyNode (h : e.copyNode id = .ok (e', new)) : e.document.find? new = none := by
  obtain ⟨n, nodes, hn, hnodes, rfl, rfl⟩ := copyNode_ok h
  by_contra hsome
  obtain ⟨a, ha, hid⟩ := Forest.find?_isSome.1 (Option.isSome_iff_ne_none.2 hsome)
  exact ne_copy_id n.id_mem_ids ha (beq_iff_eq.1 hid)

end Editor

end DesignCanvas
