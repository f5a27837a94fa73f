import DesignCanvas.Proofs.Editor.Removal
import DesignCanvas.Proofs.Tree.Places

/-!
# Deleting what is selected

Nodes are removed one at a time, and one that is below another may be gone when its turn comes. What is left in the end
is what is neither selected nor below anything that is, so that the order of the selection does not matter.
-/

namespace DesignCanvas

namespace Editor

variable {e : Editor}

/-- Deleting takes out all nodes that are selected, whatever becomes of the single steps. -/
theorem nodes_delete (hd : (e.document.attributes.map Attributes.id).Nodup) :
    (e.apply .delete).editor.document.nodes = Forest.prune e.document.selects e.document.nodes := by
  have hlast := (last_remove hd (e.document.roots.map Tree.id)).1
  rw [apply_editor (i := .delete) nofun]
  refine hlast.trans (Forest.prune_congr fun a ha => ?_)
  rw [Bool.eq_iff_iff, decide_eq_true_iff]
  exact Document.mem_ids_roots ha

theorem answer_delete (hd : (e.document.attributes.map Attributes.id).Nodup) (hroots : e.document.roots ≠ []) :
    ∃ o, (e.apply .delete).answer = .ok o := by
  obtain ⟨n, ns, hns⟩ := List.exists_cons_of_ne_nil hroots
  have hid : n.id ∈ e.document.attributes.map Attributes.id :=
    List.mem_map_of_mem (Document.mem_attributes_of_root (hns ▸ List.mem_cons_self ..) n.label_mem_labels)
  have hsucceeded : Taken.succeeded ⟨n.id, e, Step.remove e n.id⟩ := by
    obtain ⟨e', hremove, -⟩ := nodes_removeNode hd hid
    rw [Taken.succeeded_iff, Step.remove, hremove]
    rfl
  have hhistory : Intent.delete.history e =
      Batch.history (fun id => id) Step.remove e (e.document.roots.map Tree.id) := rfl
  have hsome : (Intent.delete.history e).countP Taken.succeeded ≠ 0 := by
    rw [hhistory, hns, List.map_cons, Batch.history, List.countP_cons_of_pos hsucceeded]
    omega
  obtain ⟨message, hanswer⟩ := (e.apply_ran .delete).ok_of_ne_zero hsome
  exact ⟨_, hanswer⟩

/-- If anything is selected, it is deleted with all that is below it, and everything else stays as it is and where it
is. Selected in any other order it would have been the same. -/
theorem delete_exactly (e : Editor) (hd : (e.document.attributes.map Attributes.id).Nodup)
    (hroots : e.document.roots ≠ []) :
    let d := (e.apply .delete).editor.document
    (∃ o, (e.apply .delete).answer = .ok o) ∧ d.nodes = Forest.prune e.document.selects e.document.nodes ∧
      Forest.places d.nodes = (Forest.places e.document.nodes).filter (Place.spared e.document.selects) ∧
      ∀ ids, ids.Perm e.document.selection → ((e.select ids).apply .delete).editor.document.nodes = d.nodes := by
  have hnodes := nodes_delete hd
  refine ⟨answer_delete hd hroots, hnodes, ?_, fun ids hperm => ?_⟩
  · rw [hnodes, Forest.places_prune]
  · have hselects : (e.select ids).document.selects = e.document.selects := by
      funext a
      simp [Document.selects, select, hperm.mem_iff]
    rw [nodes_delete (e := e.select ids) hd, hselects, hnodes]
    rfl

end Editor

/-- A page with a frame and a shape. Selected are a text in the frame, the frame, no node and the text again. -/
def Document.nested : Document where
  nodes := [.branch (.bare "0:1" "Page" .page)
    [.branch (.bare "1:1" "Frame" .frame) [.leaf (.bare "1:2" "Text" .text), .leaf (.bare "1:3" "Shape" .rectangle)],
     .leaf (.bare "1:4" "Shape" .rectangle)]]
  selection := ["1:2", "1:1", "9:9", "1:2"]
  styles := []
  unavailableFonts := []
  images := .empty

namespace Editor

theorem delete_exactly_nested :
    let e := opening .nested
    let nodes := (e.apply .delete).editor.document.nodes
    (e.document.attributes.map Attributes.id).Nodup ∧ e.document.roots ≠ [] ∧
      (∃ o, (e.apply .delete).answer = .ok o) ∧ Forest.ids nodes = ["0:1", "1:4"] ∧
      ((e.select ["1:1", "9:9", "1:2", "1:2"]).apply .delete).editor.document.nodes = nodes := by
  intro e nodes
  have hd : (e.document.attributes.map Attributes.id).Nodup := by decide
  have hroots : e.document.roots ≠ [] := nofun
  obtain ⟨hanswer, hnodes, -, hperm⟩ := delete_exactly e hd hroots
  refine ⟨hd, hroots, hanswer, ?_, hperm _ (by decide)⟩
  rw [show nodes = Forest.prune e.document.selects e.document.nodes from hnodes]
  decide

end Editor

end DesignCanvas
