import DesignCanvas.Proofs.Assistant.Handle
import DesignCanvas.Proofs.Editor.Removal
import Mathlib.Data.List.TakeWhile

/-!
# Valid selections

Which requests leave an id selected that no node has. Choosing selects what is there, duplicating selects the copies,
and quiet moves change neither the nodes nor the selection. Deleting takes a node out of the selection only at its own
turn: a node that went before with one that it was below stays selected. So in a run of requests the selection stays
valid just as long as no node is deleted before a selected one below it (`Assistant.selectionResolves_iff`).
-/

namespace DesignCanvas

open Forest (ids without)

namespace Document

/-- Every selected id is that of a node. -/
def SelectionResolves (d : Document) : Prop :=
  ∀ id ∈ d.selection, (d.find? id).isSome

instance (d : Document) : Decidable d.SelectionResolves :=
  inferInstanceAs (Decidable (∀ id ∈ d.selection, (d.find? id).isSome))

/-- No selected node is below one that is selected before it. -/
def InnerFirst (d : Document) : Prop :=
  ∀ id ∈ d.selection, ∀ outer ∈ d.selection.takeWhile (· != id), ∀ n ∈ d.find? outer, id ∉ n.ids

instance (d : Document) : Decidable d.InnerFirst :=
  inferInstanceAs (Decidable (∀ id ∈ d.selection, ∀ outer ∈ d.selection.takeWhile (· != id),
    ∀ n ∈ d.find? outer, id ∉ n.ids))

variable {d d' : Document}

theorem SelectionResolves.mono (h : d.SelectionResolves) (hids : ids d'.nodes = ids d.nodes)
    (hselection : d'.selection ⊆ d.selection) : d'.SelectionResolves := by
  intro id hid
  rw [find?_isSome]
  change id ∈ ids d'.nodes
  rw [hids]
  exact find?_isSome.1 (h id (hselection hid))

theorem SelectionResolves.ids_roots (h : d.SelectionResolves) : d.roots.map Tree.id = d.selection := by
  rw [Document.ids_roots, List.filter_eq_self]
  exact h

end Document

namespace Editor

variable {e e' : Editor}

theorem Drifts.keeps_ids (h : Drifts e e') :
    ids e'.document.nodes = ids e.document.nodes ∧ e'.document.selection = e.document.selection := by
  induction h with
  | refl => exact ⟨rfl, rfl⟩
  | tail _ hm ih =>
    obtain ⟨hids, hselection⟩ := hm.keeps_ids
    exact ⟨hids.trans ih.1, hselection.trans ih.2⟩

/-! ## Choosing -/

theorem choose_resolves (is : List String) (h : e.document.SelectionResolves) :
    (e.choose is).editor.document.SelectionResolves := by
  unfold choose
  dsimp only
  split
  · exact h
  · exact fun id hid => (List.mem_filter.1 hid).2

/-! ## Duplicating -/

theorem selection_copy (e : Editor) (id : String) :
    (Step.copy e id).editor.document.selection ⊆ e.document.selection := by
  unfold Step.copy
  split
  · exact List.Subset.refl _
  · next e₁ new hcopy =>
    split
    · next e₂ hplace =>
      cases hn : e₁.node new with
      | error x => simp [hn, Except.bind] at hplace
      | ok n =>
        rw [hn] at hplace
        obtain ⟨-, hselection⟩ := (setPosition_quiet hplace).keeps_ids
        obtain ⟨n, nodes, -, -, rfl, -⟩ := copyNode_ok hcopy
        exact hselection ▸ List.Subset.refl _
    · rw [removeNode_copyNode hcopy]
      exact List.filter_subset_self _

theorem selection_copies (e : Editor) (targets : List String) :
    (Batch.last e (Batch.history (fun id => id) Step.copy e targets)).document.selection ⊆ e.document.selection := by
  induction targets generalizing e with
  | nil => exact List.Subset.refl _
  | cons id targets ih => exact List.Subset.trans (ih _) (e.selection_copy id)

theorem duplicate_resolves (hd : (ids e.document.nodes).Nodup) (h : e.document.SelectionResolves) :
    (e.apply .duplicate).editor.document.SelectionResolves := by
  cases hanswer : (e.apply .duplicate).answer with
  | ok o =>
    obtain ⟨-, -, hcopied⟩ := copied_duplicate hd hanswer
    exact fun id hid => Document.find?_isSome.2 (hcopied.mem_after (Or.inl hid))
  | error refusal =>
    have hran := e.apply_ran .duplicate
    have hzero : (Intent.duplicate.history e).countP Taken.succeeded = 0 := by
      by_contra hsome
      obtain ⟨message, hok⟩ := hran.ok_of_ne_zero hsome
      rw [hanswer] at hok
      cases hok
    have hlast : (e.apply .duplicate).editor = Batch.last e (Intent.duplicate.history e) := by
      rcases hran.editor with hlast | ⟨hpos, -⟩
      · exact hlast
      · omega
    obtain ⟨hcopied, hmade⟩ := copied_history (.none hd) fun _ => Document.mem_ids_of_root
    have hnone := List.eq_nil_of_length_eq_zero (hmade.trans hzero)
    have hnodes : (Batch.last e (Intent.duplicate.history e)).document.nodes = e.document.nodes := by
      have hrestored := hcopied.restored
      rw [hnone] at hrestored
      rwa [Forest.without_eq_self (by simp)] at hrestored
    rw [hlast]
    exact h.mono (congrArg ids hnodes) (e.selection_copies _)

/-! ## Deleting -/

theorem delete_editor (h : e.document.SelectionResolves) :
    (e.apply .delete).editor =
      Batch.last e (Batch.history (fun id => id) Step.remove e e.document.selection) := by
  rw [apply_editor (i := .delete) nofun, ← h.ids_roots]
  rfl

theorem present_iff {id : String} {targets : List String} (hd : (ids e.document.nodes).Nodup)
    (hid : id ∈ ids e.document.nodes) (htarget : id ∈ targets) :
    (∃ before after, targets = before ++ id :: after ∧ id ∈ ids (without (· ∈ before) e.document.nodes)) ↔
      ∀ outer ∈ targets.takeWhile (· != id), ∀ n ∈ e.document.find? outer, id ∉ n.ids := by
  constructor
  · rintro ⟨before, after, rfl, hmem⟩ outer houter n hn
    have hbefore : outer ∈ before := by
      rw [List.takeWhile_append] at houter
      split at houter
      · simpa using houter
      · exact (List.takeWhile_sublist _).subset houter
    exact ((Forest.mem_without_iff hd).1 hmem).2 outer (by simpa using hbefore) n hn
  · intro hall
    have hsome : targets.dropWhile (· != id) ≠ [] := by
      rw [Ne, List.dropWhile_eq_nil_iff]
      exact fun hne => by simpa using hne id htarget
    obtain ⟨first, after, hdrop⟩ := List.exists_cons_of_ne_nil hsome
    have hfirst : first = id := by
      have hhead := List.head_dropWhile_not (· != id) hsome
      simpa [hdrop] using hhead
    refine ⟨targets.takeWhile (· != id), after, ?_, (Forest.mem_without_iff hd).2 ⟨hid, fun outer houter => ?_⟩⟩
    · rw [← hfirst, ← hdrop, hfirst, List.takeWhile_append_dropWhile]
    · exact hall outer (by simpa using houter)

/-- Deleting leaves a valid selection just if no selected node is below one that is selected before it. -/
theorem delete_resolves_iff (hd : (ids e.document.nodes).Nodup) (h : e.document.SelectionResolves) :
    (e.apply .delete).editor.document.SelectionResolves ↔ e.document.InnerFirst := by
  obtain ⟨hnodes, hselection⟩ := last_remove hd e.document.selection
  rw [delete_editor h]
  set d := (Batch.last e (Batch.history (fun id => id) Step.remove e e.document.selection)).document
  have hgone : ∀ id ∈ e.document.selection, ¬ (d.find? id).isSome := by
    intro id hid hsome
    have hmem : id ∈ ids d.nodes := Document.find?_isSome.1 hsome
    rw [hnodes] at hmem
    simpa [hid] using Forest.not_of_mem_without hmem
  -- so what is still selected does not resolve, and the selection is valid just if it is empty
  have hdropped : d.SelectionResolves ↔ ∀ id ∈ e.document.selection, id ∉ d.selection :=
    ⟨fun hresolves id hid hmem => hgone id hid (hresolves id hmem),
      fun hnone id hmem => absurd hmem (hnone id ((hselection id).1 hmem).1)⟩
  refine hdropped.trans (forall₂_congr fun id hid => ?_)
  rw [← present_iff hd (Document.find?_isSome.1 (h id hid)) hid, hselection]
  simp only [hid, true_and, not_forall, not_not, exists_prop]

/-! ## Quiet requests -/

theorem run_drifts {α : Type} {operation : String} {id : α → String} {step : Editor → α → Step}
    (hstep : ∀ e a, Drifts e (step e a).editor) (items : List α) (e : Editor) :
    Drifts e (Batch.run operation id step items e).editor := by
  rw [Batch.run_eq]
  exact (Batch.chain_history _ _ _ _).last_rel .refl (fun _ _ _ => .trans)
    (Batch.forall_history (P := fun t => Drifts t.before t.step.editor) hstep e items)

theorem onSelection_drifts {α : Type} {operation : List Node → Result α}
    (h : Drifts e (operation e.document.roots).editor) : Drifts e (e.onSelection operation).editor := by
  rw [onSelection_eq]
  split
  · exact .refl e
  · exact h

theorem apply_drifts {i : Intent} (hduplicate : i ≠ .duplicate) (hdelete : i ≠ .delete) (e : Editor) :
    Drifts e (e.apply i).editor := by
  refine onSelection_drifts ?_
  have hstep := i.step_drifts hduplicate hdelete
  cases i with
  | duplicate => exact absurd rfl hduplicate
  | _ => exact run_drifts hstep _ e

end Editor

namespace Request

open Editor

variable {s : Settings} {e : Editor} {r : Request}

theorem carryOut_command {i : Intent} (h : r.intent? = some i) : (r.carryOut s e).1 = (e.apply i).editor := by
  cases r with
  | command text =>
    rw [carryOut, runCommand]
    cases hparse : Command.parse text with
    | error error => simp [intent?, hparse, Except.toOption] at h
    | ok j =>
      obtain rfl : j = i := by simpa [intent?, hparse, Except.toOption] using h
      dsimp only
      split <;> rfl
  | _ => cases h

theorem carryOut_drifts (hchoose : r.chooses = false) (hduplicate : r.intent? ≠ some .duplicate)
    (hdelete : r.intent? ≠ some .delete) (s : Settings) (e : Editor) : Drifts e (r.carryOut s e).1 := by
  have hname : ∀ (e : Editor) (c : Renaming), Drifts e (c.step e).editor := fun e c => Step.setName_drifts c.name e c.id
  cases r with
  | command text =>
    cases hparse : Command.parse text with
    | error error =>
      rw [carryOut, runCommand, hparse]
      exact .refl e
    | ok i =>
      have hintent : (command text).intent? = some i := by rw [intent?, hparse]; rfl
      rw [carryOut_command hintent]
      exact apply_drifts (fun h => hduplicate (h ▸ hintent)) (fun h => hdelete (h ▸ hintent)) e
  | summary | countNamed => exact .refl e
  | layers | compare | spelling =>
    rw [carryOut, lookUp_editor]
    exact .refl e
  | rename changes =>
    rw [carryOut, conclude_editor]
    exact run_drifts hname _ e
  | renameSelected | renameByRole =>
    rw [carryOut, conclude_editor]
    exact onSelection_drifts (run_drifts hname _ e)
  | fillTexts value =>
    rw [carryOut, conclude_editor]
    exact onSelection_drifts (run_drifts (Step.writeText_drifts _) _ e)
  | fillFields fields =>
    rw [carryOut, conclude_editor]
    have hwrite : ∀ (e : Editor) (a : Pools.Assignment), Drifts e (a.step e).editor :=
      fun e a => Step.writeText_drifts _ e a.id
    exact onSelection_drifts (run_drifts hwrite _ e)
  | fillPictures kind =>
    rw [carryOut, conclude_editor]
    refine onSelection_drifts ?_
    dsimp only
    split
    · exact .refl e
    · exact run_drifts (Step.fillTurn_drifts _ _ _) _ e
  | audit kind fix =>
    rw [carryOut, conclude_editor]
    exact e.audit_drifts kind fix
  | selectNode | selectNodes => cases hchoose

/-- A request leaves a valid selection, but for a command to delete a node before a selected one below it. -/
theorem carryOut_resolves_iff (hd : (ids e.document.nodes).Nodup) (h : e.document.SelectionResolves) :
    (r.carryOut s e).1.document.SelectionResolves ↔ (r.intent? = some .delete → e.document.InnerFirst) := by
  by_cases hdelete : r.intent? = some .delete
  · rw [carryOut_command hdelete, delete_resolves_iff hd h]
    exact (imp_iff_right hdelete).symm
  refine iff_of_true ?_ fun heq => absurd heq hdelete
  by_cases hduplicate : r.intent? = some .duplicate
  · rw [carryOut_command hduplicate]
    exact duplicate_resolves hd h
  cases hchoose : r.chooses with
  | true =>
    cases r with
    | selectNode id =>
      rw [carryOut, conclude_editor]
      exact choose_resolves [id] h
    | selectNodes is =>
      rw [carryOut, conclude_editor]
      exact choose_resolves is h
    | _ => cases hchoose
  | false =>
    obtain ⟨hids, hselection⟩ := (carryOut_drifts hchoose hduplicate hdelete s e).keeps_ids
    exact h.mono hids (hselection ▸ List.Subset.refl _)

end Request

namespace Assistant

variable {s : Settings} {a : Assistant} {r : Request}

/-- In a run that begins with distinct ids of nodes and a valid selection, the selection stays valid just as long as no
command deletes a node before a selected one below it. -/
theorem selectionResolves_iff (a : Assistant) (rs : List (Settings × Request))
    (hd : (a.editor.document.attributes.map Attributes.id).Nodup) (h : a.editor.document.SelectionResolves) :
    (∀ b ∈ a.states rs, b.editor.document.SelectionResolves) ↔
      ∀ p ∈ (a.states rs).zip rs, p.2.2.intent? = some .delete → p.1.editor.document.InnerFirst := by
  induction rs generalizing a with
  | nil => exact iff_of_true (fun b hb => List.mem_singleton.1 hb ▸ h) (fun p hp => by cases hp)
  | cons q rs ih =>
    obtain ⟨s, r⟩ := q
    have hstep := r.carryOut_resolves_iff (s := s) hd h
    rw [← handle_editor] at hstep
    have hd' : ((a.handle s r).1.editor.document.attributes.map Attributes.id).Nodup := by
      rw [handle_editor]
      exact (r.carryOut_reaches s a.editor).keeps (P := fun e => (e.document.attributes.map Attributes.id).Nodup)
        (fun _ _ => Editor.Move.keeps_nodup) hd
    have hfirst : (a.handle s r).1 ∈ (a.handle s r).1.states rs := by cases rs <;> exact List.mem_cons_self ..
    rw [states, List.forall_mem_cons, List.zip_cons_cons, List.forall_mem_cons]
    by_cases hnext : (a.handle s r).1.editor.document.SelectionResolves
    · rw [ih _ hd' hnext]
      exact and_congr_left fun _ => iff_of_true h (hstep.1 hnext)
    · exact iff_of_false (fun hall => hnext (hall.2 _ hfirst)) (fun hall => hnext (hstep.2 hall.1))

end Assistant

/-- A frame with a shape in it, both of which are selected. -/
def Document.framed (selection : List String) : Document where
  nodes := [.branch (.bare "1:1" "Frame" .frame) [.leaf (.bare "1:2" "Shape" .rectangle)]]
  selection
  styles := []
  unavailableFonts := []
  images := .empty

namespace Assistant

/-- The copies are selected in the order of what was copied, the shape before the frame, and can be deleted. -/
theorem selectionResolves_framed :
    let a := opening (.framed ["1:2", "1:1"]) .off .off
    a.editor.document.SelectionResolves ∧
      ∀ b ∈ a.states [(.offline, .command "복제"), (.offline, .selectNodes ["1:1", "9:9"]),
          (.offline, .renameSelected "A"), (.offline, .selectNodes ["1:2", "1:1", "1:2"]), (.offline, .command "삭제")],
        b.editor.document.SelectionResolves :=
  ⟨by decide, (selectionResolves_iff _ _ (by decide) (by decide)).2 (by decide +kernel)⟩

/-- The shape goes with the frame and stays selected. -/
theorem not_selectionResolves_framed :
    let a := opening (.framed ["1:1", "1:2"]) .off .off
    (a.editor.document.attributes.map Attributes.id).Nodup ∧ a.editor.document.SelectionResolves ∧
      ¬ ∀ b ∈ a.states [(.offline, .command "삭제")], b.editor.document.SelectionResolves := by
  decide +kernel

end Assistant

end DesignCanvas
