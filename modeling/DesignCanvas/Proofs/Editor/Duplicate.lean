import DesignCanvas.Proofs.Assistant.History
import DesignCanvas.Proofs.Document.Addressing

/-!
# Duplicating and deleting

Deleting the copies that a duplication has made, which are then selected, restores the forest of nodes
(`Editor.delete_duplicate`). Copies are made one after another, each behind an original, so a later one may have copies
of earlier ones in it but none of these themselves: however some of them are taken out, the others stay
(`Copied.apart`), and without all of them the forest is the one before (`Copied.restored`).
-/

namespace DesignCanvas

def Forest.ids (ns : List Node) : List String :=
  (Forest.labels ns).map Attributes.id

/-- The forest without the nodes whose ids are among some. -/
def Forest.without (S : String → Bool) (ns : List Node) : List Node :=
  Forest.prune (fun a => S a.id) ns

namespace Forest

variable {ns : List Node} {S T : String → Bool} {f : Attributes → Attributes}

theorem ids_map (hf : ∀ a, (f a).id = a.id) (ns : List Node) : ids (Forest.map f ns) = ids ns := by
  rw [ids, labels_map, List.map_map, ids]
  exact List.map_congr_left fun a _ => hf a

theorem without_map (hf : ∀ a, (f a).id = a.id) (ns : List Node) :
    without S (Forest.map f ns) = Forest.map f (without S ns) :=
  prune_map (fun a => by rw [hf]) ns

theorem without_eq_self (h : ∀ id ∈ ids ns, ¬ S id) : without S ns = ns :=
  prune_eq_self fun _ ha => h _ (List.mem_map_of_mem ha)

theorem without_congr (h : ∀ id ∈ ids ns, S id = T id) : without S ns = without T ns :=
  prune_congr fun _ ha => h _ (List.mem_map_of_mem ha)

theorem without_without (ns : List Node) : without T (without S ns) = without (fun id => S id || T id) ns :=
  prune_prune ns

theorem ids_without (S : String → Bool) (ns : List Node) : (ids (without S ns)).Sublist (ids ns) :=
  (labels_prune _ ns).map _

theorem not_of_mem_without {id : String} (h : id ∈ ids (without S ns)) : ¬ S id := by
  rw [ids, without] at h
  obtain ⟨a, ha, rfl⟩ := List.mem_map.1 h
  exact not_of_mem_prune a ha

end Forest

open Forest (ids without)

/-! ## Copies in a forest -/

/-- A forest with the copies that were made of nodes of another one. -/
structure Copied (before : List Node) (made : List String) (after : List Node) : Prop where
  nodup : (ids after).Nodup
  distinct : made.Nodup
  /-- Without the copies it is the forest that they were made in. -/
  restored : without (· ∈ made) after = before
  /-- No copy and no original is below a copy. -/
  apart : ∀ S : String → Bool, (∀ id ∈ ids before, ¬ S id) →
    ∀ id, id ∈ made ∨ id ∈ ids before → ¬ S id → id ∈ ids (without S after)

namespace Copied

variable {before after after' : List Node} {made : List String} {id new : String} {copy : Node}
  {f : Attributes → Attributes}

theorem none (h : (ids before).Nodup) : Copied before [] before where
  nodup := h
  distinct := List.nodup_nil
  restored := Forest.without_eq_self fun id _ => by simp
  apart S hS id hid hnot := by
    rw [Forest.without_eq_self hS]
    exact hid.resolve_left List.not_mem_nil

theorem mem_after (h : Copied before made after) (hid : id ∈ made ∨ id ∈ ids before) : id ∈ ids after :=
  (Forest.ids_without _ _).subset (h.apart (fun _ => false) (by simp) id hid (by simp))

theorem not_mem_made (h : Copied before made after) (hid : id ∈ ids before) : id ∉ made := by
  rw [← h.restored] at hid
  simpa using Forest.not_of_mem_without hid

theorem insert (h : Copied before made after) (hid : id ∈ ids before) (hnew : copy.id ∉ ids after)
    (hf : ∀ a, (f a).id = a.id) (hkeep : ∀ a, a.id ≠ copy.id → f a = a)
    (hnodup : (ids after').Nodup)
    (hafter : after' = Forest.map f (Forest.graft (Attributes.hasId id) copy after)) :
    Copied before (made ++ [copy.id]) after' where
  nodup := hnodup
  distinct := by
    have hmade : copy.id ∉ made := fun hmem => hnew (h.mem_after (Or.inl hmem))
    exact List.nodup_append'.2 ⟨h.distinct, List.nodup_singleton _, by simpa using hmade⟩
  restored := by
    have hbefore : ∀ a ∈ Forest.labels before, f a = a := by
      intro a ha
      refine hkeep a fun hcopy => hnew ?_
      rw [← hcopy]
      exact h.mem_after (Or.inr (List.mem_map_of_mem ha))
    have hpruned : without (· ∈ made ++ [copy.id]) (Forest.graft (Attributes.hasId id) copy after) = before := by
      rw [without, Forest.prune_graft_self (by simp [Tree.id])]
      refine (Forest.without_congr (S := (· ∈ made ++ [copy.id])) fun x hx => ?_).trans h.restored
      have hne : x ≠ copy.id := fun heq => hnew (heq ▸ hx)
      simp [hne]
    rw [hafter, Forest.without_map hf, hpruned, Forest.map_eq_self hbefore]
  apart S hS x hx hnot := by
    rw [hafter, Forest.without_map hf, Forest.ids_map hf]
    by_cases hcopy : S copy.id
    · have hne : x ≠ copy.id := fun heq => hnot (heq ▸ hcopy)
      rw [without, Forest.prune_graft_self hcopy]
      refine h.apart S hS x (hx.imp_left fun hmem => ?_) hnot
      simpa [hne] using hmem
    · have hplace : ∀ a, Attributes.hasId id a → ¬ S a.id := by
        intro a ha
        rw [beq_iff_eq.1 ha]
        exact hS id hid
      rw [without, Forest.prune_graft hcopy hplace]
      rcases hx with hx | hx
      · rcases List.mem_append.1 hx with hx | hx
        · exact ((Forest.labels_sublist_graft _).map _).subset (h.apart S hS x (Or.inl hx) hnot)
        · -- the original that the copy stands behind is still there
          obtain ⟨a, ha, haid⟩ := List.mem_map.1 (h.apart S hS id (Or.inr hid) (hS id hid))
          have hroot := Tree.label_mem_labels (copy.prune fun a => S a.id)
          rw [Tree.label_prune] at hroot
          obtain rfl := List.mem_singleton.1 hx
          have hplaced : Attributes.hasId id a := beq_iff_eq.2 haid
          exact List.mem_map_of_mem (Forest.mem_graft ⟨a, ha, hplaced⟩ _ hroot)
      · exact ((Forest.labels_sublist_graft _).map _).subset (h.apart S hS x (Or.inr hx) hnot)

end Copied

/-! ## Copying nodes one after another -/

namespace Editor

variable {e e' : Editor} {before : List Node} {made : List String} {id : String}

theorem nodes_setPosition {x y : Float} (hd : (e.document.attributes.map Attributes.id).Nodup)
    (h : e.setPosition id x y = .ok e') :
    e'.document.nodes = Forest.map (fun a => if a.id = id then { a with x, y } else a) e.document.nodes :=
  nodes_change hd (fun _ _ hab => (ite_ok hab).2.symm) h

theorem copied_copy (h : Copied before made e.document.nodes) (hid : id ∈ ids before) :
    Copied before (made ++ (Step.copy e id).made) (Step.copy e id).editor.document.nodes := by
  unfold Step.copy
  split
  · simpa [Step.fail] using h
  · next e₁ new hcopy =>
    obtain ⟨copy, rfl, hnodes⟩ := nodes_copyNode h.nodup hcopy
    have hfresh : copy.id ∉ ids e.document.nodes := fun hmem => by
      have hsome := Document.find?_isSome.2 hmem
      simp [find?_copyNode hcopy] at hsome
    have hnodup := copyNode_nodup hcopy h.nodup
    split
    · next e₂ hplace =>
      cases hn : e₁.node copy.id with
      | error x => simp [hn, Except.bind] at hplace
      | ok n =>
        rw [hn] at hplace
        have hplaced := nodes_setPosition hnodup hplace
        refine h.insert hid hfresh (fun a => ?_) (fun a ha => if_neg ha) ?_ (hplaced.trans (by rw [hnodes]))
        · split <;> rfl
        · change (ids e₂.document.nodes).Nodup
          rw [hplaced, Forest.ids_map fun a => by split <;> rfl]
          exact hnodup
    · rw [removeNode_copyNode hcopy]
      simpa [Step.fail] using h

theorem made_copy (e : Editor) (id : String) :
    (Step.copy e id).verdict = .ok true ∧ (Step.copy e id).made.length = 1 ∨
      (Step.copy e id).verdict ≠ .ok true ∧ (Step.copy e id).made = [] := by
  unfold Step.copy
  split
  · exact Or.inr ⟨nofun, rfl⟩
  · next e₁ new hcopy =>
    split
    · exact Or.inl ⟨rfl, rfl⟩
    · rw [removeNode_copyNode hcopy]
      exact Or.inr ⟨nofun, rfl⟩

theorem length_made_copy (e : Editor) (id : String) :
    (Step.copy e id).made.length = if Taken.succeeded ⟨id, e, Step.copy e id⟩ then 1 else 0 := by
  rcases made_copy e id with ⟨hverdict, hmade⟩ | ⟨hverdict, hmade⟩
  · rw [if_pos (Taken.succeeded_iff.2 hverdict), hmade]
  · rw [if_neg fun h => hverdict (Taken.succeeded_iff.1 h), hmade, List.length_nil]

theorem copied_history {targets : List String} (h : Copied before made e.document.nodes)
    (htargets : ∀ id ∈ targets, id ∈ ids before) :
    let taken := Batch.history (fun id => id) Step.copy e targets
    Copied before (made ++ taken.flatMap fun t => t.step.made) (Batch.last e taken).document.nodes ∧
      (taken.flatMap fun t => t.step.made).length = taken.countP Taken.succeeded := by
  induction targets generalizing e made with
  | nil => simpa [Batch.history, Batch.last] using h
  | cons id targets ih =>
    obtain ⟨hid, htargets⟩ := List.forall_mem_cons.1 htargets
    obtain ⟨hrest, hlength⟩ := ih (copied_copy h hid) htargets
    refine ⟨?_, ?_⟩
    · simpa [Batch.history, Batch.last] using hrest
    · simp only [Batch.history, List.flatMap_cons, List.length_append, List.countP_cons, hlength, length_made_copy]
      omega

/-! ## Removing nodes one after another -/

theorem history_remove {targets : List String} (hd : (ids e.document.nodes).Nodup) (hdistinct : targets.Nodup)
    (hapart : ∀ S : String → Bool, (∀ id, S id → id ∈ targets) →
      ∀ id ∈ targets, ¬ S id → id ∈ ids (without S e.document.nodes)) :
    let taken := Batch.history (fun id => id) Step.remove e targets
    (Batch.last e taken).document.nodes = without (· ∈ targets) e.document.nodes ∧
      taken.countP Taken.succeeded = targets.length := by
  induction targets generalizing e with
  | nil =>
    refine ⟨?_, rfl⟩
    exact (Forest.without_eq_self fun id _ => by simp).symm
  | cons id targets ih =>
    obtain ⟨hid, hdistinct⟩ := List.nodup_cons.1 hdistinct
    have hmem : id ∈ ids e.document.nodes := by
      have hmem := hapart (fun _ => false) (by simp) id (List.mem_cons_self ..) (by simp)
      rwa [Forest.without_eq_self (by simp)] at hmem
    obtain ⟨e', hremove, hnodes⟩ := nodes_removeNode hd hmem
    have hnodes : e'.document.nodes = without (· == id) e.document.nodes := hnodes
    have hd' : (ids e'.document.nodes).Nodup := by
      rw [hnodes]
      exact hd.sublist (Forest.ids_without _ _)
    have hapart' : ∀ S : String → Bool, (∀ x, S x → x ∈ targets) →
        ∀ x ∈ targets, ¬ S x → x ∈ ids (without S e'.document.nodes) := by
      intro S hS x hx hnot
      have hne : x ≠ id := fun heq => hid (heq ▸ hx)
      rw [hnodes, Forest.without_without]
      refine hapart _ (fun y hy => ?_) x (List.mem_cons_of_mem _ hx) (by simp [hne, hnot])
      rcases Bool.or_eq_true_iff.1 hy with hy | hy
      · exact List.mem_cons.2 (Or.inl (beq_iff_eq.1 hy))
      · exact List.mem_cons_of_mem _ (hS y hy)
    obtain ⟨hlast, hcount⟩ := ih hd' hdistinct hapart'
    have hstep : Step.remove e id = Step.done e' := by rw [Step.remove, hremove]; rfl
    refine ⟨?_, ?_⟩
    · rw [Batch.history, Batch.last, hstep]
      refine hlast.trans ?_
      rw [hnodes, Forest.without_without]
      exact Forest.without_congr fun x _ => by simp [Bool.beq_eq_decide_eq]
    · rw [Batch.history, List.countP_cons, hstep]
      exact congrArg (· + 1) hcount

/-! ## The two intents -/

theorem duplicate_ok {targets : List String} {o : Outcome} (h : (e.duplicate targets).answer = .ok o) :
    let taken := Batch.history (fun id => id) Step.copy e targets
    o.changed = taken.countP Taken.succeeded ∧ o.changed ≠ 0 ∧
      (e.duplicate targets).editor = (Batch.last e taken).select (taken.flatMap fun t => t.step.made) := by
  unfold duplicate at h ⊢
  simp only [Batch.runIds, Batch.run_eq, Batch.finish] at h ⊢
  split at h
  · simp at h
  · next hzero =>
    rw [if_neg hzero]
    obtain rfl := Except.ok.inj h
    exact ⟨rfl, hzero, rfl⟩

/-- A duplication leaves copies of selected nodes, which it selects. -/
theorem copied_duplicate {o : Outcome} (hd : (ids e.document.nodes).Nodup)
    (h : (e.apply .duplicate).answer = .ok o) :
    let d := (e.apply .duplicate).editor.document
    d.selection.length = o.changed ∧ o.changed ≠ 0 ∧ Copied e.document.nodes d.selection d.nodes := by
  have happly : e.apply .duplicate = e.duplicate (e.document.roots.map Tree.id) := by
    rw [apply, onSelection_eq] at h ⊢
    split
    · next hnone => simp [hnone, Result.refuse] at h
    · rfl
  rw [happly] at h ⊢
  obtain ⟨hchanged, hpos, heditor⟩ := duplicate_ok h
  obtain ⟨hcopied, hlength⟩ := copied_history (.none hd) fun _ => Document.mem_ids_of_root
  rw [heditor]
  exact ⟨hlength.trans hchanged.symm, hpos, hcopied⟩

theorem apply_delete (hd : (ids e.document.nodes).Nodup) (hdistinct : e.document.selection.Nodup)
    (hnone : e.document.selection ≠ [])
    (hapart : ∀ S : String → Bool, (∀ id, S id → id ∈ e.document.selection) →
      ∀ id ∈ e.document.selection, ¬ S id → id ∈ ids (without S e.document.nodes)) :
    ∃ o, (e.apply .delete).answer = .ok o ∧ o.changed = e.document.selection.length ∧
      (e.apply .delete).editor.document.nodes = without (· ∈ e.document.selection) e.document.nodes := by
  have hroots : e.document.roots.map Tree.id = e.document.selection := by
    rw [Document.ids_roots]
    refine List.filter_eq_self.2 fun id hid => Document.find?_isSome.2 ?_
    have hmem := hapart (fun _ => false) (by simp) id hid (by simp)
    exact (Forest.ids_without _ _).subset hmem
  have hsome : e.document.roots ≠ [] := fun h => hnone (by rw [← hroots, h, List.map_nil])
  obtain ⟨hlast, hcount⟩ := history_remove hd hdistinct hapart
  have hpos : (Batch.history (fun id => id) Step.remove e e.document.selection).countP Taken.succeeded ≠ 0 := by
    rw [hcount]
    exact fun h => hnone (List.length_eq_zero_iff.1 h)
  rw [apply, onSelection_eq, if_neg hsome, hroots, applyTo, each, Batch.runIds, Batch.run_eq]
  exact ⟨_, if_neg hpos, hcount, hlast⟩

/-- The copies that a duplication has made can all be deleted right after it, which restores the nodes. -/
theorem delete_duplicate (e : Editor) (o : Outcome) (hd : (e.document.attributes.map Attributes.id).Nodup)
    (h : (e.apply .duplicate).answer = .ok o) :
    let e' := (e.apply .duplicate).editor
    ∃ o', (e'.apply .delete).answer = .ok o' ∧ o'.changed = o.changed ∧
      (e'.apply .delete).editor.document.nodes = e.document.nodes := by
  intro e'
  obtain ⟨hlength, hpos, hcopied⟩ := copied_duplicate hd h
  have hnone : e'.document.selection ≠ [] := fun hnil => hpos (by rw [← hlength, hnil, List.length_nil])
  obtain ⟨o', hanswer, hchanged, hnodes⟩ :=
    apply_delete hcopied.nodup hcopied.distinct hnone fun S hS id hid =>
      hcopied.apart S (fun x hx hSx => hcopied.not_mem_made hx (hS x hSx)) id (Or.inl hid)
  exact ⟨o', hanswer, hchanged.trans hlength, hnodes.trans hcopied.restored⟩

end Editor

/-- A frame on a page, selected together with the rectangle in it, which is selected twice, the page and an id that no
node has. -/
def Document.overlapping : Document where
  nodes := [.branch (.bare "0:1" "Page" .page)
    [.branch (.bare "1:1" "Frame" .frame) [.leaf (.bare "1:2" "Rectangle" .rectangle)]]]
  selection := ["1:2", "1:1", "1:2", "0:1", "9:9"]
  styles := []
  unavailableFonts := []
  images := .empty

namespace Editor

/-- The page cannot be placed, so its copy is taken out again; the copy of the frame has a copy of a copy in it. -/
theorem delete_duplicate_overlapping :
    let e := opening .overlapping
    let e' := (e.apply .duplicate).editor
    ∃ o', (e'.apply .delete).answer = .ok o' ∧ o'.changed = 3 ∧
      (e'.apply .delete).editor.document.nodes = e.document.nodes :=
  delete_duplicate (opening .overlapping) ⟨3, "3개의 레이어를 복제했습니다."⟩ (by decide) (by decide +kernel)

end Editor

end DesignCanvas
