import DesignCanvas.Proofs.Editor.Duplicate

/-!
# Removing nodes one after another

A node goes with the first node removed that it is below or that it is. So after a run of removals the nodes are those
that are below none of the targets (`Forest.mem_without_iff`), and the ids that are still selected are those whose nodes
were gone before their turn (`Editor.last_remove`).
-/

namespace DesignCanvas

variable {S : String → Bool} {id : String}

/-! ## What is left of a forest -/

theorem Tree.ids_branch (a : Attributes) (ns : List Node) : Tree.ids (.branch a ns) = a.id :: Forest.ids ns :=
  rfl

theorem Forest.ids_cons (n : Node) (ns : List Node) : Forest.ids (n :: ns) = n.ids ++ Forest.ids ns :=
  List.map_append

theorem Tree.ids_find? {t n : Node} {p : Attributes → Bool} (h : t.find? p = some n) : n.ids ⊆ t.ids :=
  ((Tree.labels_infix_of_find? h).map _).subset

theorem Forest.ids_find? {ns : List Node} {p : Attributes → Bool} {n : Node} (h : Forest.find? p ns = some n) :
    n.ids ⊆ Forest.ids ns :=
  ((Forest.labels_infix_of_find? h).map _).subset

theorem Tree.id_of_find? {t n : Node} (h : t.find? (Attributes.hasId id) = some n) : n.id = id := by
  have hl := Tree.label_find? (Attributes.hasId id) t
  rw [h, Option.map_some] at hl
  have hid : Attributes.hasId id n.label := List.find?_some hl.symm
  exact beq_iff_eq.1 hid

theorem Forest.id_of_find? {ns : List Node} {n : Node} (h : Forest.find? (Attributes.hasId id) ns = some n) :
    n.id = id :=
  beq_iff_eq.1 (Forest.label_of_find? h)

theorem Attributes.not_hasId {a : Attributes} {outer : String} (houter : S outer) (ha : ¬ S a.id) :
    ¬ Attributes.hasId outer a := by
  intro hid
  rw [Attributes.hasId, beq_iff_eq] at hid
  exact ha (hid ▸ houter)

theorem Forest.mem_find?_cons {t n : Node} {ns : List Node} (hd : t.ids.Disjoint (Forest.ids ns)) :
    n ∈ Forest.find? (Attributes.hasId id) (t :: ns) ↔
      n ∈ t.find? (Attributes.hasId id) ∨ n ∈ Forest.find? (Attributes.hasId id) ns := by
  rw [Forest.find?]
  cases ht : t.find? (Attributes.hasId id) with
  | none => simp
  | some u =>
    have hnone : Forest.find? (Attributes.hasId id) ns ≠ some n := by
      intro hn
      have hu : id ∈ t.ids := Tree.id_of_find? ht ▸ Tree.ids_find? ht u.id_mem_ids
      exact hd hu (Forest.id_of_find? hn ▸ Forest.ids_find? hn n.id_mem_ids)
    simp [hnone]

mutual

theorem Tree.mem_prune_iff : ∀ {t : Node}, t.ids.Nodup → ¬ S t.id →
    (id ∈ (t.prune fun a => S a.id).ids ↔
      id ∈ t.ids ∧ ∀ outer, S outer → ∀ n ∈ t.find? (Attributes.hasId outer), id ∉ n.ids)
  | .leaf a, _, ha => by
    have hnone : ∀ outer, S outer → Tree.find? (Attributes.hasId outer) (.leaf a) = none :=
      fun outer houter => if_neg (Attributes.not_hasId houter ha)
    exact ⟨fun h => ⟨h, fun outer houter n hn => by rw [hnone outer houter] at hn; cases hn⟩, fun h => h.1⟩
  | .branch a ns, hd, ha => by
    obtain ⟨hroot, hd⟩ := List.nodup_cons.1 (Tree.ids_branch a ns ▸ hd)
    have hbelow : ∀ outer, S outer →
        Tree.find? (Attributes.hasId outer) (.branch a ns) = Forest.find? (Attributes.hasId outer) ns :=
      fun outer houter => if_neg (Attributes.not_hasId houter ha)
    rw [Tree.prune, Tree.ids_branch, Tree.ids_branch, List.mem_cons, List.mem_cons]
    change id = a.id ∨ id ∈ Forest.ids (Forest.without S ns) ↔ _
    rw [Forest.mem_without_iff hd]
    constructor
    · rintro (rfl | ⟨hid, hall⟩)
      · refine ⟨Or.inl rfl, fun outer houter n hn => ?_⟩
        rw [hbelow outer houter] at hn
        exact fun hmem => hroot (Forest.ids_find? hn hmem)
      · exact ⟨Or.inr hid, fun outer houter n hn => hall outer houter n (hbelow outer houter ▸ hn)⟩
    · rintro ⟨rfl | hid, hall⟩
      · exact Or.inl rfl
      · exact Or.inr ⟨hid, fun outer houter n hn => hall outer houter n ((hbelow outer houter).symm ▸ hn)⟩

theorem Forest.mem_without_iff : ∀ {ns : List Node}, (Forest.ids ns).Nodup →
    (id ∈ Forest.ids (Forest.without S ns) ↔
      id ∈ Forest.ids ns ∧ ∀ outer, S outer → ∀ n ∈ Forest.find? (Attributes.hasId outer) ns, id ∉ n.ids)
  | [], _ => by simp [Forest.without, Forest.prune, Forest.ids, Forest.labels]
  | t :: ns, hd => by
    rw [Forest.ids_cons] at hd ⊢
    obtain ⟨ht, hns, hdisjoint⟩ := List.nodup_append'.1 hd
    have hrest : id ∈ Forest.ids (Forest.without S ns) ↔ id ∈ Forest.ids ns ∧
        ∀ outer, S outer → ∀ n ∈ Forest.find? (Attributes.hasId outer) ns, id ∉ n.ids := Forest.mem_without_iff hns
    have hfind : (∀ outer, S outer → ∀ n ∈ Forest.find? (Attributes.hasId outer) (t :: ns), id ∉ n.ids) ↔
        (∀ outer, S outer → ∀ n ∈ t.find? (Attributes.hasId outer), id ∉ n.ids) ∧
          ∀ outer, S outer → ∀ n ∈ Forest.find? (Attributes.hasId outer) ns, id ∉ n.ids := by
      simp only [Forest.mem_find?_cons hdisjoint, or_imp, forall_and]
    -- no node of the one part is below a node of the other
    have htree : id ∈ Forest.ids ns → ∀ outer, S outer → ∀ n ∈ t.find? (Attributes.hasId outer), id ∉ n.ids :=
      fun hid outer _ n hn hmem => hdisjoint (Tree.ids_find? hn hmem) hid
    have hforest : id ∈ t.ids → ∀ outer, S outer →
        ∀ n ∈ Forest.find? (Attributes.hasId outer) ns, id ∉ n.ids :=
      fun hid outer _ n hn hmem => hdisjoint hid (Forest.ids_find? hn hmem)
    rw [hfind, List.mem_append, Forest.without, Forest.prune]
    by_cases hroot : S t.label.id
    · rw [if_pos hroot]
      refine hrest.trans ⟨fun h => ⟨Or.inr h.1, htree h.1, h.2⟩, fun h => ⟨?_, h.2.2⟩⟩
      exact h.1.resolve_left (h.2.1 t.id hroot t (Tree.find?_of_root (beq_self_eq_true t.id)))
    · rw [if_neg hroot, Forest.ids_cons, List.mem_append]
      refine (or_congr (Tree.mem_prune_iff ht hroot) hrest).trans ⟨?_, ?_⟩
      · rintro (h | h)
        · exact ⟨Or.inl h.1, h.2, hforest h.1⟩
        · exact ⟨Or.inr h.1, htree h.1, h.2⟩
      · rintro ⟨hid | hid, hall⟩
        · exact Or.inl ⟨hid, hall.1⟩
        · exact Or.inr ⟨hid, hall.2⟩

end

/-! ## Runs of removals -/

namespace Editor

open Forest (ids without)

variable {e : Editor} {target : String} {targets : List String}

/-- Removing the node with an id takes it out everywhere, and out of the selection if it was there. -/
theorem remove_step (hd : (ids e.document.nodes).Nodup) (target : String) :
    let d := (Step.remove e target).editor.document
    d.nodes = without (· == target) e.document.nodes ∧
      ∀ id, id ∈ d.selection ↔ id ∈ e.document.selection ∧ (id = target → id ∉ ids e.document.nodes) := by
  by_cases hmem : target ∈ ids e.document.nodes
  · rw [Step.remove, removeNode, Forest.remove?_eq_prune (Document.countP_hasId hd hmem)]
    refine ⟨rfl, fun id => ?_⟩
    change id ∈ e.document.selection.filter (· != target) ↔ _
    rw [List.mem_filter, bne_iff_ne]
    refine and_congr_right fun _ => ⟨fun hne heq => absurd heq hne, fun h heq => h heq (heq ▸ hmem)⟩
  · have hnone : Forest.remove? (Attributes.hasId target) e.document.nodes = none := by
      by_contra hsome
      obtain ⟨nodes, hnodes⟩ := Option.ne_none_iff_exists'.1 hsome
      obtain ⟨v, hv, hl⟩ := Forest.labels_remove? hnodes
      have hlabel := hl.perm.mem_iff.2 (List.mem_append_left _ v.label_mem_labels)
      exact hmem (List.mem_map.2 ⟨v.label, hlabel, beq_iff_eq.1 hv⟩)
    rw [Step.remove, removeNode, hnone]
    have hnot : ∀ id ∈ ids e.document.nodes, ¬ (id == target) := by
      intro id hid heq
      exact hmem (beq_iff_eq.1 heq ▸ hid)
    exact ⟨(Forest.without_eq_self hnot).symm, fun id => (and_iff_left fun heq => heq ▸ hmem).symm⟩

/-- After removals one after another, no target is left, and selected are those that were selected before and were gone
each time when it was their turn. -/
theorem last_remove (hd : (ids e.document.nodes).Nodup) (targets : List String) :
    let d := (Batch.last e (Batch.history (fun id => id) Step.remove e targets)).document
    d.nodes = without (· ∈ targets) e.document.nodes ∧
      ∀ id, id ∈ d.selection ↔ id ∈ e.document.selection ∧ ∀ before after, targets = before ++ id :: after →
        id ∉ ids (without (· ∈ before) e.document.nodes) := by
  induction targets generalizing e with
  | nil =>
    refine ⟨(Forest.without_eq_self fun id _ => by simp).symm, fun id => ?_⟩
    exact (and_iff_left fun before after h => by simp at h).symm
  | cons target targets ih =>
    obtain ⟨hnodes, hselection⟩ := remove_step hd target
    have hd' : (ids (Step.remove e target).editor.document.nodes).Nodup := by
      rw [hnodes]
      exact hd.sublist (Forest.ids_without _ _)
    have hwithout : ∀ before : List String, without (· ∈ before) (without (· == target) e.document.nodes) =
        without (· ∈ target :: before) e.document.nodes := by
      intro before
      rw [Forest.without_without]
      exact Forest.without_congr fun x _ => by simp [Bool.beq_eq_decide_eq]
    obtain ⟨hlast, hselected⟩ := ih hd'
    rw [hnodes] at hlast hselected
    refine ⟨hlast.trans (hwithout targets), fun id => (hselected id).trans ?_⟩
    rw [hselection, and_assoc]
    refine and_congr_right fun _ => ⟨fun ⟨hfirst, hrest⟩ before after h => ?_, fun h => ⟨fun heq => ?_, ?_⟩⟩
    · rcases List.cons_eq_append_iff.1 h with ⟨rfl, h⟩ | ⟨before', rfl, h⟩
      · rw [Forest.without_eq_self (by simp)]
        exact hfirst (List.cons.inj h).1.symm
      · rw [← hwithout]
        exact hrest before' after (List.cons.inj h).2
    · have hturn := h [] targets (by rw [heq]; rfl)
      rwa [Forest.without_eq_self (by simp)] at hturn
    · intro before after hsplit
      rw [hwithout]
      exact h (target :: before) after (by rw [hsplit]; rfl)

end Editor

end DesignCanvas
