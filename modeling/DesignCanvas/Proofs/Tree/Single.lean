import DesignCanvas.Proofs.Tree.Everywhere

/-!
# Operations at the only place

Where one label of a forest has a property, an operation at the first tree or label that has it is the operation at
every such place: `Forest.remove?_eq_prune`, `Forest.insertAfter?_eq_graft`, `Forest.modify?_eq_map`.
-/

namespace DesignCanvas

variable {α : Type u} {p q : α → Bool} {f : α → α} {new : Tree α}

/-! ## Counting -/

theorem Forest.countP_cons (p : α → Bool) (t : Tree α) (ts : List (Tree α)) :
    (Forest.labels (t :: ts)).countP p = t.labels.countP p + (Forest.labels ts).countP p :=
  List.countP_append

theorem Tree.countP_pos {t : Tree α} (ht : p t.label) : 0 < t.labels.countP p :=
  List.countP_pos_iff.2 ⟨_, t.label_mem_labels, ht⟩

theorem Forest.countP_pos {ts : List (Tree α)} (h : Forest.hasRoot p ts) : 0 < (Forest.labels ts).countP p := by
  induction ts with
  | nil => simp [Forest.hasRoot] at h
  | cons t ts ih =>
    rw [Forest.countP_cons]
    by_cases ht : p t.label
    · exact Nat.add_pos_left (Tree.countP_pos ht) _
    · exact Nat.add_pos_right _ (ih (Forest.hasRoot_tail h ht))

theorem Tree.not_of_mem_tail {t : Tree α} (ht : p t.label) (h : t.labels.countP p ≤ 1) :
    ∀ a ∈ t.labels.tail, ¬ p a := by
  rw [t.labels_eq_cons, List.countP_cons_of_pos ht] at h
  exact List.countP_eq_zero.1 (by omega)

/-! ## Taking out -/

theorem Forest.removeRoot_eq_prune {ts : List (Tree α)} (hroot : Forest.hasRoot q ts)
    (h : (Forest.labels ts).countP q = 1) : Forest.removeRoot q ts = Forest.prune q ts := by
  induction ts with
  | nil => rfl
  | cons t ts ih =>
    rw [Forest.countP_cons] at h
    rw [Forest.removeRoot_cons, Forest.prune]
    by_cases ht : q t.label
    · have hpos := Tree.countP_pos ht
      rw [if_pos ht, if_pos ht, Forest.prune_eq_self (List.countP_eq_zero.1 (by omega))]
    · have hrest := Forest.hasRoot_tail hroot ht
      have hpos := Forest.countP_pos hrest
      have hnone : ∀ a ∈ t.labels, ¬ q a := List.countP_eq_zero.1 (by omega)
      rw [if_neg ht, if_neg ht, ih hrest (by omega),
        Tree.prune_eq_self fun a ha => hnone a (List.mem_of_mem_tail ha)]

mutual

theorem Tree.remove?_eq_prune : ∀ {t : Tree α}, ¬ q t.label → t.labels.countP q = 1 → t.remove? q = some (t.prune q)
  | .leaf a, ha, h => by simp [Tree.labels, show ¬ q a from ha] at h
  | .branch a ts, ha, h => by
    rw [Tree.labels, List.countP_cons_of_neg (show ¬ q a from ha)] at h
    rw [Tree.remove?, Tree.prune]
    split
    · next hroot => rw [Forest.removeRoot_eq_prune hroot h]
    · next hroot => rw [Forest.removeBelow?_eq_prune hroot h, Option.map_some]

theorem Forest.removeBelow?_eq_prune : ∀ {ts : List (Tree α)}, ¬ Forest.hasRoot q ts →
    (Forest.labels ts).countP q = 1 → Forest.removeBelow? q ts = some (Forest.prune q ts)
  | [], _, h => by simp [Forest.labels] at h
  | t :: ts, hroot, h => by
    rw [Forest.countP_cons] at h
    rw [Forest.hasRoot_cons, Bool.or_eq_true, not_or] at hroot
    obtain ⟨ht, hts⟩ := hroot
    rw [Forest.removeBelow?, Forest.prune, if_neg ht]
    by_cases hzero : t.labels.countP q = 0
    · have hnone := List.countP_eq_zero.1 hzero
      rw [Tree.remove?_eq_none hnone, Forest.removeBelow?_eq_prune hts (by omega), Option.map_some,
        Tree.prune_eq_self fun a ha => hnone a (List.mem_of_mem_tail ha)]
    · rw [Tree.remove?_eq_prune ht (by omega), Forest.prune_eq_self (List.countP_eq_zero.1 (by omega))]

end

/-- Taking out the first tree is taking out all of them if there is one. -/
theorem Forest.remove?_eq_prune {ts : List (Tree α)} (h : (Forest.labels ts).countP q = 1) :
    Forest.remove? q ts = some (Forest.prune q ts) := by
  rw [Forest.remove?]
  split
  · next hroot => rw [Forest.removeRoot_eq_prune hroot h]
  · next hroot => exact Forest.removeBelow?_eq_prune hroot h

/-! ## Putting in -/

mutual

theorem Tree.insertAfter?_eq_none : ∀ {t : Tree α}, (∀ a ∈ t.labels, ¬ p a) → Tree.insertAfter? p new t = none
  | .leaf a, _ => rfl
  | .branch a ts, h => by
    have hts : ∀ b ∈ Forest.labels ts, ¬ p b := fun b hb => h b (by simp [Tree.labels, hb])
    simp [Tree.insertAfter?, Forest.hasRoot_eq_false hts, Forest.insertAfterBelow?_eq_none hts]

theorem Forest.insertAfterBelow?_eq_none :
    ∀ {ts : List (Tree α)}, (∀ a ∈ Forest.labels ts, ¬ p a) → Forest.insertAfterBelow? p new ts = none
  | [], _ => rfl
  | t :: ts, h => by
    obtain ⟨ht, hts⟩ := Forest.forall_labels_cons.1 h
    simp [Forest.insertAfterBelow?, Tree.insertAfter?_eq_none ht, Forest.insertAfterBelow?_eq_none hts]

end

theorem Forest.insertAfterRoot_eq_graft {ts : List (Tree α)} (hroot : Forest.hasRoot p ts)
    (h : (Forest.labels ts).countP p = 1) : Forest.insertAfterRoot p new ts = Forest.graft p new ts := by
  induction ts with
  | nil => rfl
  | cons t ts ih =>
    rw [Forest.countP_cons] at h
    rw [Forest.insertAfterRoot, Forest.graft]
    by_cases ht : p t.label
    · have hpos := Tree.countP_pos ht
      rw [if_pos ht, if_pos ht, Tree.graft_eq_self (Tree.not_of_mem_tail ht (by omega)),
        Forest.graft_eq_self (List.countP_eq_zero.1 (by omega))]
    · have hrest := Forest.hasRoot_tail hroot ht
      have hpos := Forest.countP_pos hrest
      have hnone : ∀ a ∈ t.labels, ¬ p a := List.countP_eq_zero.1 (by omega)
      rw [if_neg ht, if_neg ht, ih hrest (by omega),
        Tree.graft_eq_self fun a ha => hnone a (List.mem_of_mem_tail ha)]

mutual

theorem Tree.insertAfter?_eq_graft : ∀ {t : Tree α}, ¬ p t.label → t.labels.countP p = 1 →
    Tree.insertAfter? p new t = some (Tree.graft p new t)
  | .leaf a, ha, h => by simp [Tree.labels, show ¬ p a from ha] at h
  | .branch a ts, ha, h => by
    rw [Tree.labels, List.countP_cons_of_neg (show ¬ p a from ha)] at h
    rw [Tree.insertAfter?, Tree.graft]
    split
    · next hroot => rw [Forest.insertAfterRoot_eq_graft hroot h]
    · next hroot => rw [Forest.insertAfterBelow?_eq_graft hroot h, Option.map_some]

theorem Forest.insertAfterBelow?_eq_graft : ∀ {ts : List (Tree α)}, ¬ Forest.hasRoot p ts →
    (Forest.labels ts).countP p = 1 → Forest.insertAfterBelow? p new ts = some (Forest.graft p new ts)
  | [], _, h => by simp [Forest.labels] at h
  | t :: ts, hroot, h => by
    rw [Forest.countP_cons] at h
    rw [Forest.hasRoot_cons, Bool.or_eq_true, not_or] at hroot
    obtain ⟨ht, hts⟩ := hroot
    rw [Forest.insertAfterBelow?, Forest.graft, if_neg ht]
    by_cases hzero : t.labels.countP p = 0
    · have hnone := List.countP_eq_zero.1 hzero
      rw [Tree.insertAfter?_eq_none hnone, Forest.insertAfterBelow?_eq_graft hts (by omega), Option.map_some,
        Tree.graft_eq_self fun a ha => hnone a (List.mem_of_mem_tail ha)]
    · rw [Tree.insertAfter?_eq_graft ht (by omega), Forest.graft_eq_self (List.countP_eq_zero.1 (by omega))]

end

theorem Forest.insertAfter?_eq_graft {ts : List (Tree α)} (h : (Forest.labels ts).countP p = 1) :
    Forest.insertAfter? p new ts = some (Forest.graft p new ts) := by
  rw [Forest.insertAfter?]
  split
  · next hroot => rw [Forest.insertAfterRoot_eq_graft hroot h]
  · next hroot => exact Forest.insertAfterBelow?_eq_graft hroot h

/-! ## Changing -/

mutual

theorem Tree.modify?_eq_map : ∀ {t : Tree α}, t.labels.countP p = 1 →
    t.modify? p f = some (t.map fun a => if p a then f a else a)
  | .leaf a, h => by
    have ha : p a := by simpa [Tree.labels] using h
    simp [Tree.modify?, Tree.map, ha]
  | .branch a ts, h => by
    rw [Tree.modify?, Tree.map]
    by_cases ha : p a
    · rw [Tree.labels, List.countP_cons_of_pos ha] at h
      have hnone : ∀ b ∈ Forest.labels ts, ¬ p b := List.countP_eq_zero.1 (by omega)
      rw [if_pos ha, if_pos ha, Forest.map_eq_self fun b hb => if_neg (hnone b hb)]
    · rw [Tree.labels, List.countP_cons_of_neg ha] at h
      rw [if_neg ha, if_neg ha, Forest.modify?_eq_map h, Option.map_some]

theorem Forest.modify?_eq_map : ∀ {ts : List (Tree α)}, (Forest.labels ts).countP p = 1 →
    Forest.modify? p f ts = some (Forest.map (fun a => if p a then f a else a) ts)
  | [], h => by simp [Forest.labels] at h
  | t :: ts, h => by
    rw [Forest.countP_cons] at h
    rw [Forest.modify?, Forest.map]
    cases hm : t.modify? p f with
    | none =>
      have hnone := Tree.not_of_modify?_eq_none hm
      have hzero : t.labels.countP p = 0 := List.countP_eq_zero.2 hnone
      rw [Forest.modify?_eq_map (by omega), Option.map_some,
        (Tree.map_congr fun a ha => if_neg (hnone a ha) : t.map _ = t.map fun a => a), Tree.map_id']
    | some u =>
      obtain ⟨l₁, b, l₂, hl, hb, -, -⟩ := Tree.labels_modify? hm
      have hpos : 0 < t.labels.countP p := List.countP_pos_iff.2 ⟨b, by simp [hl], hb⟩
      have hone := Tree.modify?_eq_map (show t.labels.countP p = 1 by omega)
      have hnone : ∀ a ∈ Forest.labels ts, ¬ p a := List.countP_eq_zero.1 (by omega)
      rw [Option.some.inj (hm.symm.trans hone), Forest.map_eq_self fun a ha => if_neg (hnone a ha)]

end

end DesignCanvas
