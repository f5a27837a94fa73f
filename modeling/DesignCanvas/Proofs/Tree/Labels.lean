import DesignCanvas.Tree

/-!
# The labels of a forest under its operations

Looking a tree up, changing a label, taking a tree out and putting one in, seen on the list of all labels in
order: `Forest.label_find?`, `Forest.labels_modify?`, `Forest.labels_remove?`, `Forest.labels_insertAfter?`.
Putting a tree in and taking it out again is the identity when no other label has the property that it is taken
out by (`Forest.remove?_insertAfter?`).
-/

namespace DesignCanvas

variable {α : Type u} {β : Type v} {p q : α → Bool} {f : α → α} {new : Tree α}

theorem Forest.labels_leaves (as : List α) : Forest.labels (as.map .leaf) = as := by
  induction as with
  | nil => rfl
  | cons a as ih =>
    rw [List.map_cons, Forest.labels, ih]
    rfl

theorem Forest.labels_append (ts us : List (Tree α)) : labels (ts ++ us) = labels ts ++ labels us := by
  induction ts with
  | nil => rfl
  | cons t ts ih => rw [List.cons_append, labels, labels, ih, List.append_assoc]

theorem Tree.labels_eq_cons (t : Tree α) : t.labels = t.label :: t.labels.tail := by
  cases t <;> rfl

/-! ## Looking up -/

mutual

/-- The label of the tree that is found is the first one with the property. -/
theorem Tree.label_find? (p : α → Bool) : ∀ t : Tree α, (t.find? p).map Tree.label = t.labels.find? p
  | .leaf a => by
    by_cases h : p a <;> simp [Tree.find?, Tree.labels, Tree.label, h]
  | .branch a ts => by
    by_cases h : p a
    · simp [Tree.find?, Tree.labels, Tree.label, h]
    · simp [Tree.find?, Tree.labels, h, Forest.label_find? p ts]

theorem Forest.label_find? (p : α → Bool) :
    ∀ ts : List (Tree α), (Forest.find? p ts).map Tree.label = (Forest.labels ts).find? p
  | [] => by simp [Forest.find?, Forest.labels]
  | t :: ts => by
    rw [Forest.labels, List.find?_append, ← Tree.label_find? p t, ← Forest.label_find? p ts, Forest.find?]
    cases t.find? p <;> simp

end

theorem Forest.label_of_find? {ts : List (Tree α)} {t : Tree α} (h : Forest.find? p ts = some t) :
    p t.label := by
  have hl := Forest.label_find? p ts
  rw [h] at hl
  exact List.find?_some hl.symm

theorem Forest.find?_isSome {ts : List (Tree α)} :
    (Forest.find? p ts).isSome ↔ ∃ a ∈ Forest.labels ts, p a := by
  rw [← Option.isSome_map (f := Tree.label), Forest.label_find?, List.find?_isSome]

theorem Tree.find?_eq_none {t : Tree α} : t.find? p = none ↔ ∀ a ∈ t.labels, ¬ p a := by
  rw [← Option.map_eq_none_iff (f := Tree.label), Tree.label_find?, List.find?_eq_none]

theorem Forest.find?_eq_none {ts : List (Tree α)} : Forest.find? p ts = none ↔ ∀ a ∈ Forest.labels ts, ¬ p a := by
  rw [← Option.map_eq_none_iff (f := Tree.label), Forest.label_find?, List.find?_eq_none]

theorem Tree.find?_of_root {t : Tree α} (ht : p t.label) : t.find? p = some t := by
  cases t <;> exact if_pos ht

theorem Forest.find?_cons_of_none {t : Tree α} {ts : List (Tree α)} (ht : t.find? p = none) :
    Forest.find? p (t :: ts) = Forest.find? p ts := by
  rw [Forest.find?, ht]

theorem Forest.find?_append (ts us : List (Tree α)) :
    Forest.find? p (ts ++ us) = (Forest.find? p ts).or (Forest.find? p us) := by
  induction ts with
  | nil => rfl
  | cons t ts ih =>
    rw [List.cons_append, Forest.find?, Forest.find?, ih]
    cases t.find? p <;> rfl

mutual

theorem Tree.labels_infix_of_find? : ∀ {t u : Tree α}, t.find? p = some u → u.labels <:+: t.labels
  | .leaf a, u, h => by
    simp only [Tree.find?, Option.ite_none_right_eq_some, Option.some.injEq] at h
    obtain ⟨-, rfl⟩ := h
    exact List.infix_rfl
  | .branch a ts, u, h => by
    rw [Tree.find?] at h
    split at h
    · obtain rfl := Option.some.inj h
      exact List.infix_rfl
    · exact List.IsInfix.trans (Forest.labels_infix_of_find? h) (List.suffix_cons a _).isInfix

theorem Forest.labels_infix_of_find? :
    ∀ {ts : List (Tree α)} {u : Tree α}, Forest.find? p ts = some u → u.labels <:+: Forest.labels ts
  | [], u, h => by simp [Forest.find?] at h
  | t :: ts, u, h => by
    rw [Forest.find?] at h
    rw [Forest.labels]
    split at h
    · next v hv =>
      obtain rfl := Option.some.inj h
      exact (Tree.labels_infix_of_find? hv).trans (List.prefix_append _ _).isInfix
    · exact (Forest.labels_infix_of_find? h).trans (List.suffix_append _ _).isInfix

end

/-! ## Changing a label -/

mutual

theorem Tree.labels_map (g : α → β) : ∀ t : Tree α, (t.map g).labels = t.labels.map g
  | .leaf a => by simp [Tree.map, Tree.labels]
  | .branch a ts => by simp [Tree.map, Tree.labels, Forest.labels_map g ts]

theorem Forest.labels_map (g : α → β) :
    ∀ ts : List (Tree α), Forest.labels (Forest.map g ts) = (Forest.labels ts).map g
  | [] => by simp [Forest.map, Forest.labels]
  | t :: ts => by simp [Forest.map, Forest.labels, Tree.labels_map g t, Forest.labels_map g ts]

end

mutual

theorem Tree.labels_modify? : ∀ {t u : Tree α}, t.modify? p f = some u →
    ∃ l₁ a l₂, t.labels = l₁ ++ a :: l₂ ∧ p a ∧ (∀ b ∈ l₁, ¬ p b) ∧ u.labels = l₁ ++ f a :: l₂
  | .leaf a, u, h => by
    simp only [Tree.modify?, Option.ite_none_right_eq_some, Option.some.injEq] at h
    obtain ⟨ha, rfl⟩ := h
    exact ⟨[], a, [], by simp [Tree.labels, ha]⟩
  | .branch a ts, u, h => by
    rw [Tree.modify?] at h
    split at h
    · next ha =>
      obtain rfl := Option.some.inj h
      exact ⟨[], a, Forest.labels ts, by simp [Tree.labels, ha]⟩
    · next ha =>
      obtain ⟨us, hus, rfl⟩ := Option.map_eq_some_iff.1 h
      obtain ⟨l₁, b, l₂, hts, hb, hl₁, hl⟩ := Forest.labels_modify? hus
      exact ⟨a :: l₁, b, l₂, by simp [Tree.labels, hts], hb, by simpa [ha] using hl₁,
        by simp [Tree.labels, hl]⟩

theorem Forest.labels_modify? : ∀ {ts us : List (Tree α)}, Forest.modify? p f ts = some us →
    ∃ l₁ a l₂, Forest.labels ts = l₁ ++ a :: l₂ ∧ p a ∧ (∀ b ∈ l₁, ¬ p b) ∧
      Forest.labels us = l₁ ++ f a :: l₂
  | [], us, h => by simp [Forest.modify?] at h
  | t :: ts, us, h => by
    rw [Forest.modify?] at h
    split at h
    · next u hu =>
      obtain rfl := Option.some.inj h
      obtain ⟨l₁, a, l₂, ht, ha, hl₁, hl⟩ := Tree.labels_modify? hu
      exact ⟨l₁, a, l₂ ++ Forest.labels ts, by simp [Forest.labels, ht], ha, hl₁,
        by simp [Forest.labels, hl]⟩
    · next hn =>
      obtain ⟨us, hus, rfl⟩ := Option.map_eq_some_iff.1 h
      obtain ⟨l₁, a, l₂, hts, ha, hl₁, hl⟩ := Forest.labels_modify? hus
      refine ⟨t.labels ++ l₁, a, l₂, by simp [Forest.labels, hts], ha, ?_, by simp [Forest.labels, hl]⟩
      intro b hb
      rcases List.mem_append.1 hb with hb | hb
      · exact Tree.not_of_modify?_eq_none hn b hb
      · exact hl₁ b hb

theorem Tree.not_of_modify?_eq_none : ∀ {t : Tree α}, t.modify? p f = none → ∀ a ∈ t.labels, ¬ p a
  | .leaf a, h => by simpa [Tree.modify?, Tree.labels] using h
  | .branch a ts, h => by
    rw [Tree.modify?] at h
    split at h
    · simp at h
    · next ha =>
      have hts := Forest.not_of_modify?_eq_none (Option.map_eq_none_iff.1 h)
      simpa [Tree.labels, ha] using hts

theorem Forest.not_of_modify?_eq_none :
    ∀ {ts : List (Tree α)}, Forest.modify? p f ts = none → ∀ a ∈ Forest.labels ts, ¬ p a
  | [], _ => by simp [Forest.labels]
  | t :: ts, h => by
    rw [Forest.modify?] at h
    split at h
    · simp at h
    · next hn =>
      intro a ha
      rcases List.mem_append.1 (by simpa [Forest.labels] using ha) with ha | ha
      · exact Tree.not_of_modify?_eq_none hn a ha
      · exact Forest.not_of_modify?_eq_none (Option.map_eq_none_iff.1 h) a ha

end

theorem Tree.modify?_eq_none {t : Tree α} : t.modify? p f = none ↔ ∀ a ∈ t.labels, ¬ p a := by
  refine ⟨Tree.not_of_modify?_eq_none, fun h => Option.eq_none_iff_forall_not_mem.2 fun u hu => ?_⟩
  obtain ⟨l₁, a, l₂, hl, ha, -, -⟩ := Tree.labels_modify? hu
  exact h a (by simp [hl]) ha

theorem Forest.modify?_eq_none {ts : List (Tree α)} :
    Forest.modify? p f ts = none ↔ ∀ a ∈ Forest.labels ts, ¬ p a := by
  refine ⟨Forest.not_of_modify?_eq_none, fun h => Option.eq_none_iff_forall_not_mem.2 fun us hus => ?_⟩
  obtain ⟨l₁, a, l₂, hl, ha, -, -⟩ := Forest.labels_modify? hus
  exact h a (by simp [hl]) ha

/-! ## Lists with and without a part -/

/-- The second list is the first one without a part that stands together in it. -/
def Spliced (part whole rest : List α) : Prop :=
  ∃ l₁ l₂, whole = l₁ ++ part ++ l₂ ∧ rest = l₁ ++ l₂

namespace Spliced

variable {part whole rest : List α}

theorem append_left (l : List α) (h : Spliced part whole rest) : Spliced part (l ++ whole) (l ++ rest) := by
  obtain ⟨l₁, l₂, rfl, rfl⟩ := h
  exact ⟨l ++ l₁, l₂, by simp, by simp⟩

theorem append_right (l : List α) (h : Spliced part whole rest) : Spliced part (whole ++ l) (rest ++ l) := by
  obtain ⟨l₁, l₂, rfl, rfl⟩ := h
  exact ⟨l₁, l₂ ++ l, by simp, by simp⟩

theorem sublist (h : Spliced part whole rest) : rest.Sublist whole := by
  obtain ⟨l₁, l₂, rfl, rfl⟩ := h
  exact (List.sublist_append_left l₁ part).append_right l₂

theorem perm (h : Spliced part whole rest) : whole.Perm (part ++ rest) := by
  obtain ⟨l₁, l₂, rfl, rfl⟩ := h
  rw [List.append_assoc]
  exact List.perm_append_comm_assoc l₁ part l₂

end Spliced

theorem Forest.hasRoot_cons (p : α → Bool) (t : Tree α) (ts : List (Tree α)) :
    Forest.hasRoot p (t :: ts) = (p t.label || Forest.hasRoot p ts) :=
  List.any_cons

theorem Forest.hasRoot_tail {t : Tree α} {ts : List (Tree α)} (h : Forest.hasRoot p (t :: ts))
    (ht : ¬ p t.label) : Forest.hasRoot p ts := by
  rw [Forest.hasRoot_cons] at h
  simpa [ht] using h

/-! ## Taking a tree out -/

theorem Forest.removeRoot_cons (p : α → Bool) (t : Tree α) (ts : List (Tree α)) :
    Forest.removeRoot p (t :: ts) = if p t.label then ts else t :: Forest.removeRoot p ts := by
  rw [Forest.removeRoot, Forest.removeRoot, List.eraseP_cons]
  cases p t.label <;> rfl

theorem Forest.labels_removeRoot : ∀ {ts : List (Tree α)}, Forest.hasRoot p ts →
    ∃ v : Tree α, p v.label ∧ Spliced v.labels (Forest.labels ts) (Forest.labels (Forest.removeRoot p ts))
  | [], h => by simp [Forest.hasRoot] at h
  | t :: ts, h => by
    rw [Forest.removeRoot_cons]
    by_cases ht : p t.label
    · rw [if_pos ht]
      exact ⟨t, ht, [], Forest.labels ts, rfl, rfl⟩
    · rw [if_neg ht]
      obtain ⟨v, hv, hl⟩ := Forest.labels_removeRoot (Forest.hasRoot_tail h ht)
      exact ⟨v, hv, hl.append_left t.labels⟩

mutual

theorem Tree.labels_remove? : ∀ {t u : Tree α}, t.remove? p = some u →
    ∃ v : Tree α, p v.label ∧ Spliced v.labels t.labels u.labels
  | .leaf a, u, h => by simp [Tree.remove?] at h
  | .branch a ts, u, h => by
    rw [Tree.remove?] at h
    split at h
    · next hr =>
      obtain rfl := Option.some.inj h
      obtain ⟨v, hv, hl⟩ := Forest.labels_removeRoot hr
      exact ⟨v, hv, hl.append_left [a]⟩
    · obtain ⟨us, hus, rfl⟩ := Option.map_eq_some_iff.1 h
      obtain ⟨v, hv, hl⟩ := Forest.labels_removeBelow? hus
      exact ⟨v, hv, hl.append_left [a]⟩

theorem Forest.labels_removeBelow? : ∀ {ts us : List (Tree α)}, Forest.removeBelow? p ts = some us →
    ∃ v : Tree α, p v.label ∧ Spliced v.labels (Forest.labels ts) (Forest.labels us)
  | [], us, h => by simp [Forest.removeBelow?] at h
  | t :: ts, us, h => by
    rw [Forest.removeBelow?] at h
    split at h
    · next u hu =>
      obtain rfl := Option.some.inj h
      obtain ⟨v, hv, hl⟩ := Tree.labels_remove? hu
      exact ⟨v, hv, hl.append_right (Forest.labels ts)⟩
    · obtain ⟨us, hus, rfl⟩ := Option.map_eq_some_iff.1 h
      obtain ⟨v, hv, hl⟩ := Forest.labels_removeBelow? hus
      exact ⟨v, hv, hl.append_left t.labels⟩

end

theorem Forest.labels_remove? {ts us : List (Tree α)} (h : Forest.remove? p ts = some us) :
    ∃ v : Tree α, p v.label ∧ Spliced v.labels (Forest.labels ts) (Forest.labels us) := by
  rw [Forest.remove?] at h
  split at h
  · next hr =>
    obtain rfl := Option.some.inj h
    exact Forest.labels_removeRoot hr
  · exact Forest.labels_removeBelow? h

/-! ## Putting a tree in -/

theorem Forest.labels_insertAfterRoot : ∀ {ts : List (Tree α)}, Forest.hasRoot p ts →
    Spliced new.labels (Forest.labels (Forest.insertAfterRoot p new ts)) (Forest.labels ts)
  | [], h => by simp [Forest.hasRoot] at h
  | t :: ts, h => by
    rw [Forest.insertAfterRoot]
    by_cases ht : p t.label
    · rw [if_pos ht]
      exact ⟨t.labels, Forest.labels ts, by simp [Forest.labels], rfl⟩
    · rw [if_neg ht]
      exact (Forest.labels_insertAfterRoot (Forest.hasRoot_tail h ht)).append_left t.labels

mutual

theorem Tree.labels_insertAfter? : ∀ {t u : Tree α}, Tree.insertAfter? p new t = some u →
    Spliced new.labels u.labels t.labels
  | .leaf a, u, h => by simp [Tree.insertAfter?] at h
  | .branch a ts, u, h => by
    rw [Tree.insertAfter?] at h
    split at h
    · next hr =>
      obtain rfl := Option.some.inj h
      exact (Forest.labels_insertAfterRoot hr).append_left [a]
    · obtain ⟨us, hus, rfl⟩ := Option.map_eq_some_iff.1 h
      exact (Forest.labels_insertAfterBelow? hus).append_left [a]

theorem Forest.labels_insertAfterBelow? :
    ∀ {ts us : List (Tree α)}, Forest.insertAfterBelow? p new ts = some us →
      Spliced new.labels (Forest.labels us) (Forest.labels ts)
  | [], us, h => by simp [Forest.insertAfterBelow?] at h
  | t :: ts, us, h => by
    rw [Forest.insertAfterBelow?] at h
    split at h
    · next u hu =>
      obtain rfl := Option.some.inj h
      exact (Tree.labels_insertAfter? hu).append_right (Forest.labels ts)
    · obtain ⟨us, hus, rfl⟩ := Option.map_eq_some_iff.1 h
      exact (Forest.labels_insertAfterBelow? hus).append_left t.labels

end

theorem Forest.labels_insertAfter? {ts us : List (Tree α)} (h : Forest.insertAfter? p new ts = some us) :
    Spliced new.labels (Forest.labels us) (Forest.labels ts) := by
  rw [Forest.insertAfter?] at h
  split at h
  · next hr =>
    obtain rfl := Option.some.inj h
    exact Forest.labels_insertAfterRoot hr
  · exact Forest.labels_insertAfterBelow? h

/-! ## Putting in and taking out again -/

theorem Tree.label_mem_labels : ∀ t : Tree α, t.label ∈ t.labels
  | .leaf a => by simp [Tree.label, Tree.labels]
  | .branch a ts => by simp [Tree.label, Tree.labels]

theorem Forest.forall_labels_cons {P : α → Prop} {t : Tree α} {ts : List (Tree α)} :
    (∀ a ∈ Forest.labels (t :: ts), P a) ↔ (∀ a ∈ t.labels, P a) ∧ ∀ a ∈ Forest.labels ts, P a := by
  rw [Forest.labels, List.forall_mem_append]

theorem Forest.hasRoot_eq_false : ∀ {ts : List (Tree α)}, (∀ a ∈ Forest.labels ts, ¬ q a) →
    Forest.hasRoot q ts = false
  | [], _ => rfl
  | t :: ts, h => by
    obtain ⟨ht, hts⟩ := Forest.forall_labels_cons.1 h
    rw [Forest.hasRoot_cons, Forest.hasRoot_eq_false hts, Bool.or_false]
    exact Bool.eq_false_iff.2 (ht _ t.label_mem_labels)

mutual

theorem Tree.remove?_eq_none : ∀ {t : Tree α}, (∀ a ∈ t.labels, ¬ q a) → t.remove? q = none
  | .leaf a, _ => rfl
  | .branch a ts, h => by
    have hts : ∀ b ∈ Forest.labels ts, ¬ q b := fun b hb => h b (by simp [Tree.labels, hb])
    simp [Tree.remove?, Forest.hasRoot_eq_false hts, Forest.removeBelow?_eq_none hts]

theorem Forest.removeBelow?_eq_none :
    ∀ {ts : List (Tree α)}, (∀ a ∈ Forest.labels ts, ¬ q a) → Forest.removeBelow? q ts = none
  | [], _ => rfl
  | t :: ts, h => by
    obtain ⟨ht, hts⟩ := Forest.forall_labels_cons.1 h
    simp [Forest.removeBelow?, Tree.remove?_eq_none ht, Forest.removeBelow?_eq_none hts]

end

theorem Forest.removeRoot_insertAfterRoot (hq : q new.label) :
    ∀ {ts : List (Tree α)}, Forest.hasRoot p ts → (∀ a ∈ Forest.labels ts, ¬ q a) →
      Forest.hasRoot q (Forest.insertAfterRoot p new ts) ∧
        Forest.removeRoot q (Forest.insertAfterRoot p new ts) = ts
  | [], hp, _ => by simp [Forest.hasRoot] at hp
  | t :: ts, hp, h => by
    obtain ⟨ht', hts⟩ := Forest.forall_labels_cons.1 h
    have ht := ht' _ t.label_mem_labels
    by_cases htp : p t.label
    · simp [Forest.insertAfterRoot, htp, Forest.hasRoot_cons, Forest.removeRoot_cons, ht, hq]
    · obtain ⟨hroot, hrest⟩ := Forest.removeRoot_insertAfterRoot hq (Forest.hasRoot_tail hp htp) hts
      simp [Forest.insertAfterRoot, htp, Forest.hasRoot_cons, Forest.removeRoot_cons, ht, hroot, hrest]

mutual

theorem Tree.remove?_insertAfter? (hq : q new.label) : ∀ {t u : Tree α},
    Tree.insertAfter? p new t = some u → (∀ a ∈ t.labels, ¬ q a) → u.label = t.label ∧ u.remove? q = some t
  | .leaf a, u, hu, _ => by simp [Tree.insertAfter?] at hu
  | .branch a ts, u, hu, h => by
    have hts : ∀ b ∈ Forest.labels ts, ¬ q b := fun b hb => h b (by simp [Tree.labels, hb])
    rw [Tree.insertAfter?] at hu
    split at hu
    · next hp =>
      obtain rfl := Option.some.inj hu
      obtain ⟨hroot, hrest⟩ := Forest.removeRoot_insertAfterRoot hq hp hts
      exact ⟨rfl, by rw [Tree.remove?, if_pos hroot, hrest]⟩
    · obtain ⟨us, hus, rfl⟩ := Option.map_eq_some_iff.1 hu
      obtain ⟨hroot, hrest⟩ := Forest.removeBelow?_insertAfterBelow? hq hus hts
      exact ⟨rfl, by rw [Tree.remove?, if_neg (by simp [hroot]), hrest, Option.map_some]⟩

theorem Forest.removeBelow?_insertAfterBelow? (hq : q new.label) : ∀ {ts us : List (Tree α)},
    Forest.insertAfterBelow? p new ts = some us → (∀ a ∈ Forest.labels ts, ¬ q a) →
      Forest.hasRoot q us = false ∧ Forest.removeBelow? q us = some ts
  | [], us, hu, _ => by simp [Forest.insertAfterBelow?] at hu
  | t :: ts, us, hu, h => by
    obtain ⟨ht, hts⟩ := Forest.forall_labels_cons.1 h
    have hroot := ht _ t.label_mem_labels
    rw [Forest.insertAfterBelow?] at hu
    split at hu
    · next u hu' =>
      obtain rfl := Option.some.inj hu
      obtain ⟨hl, hr⟩ := Tree.remove?_insertAfter? hq hu' ht
      have hrest := Forest.hasRoot_eq_false hts
      exact ⟨by simp [Forest.hasRoot_cons, hl, hroot, hrest], by simp [Forest.removeBelow?, hr]⟩
    · obtain ⟨us, hus, rfl⟩ := Option.map_eq_some_iff.1 hu
      obtain ⟨hrest, hr⟩ := Forest.removeBelow?_insertAfterBelow? hq hus hts
      exact ⟨by simp [Forest.hasRoot_cons, hroot, hrest],
        by simp [Forest.removeBelow?, Tree.remove?_eq_none ht, hr]⟩

end

/-- A tree that was put in is taken out by a property that its root has and no label before it. -/
theorem Forest.remove?_insertAfter? (hq : q new.label) {ts us : List (Tree α)}
    (hu : Forest.insertAfter? p new ts = some us) (h : ∀ a ∈ Forest.labels ts, ¬ q a) :
    Forest.remove? q us = some ts := by
  rw [Forest.insertAfter?] at hu
  split at hu
  · next hp =>
    obtain rfl := Option.some.inj hu
    obtain ⟨hroot, hrest⟩ := Forest.removeRoot_insertAfterRoot hq hp h
    rw [Forest.remove?, if_pos hroot, hrest]
  · obtain ⟨hroot, hrest⟩ := Forest.removeBelow?_insertAfterBelow? hq hu h
    rw [Forest.remove?, if_neg (by simp [hroot]), hrest]

end DesignCanvas
