import DesignCanvas.Proofs.Tree.Places
import DesignCanvas.Proofs.Tree.Single

/-!
# One more tree among siblings

`Forest.PutAfter t new` relates a forest to the one with `new` right behind `t` among the siblings of `t`, wherever
these are. What was there before keeps its place (`Forest.PutAfter.places_sublist`). Looking a tree up goes down before
it goes on and putting one in looks at all siblings before it goes down, but where one label has the property both come
to the same tree (`Forest.putAfter_graft`).
-/

namespace DesignCanvas

variable {α : Type u} {p q : α → Bool} {t new : Tree α} {ts us : List (Tree α)}

/-- The second forest is the first one with one more tree right behind one of its trees, among the siblings of that. -/
inductive Forest.PutAfter (t new : Tree α) : List (Tree α) → List (Tree α) → Prop
  | here (before after : List (Tree α)) : PutAfter t new (before ++ t :: after) (before ++ t :: new :: after)
  | deeper (before after : List (Tree α)) (a : α) {ts us : List (Tree α)} (inner : PutAfter t new ts us) :
      PutAfter t new (before ++ .branch a ts :: after) (before ++ .branch a us :: after)

namespace Forest.PutAfter

theorem cons (u : Tree α) (h : PutAfter t new ts us) : PutAfter t new (u :: ts) (u :: us) := by
  cases h with
  | here before after => exact .here (u :: before) after
  | deeper before after a inner => exact .deeper (u :: before) after a inner

theorem places_sublist (h : PutAfter t new ts us) : (places ts).Sublist (places us) := by
  induction h with
  | here before after =>
    simp only [places_append, places]
    exact ((List.sublist_append_right _ _).append_left _).append_left _
  | deeper before after a inner ih =>
    simp only [places_append, places, Tree.places]
    exact (((ih.map _).cons_cons _).append_right _).append_left _

theorem find?_new (h : PutAfter t new ts us) (hnew : q new.label) (hnone : ∀ a ∈ labels ts, ¬ q a) :
    find? q us = some new := by
  induction h with
  | here before after =>
    have hlabels : labels (before ++ t :: after) = labels before ++ (t.labels ++ labels after) := by
      rw [labels_append, labels]
    rw [hlabels] at hnone
    simp only [List.forall_mem_append] at hnone
    rw [find?_append, find?_eq_none.2 hnone.1, Option.none_or,
      find?_cons_of_none (Tree.find?_eq_none.2 hnone.2.1),
      find?, Tree.find?_of_root hnew]
  | @deeper before after a ts us inner ih =>
    have hlabels : labels (before ++ .branch a ts :: after) = labels before ++ (a :: labels ts ++ labels after) := by
      rw [labels_append, labels, Tree.labels]
    rw [hlabels] at hnone
    simp only [List.forall_mem_append, List.forall_mem_cons] at hnone
    obtain ⟨hbefore, ⟨ha, hts⟩, -⟩ := hnone
    rw [find?_append, find?_eq_none.2 hbefore, Option.none_or, find?, Tree.find?, if_neg ha, ih hts]

end Forest.PutAfter

/-! ## Behind the only tree that has a property -/

mutual

theorem Tree.putAfter_graft (new : Tree α) : ∀ {u t : Tree α}, u.find? p = some t → ¬ p u.label → u.labels.countP p = 1 →
    ∃ a ts, u = .branch a ts ∧ Forest.PutAfter t new ts (Forest.graft p new ts) ∧
      Forest.find? p (Forest.graft p new ts) = some t
  | .leaf a, t, h, ha, _ => by
    rw [Tree.find?, if_neg (show ¬ p a from ha)] at h
    cases h
  | .branch a ts, t, h, ha, hcount => by
    have ha : ¬ p a := ha
    rw [Tree.find?, if_neg ha] at h
    rw [Tree.labels, List.countP_cons_of_neg ha] at hcount
    exact ⟨a, ts, rfl, Forest.putAfter_graft new h hcount⟩

theorem Forest.putAfter_graft (new : Tree α) : ∀ {ts : List (Tree α)} {t : Tree α},
    Forest.find? p ts = some t → (Forest.labels ts).countP p = 1 →
      Forest.PutAfter t new ts (Forest.graft p new ts) ∧ Forest.find? p (Forest.graft p new ts) = some t
  | [], t, h, _ => by cases h
  | u :: ts, t, h, hcount => by
    rw [Forest.countP_cons] at hcount
    cases hu : u.find? p with
    | none =>
      have hnone : ∀ a ∈ u.labels, ¬ p a := Tree.find?_eq_none.1 hu
      have hzero : u.labels.countP p = 0 := List.countP_eq_zero.2 hnone
      have hgraft : Tree.graft p new u = u := Tree.graft_eq_self fun a ha => hnone a (List.mem_of_mem_tail ha)
      rw [Forest.find?_cons_of_none hu] at h
      obtain ⟨hput, hfind⟩ := Forest.putAfter_graft new h (by omega)
      rw [Forest.graft, if_neg (hnone _ u.label_mem_labels), hgraft, Forest.find?_cons_of_none hu]
      exact ⟨hput.cons u, hfind⟩
    | some v =>
      rw [Forest.find?, hu] at h
      obtain rfl : v = t := Option.some.inj h
      by_cases hroot : p u.label
      · have hpos := Tree.countP_pos hroot
        have hrest : Forest.graft p new ts = ts := Forest.graft_eq_self (List.countP_eq_zero.1 (by omega))
        have hgraft : Tree.graft p new u = u := Tree.graft_eq_self (Tree.not_of_mem_tail hroot (by omega))
        obtain rfl : u = v := Option.some.inj ((Tree.find?_of_root hroot).symm.trans hu)
        rw [Forest.graft, if_pos hroot, hgraft, hrest, Forest.find?, hu]
        exact ⟨.here [] ts, rfl⟩
      · have hpos : 0 < u.labels.countP p := by
          have hlabel := Tree.label_find? p u
          rw [hu, Option.map_some] at hlabel
          exact List.countP_pos_iff.2 ⟨_, List.mem_of_find?_eq_some hlabel.symm, List.find?_some hlabel.symm⟩
        have hrest : Forest.graft p new ts = ts := Forest.graft_eq_self (List.countP_eq_zero.1 (by omega))
        obtain ⟨a, us, rfl, hput, hfind⟩ := Tree.putAfter_graft new hu hroot (by omega)
        rw [Forest.graft, if_neg hroot, hrest, Tree.graft, Forest.find?, Tree.find?, if_neg (show ¬ p a from hroot),
          hfind]
        exact ⟨.deeper [] ts a hput, rfl⟩

end

end DesignCanvas
