import DesignCanvas.Proofs.Tree.Single
import DesignCanvas.Proofs.Tree.Visits

/-!
# The place that operations go to

A place of a forest is a path of positions, and other trees can be put there instead of the one that stands there
(`Forest.replaceAt`). What is looked up by a property stands at the first place whose label has it, and there a label is
changed; where no other label has the property, taking out and putting in go to that place as well
(`Forest.located_of_find?`). In the list of all labels only those of the tree are replaced, which stand together
(`Forest.labels_replaceAt`).
-/

namespace DesignCanvas

variable {α : Type u} {p : α → Bool}

/-- The tree with other subtrees below its root, if it is a branch. -/
def Tree.onChildren (g : List (Tree α) → List (Tree α)) : Tree α → Tree α
  | .leaf a => .leaf a
  | .branch a ts => .branch a (g ts)

/-! ## Labels of parts -/

theorem Tree.labels_relabel (t : Tree α) (a : α) : (t.relabel a).labels = a :: t.labels.tail := by
  cases t <;> rfl

theorem Tree.modify?_of_root {f : α → α} {t : Tree α} (ht : p t.label) :
    t.modify? p f = some (t.relabel (f t.label)) := by
  cases t <;> exact if_pos ht

theorem Forest.labels_subset {t : Tree α} {ts : List (Tree α)} (h : t ∈ ts) : t.labels ⊆ labels ts := by
  obtain ⟨before, after, rfl⟩ := List.append_of_mem h
  rw [labels_append, labels]
  exact fun a ha => List.mem_append_right _ (List.mem_append_left _ ha)

theorem Tree.label_mem_of_subtree? {t u : Tree α} {path : List Nat} (h : t.subtree? path = some u) :
    u.label ∈ t.labels := by
  induction path generalizing t with
  | nil =>
    obtain rfl := Option.some.inj h
    exact t.label_mem_labels
  | cons i path ih =>
    cases t with
    | leaf a => cases h
    | branch a ts =>
      rw [subtree?_branch_cons, Option.bind_eq_some_iff] at h
      obtain ⟨v, hv, hu⟩ := h
      exact List.mem_cons_of_mem a (Forest.labels_subset (List.mem_of_getElem? hv) (ih hu))

namespace Forest

/-! ## Places -/

/-- The tree at a place. -/
def subtree? (ts : List (Tree α)) : List Nat → Option (Tree α)
  | [] => none
  | i :: path => ts[i]?.bind fun t => t.subtree? path

/-- The forest with other trees instead of the one at a place. -/
def replaceAt (new : List (Tree α)) : List Nat → List (Tree α) → List (Tree α)
  | [], ts => ts
  | [i], ts => ts.take i ++ new ++ ts.drop (i + 1)
  | i :: path, ts => ts.modify i (Tree.onChildren (replaceAt new path))

/-- A tree stands at the first place whose label has a property. -/
structure FirstAt (p : α → Bool) (ts : List (Tree α)) (path : List Nat) (t : Tree α) : Prop where
  at_path : subtree? ts path = some t
  holds : p t.label
  first : ∀ before < path, ∀ u, subtree? ts before = some u → ¬ p u.label

/-- Operations by a property go to a place: changing a label always, taking out and putting in if it is the only one
with the property. -/
structure Located (p : α → Bool) (ts : List (Tree α)) (path : List Nat) (t : Tree α) : Prop extends
    FirstAt p ts path t where
  modify : ∀ f, modify? p f ts = some (replaceAt [t.relabel (f t.label)] path ts)
  prune : (labels ts).countP p = 1 → prune p ts = replaceAt [] path ts
  graft : (labels ts).countP p = 1 → ∀ new, graft p new ts = replaceAt [t, new] path ts

variable {t u : Tree α} {a : α} {ts us : List (Tree α)} {path : List Nat} {i : Nat}

theorem mem_labels_of_subtree? (h : subtree? ts path = some t) : t.label ∈ labels ts := by
  cases path with
  | nil => cases h
  | cons i path =>
    obtain ⟨u, hu, ht⟩ := Option.bind_eq_some_iff.1 h
    exact labels_subset (List.mem_of_getElem? hu) (Tree.label_mem_of_subtree? ht)

theorem replaceAt_cons_succ (new : List (Tree α)) (i : Nat) (path : List Nat) :
    replaceAt new ((i + 1) :: path) (t :: ts) = t :: replaceAt new (i :: path) ts := by
  cases path <;> simp [replaceAt]

theorem replaceAt_branch (new : List (Tree α)) (hpath : path ≠ []) :
    replaceAt new (0 :: path) (.branch a us :: ts) = .branch a (replaceAt new path us) :: ts := by
  obtain ⟨i, path, rfl⟩ := List.exists_cons_of_ne_nil hpath
  rfl

namespace Located

theorem path_ne_nil (h : Located p ts path t) : path ≠ [] := by
  rintro rfl
  cases h.at_path

theorem countP_pos (h : Located p ts path t) : 0 < (labels ts).countP p :=
  List.countP_pos_iff.2 ⟨_, mem_labels_of_subtree? h.at_path, h.holds⟩

theorem here (ht : p t.label) (ts : List (Tree α)) : Located p (t :: ts) [0] t where
  at_path := rfl
  holds := ht
  first before hlt u hu := by
    cases hlt with
    | nil => cases hu
    | cons h => cases h
    | rel h => cases h
  modify f := by
    rw [modify?, Tree.modify?_of_root ht]
    rfl
  prune hcount := by
    rw [countP_cons] at hcount
    have hpos := Tree.countP_pos ht
    rw [Forest.prune, if_pos ht, prune_eq_self (List.countP_eq_zero.1 (by omega))]
    rfl
  graft hcount new := by
    rw [countP_cons] at hcount
    have hpos := Tree.countP_pos ht
    rw [Forest.graft, if_pos ht, Tree.graft_eq_self (Tree.not_of_mem_tail ht (by omega)),
      graft_eq_self (List.countP_eq_zero.1 (by omega))]
    rfl

theorem below (ha : ¬ p a) (h : Located p us path t) (ts : List (Tree α)) :
    Located p (.branch a us :: ts) (0 :: path) t where
  at_path := by
    obtain ⟨i, path, rfl⟩ := List.exists_cons_of_ne_nil h.path_ne_nil
    exact h.at_path
  holds := h.holds
  first before hlt u hu := by
    cases hlt with
    | nil => cases hu
    | rel h => cases h
    | @cons _ before _ hbefore =>
      cases before with
      | nil =>
        obtain rfl := Option.some.inj hu
        exact ha
      | cons i before => exact h.first _ hbefore u hu
  modify f := by
    rw [modify?, Tree.modify?, if_neg ha, h.modify, Option.map_some, replaceAt_branch _ h.path_ne_nil]
  prune hcount := by
    rw [countP_cons, Tree.labels, List.countP_cons_of_neg ha] at hcount
    have hpos := h.countP_pos
    rw [Forest.prune, if_neg (show ¬ p (Tree.branch a us).label from ha), Tree.prune, h.prune (by omega),
      prune_eq_self (List.countP_eq_zero.1 (by omega)), replaceAt_branch _ h.path_ne_nil]
  graft hcount new := by
    rw [countP_cons, Tree.labels, List.countP_cons_of_neg ha] at hcount
    have hpos := h.countP_pos
    rw [Forest.graft, if_neg (show ¬ p (Tree.branch a us).label from ha), Tree.graft, h.graft (by omega),
      graft_eq_self (List.countP_eq_zero.1 (by omega)), replaceAt_branch _ h.path_ne_nil]

theorem later (hu : ∀ a ∈ u.labels, ¬ p a) (h : Located p ts (i :: path) t) :
    Located p (u :: ts) ((i + 1) :: path) t where
  at_path := h.at_path
  holds := h.holds
  first before hlt v hv := by
    cases before with
    | nil => cases hv
    | cons k before =>
      cases k with
      | zero => exact hu _ (Tree.label_mem_of_subtree? hv)
      | succ k =>
        refine h.first (k :: before) ?_ v hv
        rcases List.cons_lt_cons_iff.1 hlt with hlt | ⟨heq, hlt⟩
        · exact List.cons_lt_cons_iff.2 (Or.inl (Nat.lt_of_succ_lt_succ hlt))
        · exact List.cons_lt_cons_iff.2 (Or.inr ⟨Nat.succ.inj heq, hlt⟩)
  modify f := by
    rw [modify?, Tree.modify?_eq_none.2 hu, h.modify, replaceAt_cons_succ]
    rfl
  prune hcount := by
    rw [countP_cons, List.countP_eq_zero.2 hu, Nat.zero_add] at hcount
    rw [Forest.prune, if_neg (hu _ u.label_mem_labels), Tree.prune_eq_self fun a ha => hu a (List.mem_of_mem_tail ha),
      h.prune hcount, replaceAt_cons_succ]
  graft hcount new := by
    rw [countP_cons, List.countP_eq_zero.2 hu, Nat.zero_add] at hcount
    rw [Forest.graft, if_neg (hu _ u.label_mem_labels), Tree.graft_eq_self fun a ha => hu a (List.mem_of_mem_tail ha),
      h.graft hcount, replaceAt_cons_succ]

end Located

end Forest

mutual

theorem Tree.located_of_find? : ∀ {t u : Tree α}, t.find? p = some u → ¬ p t.label →
    ∃ a ts path, t = .branch a ts ∧ Forest.Located p ts path u
  | .leaf a, u, h, ha => by
    rw [Tree.find?, if_neg (show ¬ p a from ha)] at h
    cases h
  | .branch a ts, u, h, ha => by
    rw [Tree.find?, if_neg (show ¬ p a from ha)] at h
    obtain ⟨path, hpath⟩ := Forest.located_of_find? h
    exact ⟨a, ts, path, rfl, hpath⟩

/-- What is found stands at the first place with the property, and operations go there. -/
theorem Forest.located_of_find? : ∀ {ts : List (Tree α)} {u : Tree α}, Forest.find? p ts = some u →
    ∃ path, Forest.Located p ts path u
  | [], u, h => by cases h
  | t :: ts, u, h => by
    rw [Forest.find?] at h
    split at h
    · next v hv =>
      obtain rfl := Option.some.inj h
      by_cases ht : p t.label
      · obtain rfl := Option.some.inj ((Tree.find?_of_root ht).symm.trans hv)
        exact ⟨[0], .here ht ts⟩
      · obtain ⟨a, us, path, rfl, hpath⟩ := Tree.located_of_find? hv ht
        exact ⟨0 :: path, hpath.below ht ts⟩
    · next hnone =>
      obtain ⟨path, hpath⟩ := Forest.located_of_find? h
      obtain ⟨i, path, rfl⟩ := List.exists_cons_of_ne_nil hpath.path_ne_nil
      exact ⟨(i + 1) :: path, hpath.later (Tree.find?_eq_none.1 hnone)⟩

end

/-! ## The labels of a forest with something replaced -/

theorem Forest.labels_replaceAt {ts : List (Tree α)} {t : Tree α} {path : List Nat}
    (h : Forest.subtree? ts path = some t) : ∃ before after, Forest.labels ts = before ++ t.labels ++ after ∧
      ∀ new, Forest.labels (Forest.replaceAt new path ts) = before ++ Forest.labels new ++ after := by
  induction path generalizing ts with
  | nil => cases h
  | cons i path ih =>
    obtain ⟨u, hu, ht⟩ := Option.bind_eq_some_iff.1 h
    obtain ⟨hi, rfl⟩ := List.getElem?_eq_some_iff.1 hu
    have hsplit : ts = ts.take i ++ ts[i] :: ts.drop (i + 1) := by
      rw [← List.drop_eq_getElem_cons, List.take_append_drop]
    have hlabels : Forest.labels ts =
        Forest.labels (ts.take i) ++ (ts[i].labels ++ Forest.labels (ts.drop (i + 1))) := by
      conv_lhs => rw [hsplit]
      rw [Forest.labels_append, Forest.labels]
    cases path with
    | nil =>
      obtain rfl := Option.some.inj ht
      refine ⟨_, _, by rw [hlabels, List.append_assoc], fun new => ?_⟩
      rw [Forest.replaceAt, Forest.labels_append, Forest.labels_append]
    | cons j path =>
      cases hbranch : ts[i] with
      | leaf a =>
        rw [hbranch] at ht
        cases ht
      | branch a us =>
        rw [hbranch] at ht hlabels
        have hbelow : Forest.subtree? us (j :: path) = some t := ht
        obtain ⟨before, after, hus, hnew⟩ := ih hbelow
        refine ⟨Forest.labels (ts.take i) ++ a :: before, after ++ Forest.labels (ts.drop (i + 1)), ?_, fun new => ?_⟩
        · rw [hlabels, Tree.labels, hus]
          simp
        · have hmodify : Forest.replaceAt new (i :: j :: path) ts =
              ts.take i ++ .branch a (Forest.replaceAt new (j :: path) us) :: ts.drop (i + 1) := by
            have hstep : Forest.replaceAt new (i :: j :: path) ts =
                ts.modify i (Tree.onChildren (Forest.replaceAt new (j :: path))) := rfl
            rw [hstep, List.modify_eq_take_cons_drop hi, hbranch]
            rfl
          rw [hmodify, Forest.labels_append, Forest.labels, Tree.labels, hnew]
          simp

end DesignCanvas
