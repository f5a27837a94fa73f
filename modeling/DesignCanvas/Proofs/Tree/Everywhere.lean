import DesignCanvas.Proofs.Tree.Labels
import Mathlib.Data.List.Basic

/-!
# Operations at every place

Taking out every tree whose root has a property (`Forest.prune`), putting a tree behind every such tree
(`Forest.graft`) and changing every label (`Forest.map`). They cannot fail, so what they do to each other is said by
equations: `Forest.prune_graft`, `Forest.prune_graft_self`, `Forest.prune_prune`, `Forest.prune_map`.
-/

namespace DesignCanvas

variable {α : Type u} {β : Type v} {p q r : α → Bool} {f : α → α} {new : Tree α}

mutual

/-- The tree without the trees below its root whose root labels have a property. -/
def Tree.prune (q : α → Bool) : Tree α → Tree α
  | .leaf a => .leaf a
  | .branch a ts => .branch a (Forest.prune q ts)

def Forest.prune (q : α → Bool) : List (Tree α) → List (Tree α)
  | [] => []
  | t :: ts => if q t.label then Forest.prune q ts else t.prune q :: Forest.prune q ts

end

mutual

/-- The tree with another one behind every tree below its root whose root label has a property. -/
def Tree.graft (p : α → Bool) (new : Tree α) : Tree α → Tree α
  | .leaf a => .leaf a
  | .branch a ts => .branch a (Forest.graft p new ts)

def Forest.graft (p : α → Bool) (new : Tree α) : List (Tree α) → List (Tree α)
  | [] => []
  | t :: ts =>
    if p t.label then Tree.graft p new t :: new :: Forest.graft p new ts
    else Tree.graft p new t :: Forest.graft p new ts

end

theorem Tree.label_prune (q : α → Bool) (t : Tree α) : (t.prune q).label = t.label := by
  cases t <;> rfl

theorem Tree.label_graft (p : α → Bool) (new t : Tree α) : (Tree.graft p new t).label = t.label := by
  cases t <;> rfl

theorem Tree.label_map (g : α → β) (t : Tree α) : (t.map g).label = g t.label := by
  cases t <;> rfl

/-! ## Without effect -/

mutual

theorem Tree.prune_eq_self : ∀ {t : Tree α}, (∀ a ∈ t.labels.tail, ¬ q a) → t.prune q = t
  | .leaf a, _ => rfl
  | .branch a ts, h => by rw [Tree.prune, Forest.prune_eq_self h]

theorem Forest.prune_eq_self : ∀ {ts : List (Tree α)}, (∀ a ∈ Forest.labels ts, ¬ q a) → Forest.prune q ts = ts
  | [], _ => rfl
  | t :: ts, h => by
    obtain ⟨ht, hts⟩ := Forest.forall_labels_cons.1 h
    rw [Forest.prune, if_neg (ht _ t.label_mem_labels), Tree.prune_eq_self fun a ha => ht a (List.mem_of_mem_tail ha),
      Forest.prune_eq_self hts]

end

mutual

theorem Tree.graft_eq_self : ∀ {t : Tree α}, (∀ a ∈ t.labels.tail, ¬ p a) → Tree.graft p new t = t
  | .leaf a, _ => rfl
  | .branch a ts, h => by rw [Tree.graft, Forest.graft_eq_self h]

theorem Forest.graft_eq_self : ∀ {ts : List (Tree α)}, (∀ a ∈ Forest.labels ts, ¬ p a) → Forest.graft p new ts = ts
  | [], _ => rfl
  | t :: ts, h => by
    obtain ⟨ht, hts⟩ := Forest.forall_labels_cons.1 h
    rw [Forest.graft, if_neg (ht _ t.label_mem_labels), Tree.graft_eq_self fun a ha => ht a (List.mem_of_mem_tail ha),
      Forest.graft_eq_self hts]

end

mutual

theorem Tree.map_congr {g h : α → β} : ∀ {t : Tree α}, (∀ a ∈ t.labels, g a = h a) → t.map g = t.map h
  | .leaf a, heq => by rw [Tree.map, Tree.map, heq a (by simp [Tree.labels])]
  | .branch a ts, heq => by
    rw [Tree.map, Tree.map, heq a (by simp [Tree.labels]),
      Forest.map_congr fun b hb => heq b (by simp [Tree.labels, hb])]

theorem Forest.map_congr {g h : α → β} :
    ∀ {ts : List (Tree α)}, (∀ a ∈ Forest.labels ts, g a = h a) → Forest.map g ts = Forest.map h ts
  | [], _ => rfl
  | t :: ts, heq => by
    obtain ⟨ht, hts⟩ := Forest.forall_labels_cons.1 heq
    rw [Forest.map, Forest.map, Tree.map_congr ht, Forest.map_congr hts]

end

mutual

theorem Tree.map_id' : ∀ t : Tree α, t.map (fun a => a) = t
  | .leaf a => rfl
  | .branch a ts => by rw [Tree.map, Forest.map_id' ts]

theorem Forest.map_id' : ∀ ts : List (Tree α), Forest.map (fun a => a) ts = ts
  | [] => rfl
  | t :: ts => by rw [Forest.map, Tree.map_id' t, Forest.map_id' ts]

end

mutual

theorem Tree.map_map (g : β → γ) (h : α → β) : ∀ t : Tree α, (t.map h).map g = t.map fun a => g (h a)
  | .leaf a => rfl
  | .branch a ts => by rw [Tree.map, Tree.map, Tree.map, Forest.map_map g h ts]

theorem Forest.map_map (g : β → γ) (h : α → β) :
    ∀ ts : List (Tree α), Forest.map g (Forest.map h ts) = Forest.map (fun a => g (h a)) ts
  | [] => rfl
  | t :: ts => by rw [Forest.map, Forest.map, Forest.map, Tree.map_map g h t, Forest.map_map g h ts]

end

theorem Forest.map_eq_self {ts : List (Tree α)} (h : ∀ a ∈ Forest.labels ts, f a = a) : Forest.map f ts = ts :=
  (Forest.map_congr h).trans (Forest.map_id' ts)

mutual

theorem Tree.prune_congr : ∀ {t : Tree α}, (∀ a ∈ t.labels, q a = r a) → t.prune q = t.prune r
  | .leaf a, _ => rfl
  | .branch a ts, h => by
    rw [Tree.prune, Tree.prune, Forest.prune_congr fun b hb => h b (by simp [Tree.labels, hb])]

theorem Forest.prune_congr :
    ∀ {ts : List (Tree α)}, (∀ a ∈ Forest.labels ts, q a = r a) → Forest.prune q ts = Forest.prune r ts
  | [], _ => rfl
  | t :: ts, h => by
    obtain ⟨ht, hts⟩ := Forest.forall_labels_cons.1 h
    rw [Forest.prune, Forest.prune, ht _ t.label_mem_labels, Tree.prune_congr ht, Forest.prune_congr hts]

end

/-! ## With each other -/

mutual

theorem Tree.prune_graft_self (hq : q new.label) : ∀ t : Tree α, (Tree.graft p new t).prune q = t.prune q
  | .leaf a => rfl
  | .branch a ts => by rw [Tree.graft, Tree.prune, Tree.prune, Forest.prune_graft_self hq ts]

theorem Forest.prune_graft_self (hq : q new.label) :
    ∀ ts : List (Tree α), Forest.prune q (Forest.graft p new ts) = Forest.prune q ts
  | [] => rfl
  | t :: ts => by
    have ht := Tree.prune_graft_self hq t
    have hts := Forest.prune_graft_self hq ts
    rw [Forest.graft]
    split <;> simp [Forest.prune, Tree.label_graft, ht, hts, hq]

end

mutual

theorem Tree.prune_graft (hq : ¬ q new.label) (hp : ∀ a, p a → ¬ q a) :
    ∀ t : Tree α, (Tree.graft p new t).prune q = Tree.graft p (new.prune q) (t.prune q)
  | .leaf a => rfl
  | .branch a ts => by
    rw [Tree.graft, Tree.prune, Tree.prune, Tree.graft, Forest.prune_graft hq hp ts]

theorem Forest.prune_graft (hq : ¬ q new.label) (hp : ∀ a, p a → ¬ q a) :
    ∀ ts : List (Tree α), Forest.prune q (Forest.graft p new ts) = Forest.graft p (new.prune q) (Forest.prune q ts)
  | [] => rfl
  | t :: ts => by
    have ht := Tree.prune_graft hq hp t
    have hts := Forest.prune_graft hq hp ts
    by_cases hpt : p t.label
    · have hqt := hp _ hpt
      simp [Forest.graft, Forest.prune, Tree.label_graft, Tree.label_prune, hpt, hqt, hq, ht, hts]
    · by_cases hqt : q t.label <;>
        simp [Forest.graft, Forest.prune, Tree.label_graft, Tree.label_prune, hpt, hqt, ht, hts]

end

mutual

theorem Tree.prune_prune : ∀ t : Tree α, (t.prune q).prune r = t.prune fun a => q a || r a
  | .leaf a => rfl
  | .branch a ts => by rw [Tree.prune, Tree.prune, Tree.prune, Forest.prune_prune ts]

theorem Forest.prune_prune :
    ∀ ts : List (Tree α), Forest.prune r (Forest.prune q ts) = Forest.prune (fun a => q a || r a) ts
  | [] => rfl
  | t :: ts => by
    have ht := Tree.prune_prune t
    have hts := Forest.prune_prune ts
    by_cases hq : q t.label
    · simp [Forest.prune, hq, hts]
    · by_cases hr : r t.label <;> simp [Forest.prune, Tree.label_prune, hq, hr, ht, hts]

end

mutual

theorem Tree.prune_map (hf : ∀ a, q (f a) = q a) : ∀ t : Tree α, (t.map f).prune q = (t.prune q).map f
  | .leaf a => rfl
  | .branch a ts => by rw [Tree.map, Tree.prune, Tree.prune, Tree.map, Forest.prune_map hf ts]

theorem Forest.prune_map (hf : ∀ a, q (f a) = q a) :
    ∀ ts : List (Tree α), Forest.prune q (Forest.map f ts) = Forest.map f (Forest.prune q ts)
  | [] => rfl
  | t :: ts => by
    have ht := Tree.prune_map hf t
    have hts := Forest.prune_map hf ts
    by_cases hq : q t.label <;> simp [Forest.prune, Forest.map, Tree.label_map, hf, hq, ht, hts]

end

/-! ## Labels -/

mutual

theorem Tree.labels_prune (q : α → Bool) : ∀ t : Tree α, (t.prune q).labels.Sublist t.labels
  | .leaf a => List.Sublist.refl _
  | .branch a ts => by
    rw [Tree.prune, Tree.labels, Tree.labels]
    exact (Forest.labels_prune q ts).cons_cons a

theorem Forest.labels_prune (q : α → Bool) :
    ∀ ts : List (Tree α), (Forest.labels (Forest.prune q ts)).Sublist (Forest.labels ts)
  | [] => List.Sublist.refl _
  | t :: ts => by
    have hts := Forest.labels_prune q ts
    rw [Forest.prune, Forest.labels]
    split
    · exact hts.trans (List.sublist_append_right _ _)
    · exact (Tree.labels_prune q t).append hts

end

mutual

theorem Tree.not_of_mem_prune : ∀ {t : Tree α}, ¬ q t.label → ∀ a ∈ (t.prune q).labels, ¬ q a
  | .leaf b, hb, a, ha => by
    obtain rfl : a = b := by simpa [Tree.prune, Tree.labels] using ha
    exact hb
  | .branch b ts, hb, a, ha => by
    rw [Tree.prune, Tree.labels] at ha
    rcases List.mem_cons.1 ha with rfl | ha
    · exact hb
    · exact Forest.not_of_mem_prune a ha

theorem Forest.not_of_mem_prune : ∀ {ts : List (Tree α)}, ∀ a ∈ Forest.labels (Forest.prune q ts), ¬ q a
  | [], a, ha => by simp [Forest.prune, Forest.labels] at ha
  | t :: ts, a, ha => by
    rw [Forest.prune] at ha
    split at ha
    · exact Forest.not_of_mem_prune a ha
    · next ht =>
      rcases List.mem_append.1 ha with ha | ha
      · exact Tree.not_of_mem_prune ht a ha
      · exact Forest.not_of_mem_prune a ha

end

mutual

theorem Tree.labels_sublist_graft : ∀ t : Tree α, t.labels.Sublist (Tree.graft p new t).labels
  | .leaf a => List.Sublist.refl _
  | .branch a ts => by
    rw [Tree.graft, Tree.labels, Tree.labels]
    exact (Forest.labels_sublist_graft ts).cons_cons a

theorem Forest.labels_sublist_graft :
    ∀ ts : List (Tree α), (Forest.labels ts).Sublist (Forest.labels (Forest.graft p new ts))
  | [] => List.Sublist.refl _
  | t :: ts => by
    have ht := Tree.labels_sublist_graft t
    have hts := Forest.labels_sublist_graft ts
    rw [Forest.graft]
    split
    · exact ht.append (hts.trans (List.sublist_append_right _ _))
    · exact ht.append hts

end

mutual

theorem Tree.mem_graft : ∀ {t : Tree α}, (∃ a ∈ t.labels, p a) → ¬ p t.label → ∀ a ∈ new.labels,
    a ∈ (Tree.graft p new t).labels
  | .leaf b, h, hb, a, _ => by
    simp [Tree.labels] at h
    exact absurd h hb
  | .branch b ts, h, hb, a, ha => by
    have hts : ∃ a ∈ Forest.labels ts, p a := by
      obtain ⟨c, hc, hpc⟩ := h
      rcases List.mem_cons.1 hc with rfl | hc
      · exact absurd hpc hb
      · exact ⟨c, hc, hpc⟩
    exact List.mem_cons_of_mem _ (Forest.mem_graft hts a ha)

theorem Forest.mem_graft : ∀ {ts : List (Tree α)}, (∃ a ∈ Forest.labels ts, p a) → ∀ a ∈ new.labels,
    a ∈ Forest.labels (Forest.graft p new ts)
  | [], h, a, _ => by simp [Forest.labels] at h
  | t :: ts, h, a, ha => by
    obtain ⟨c, hc, hpc⟩ := h
    rw [Forest.graft]
    by_cases ht : p t.label
    · rw [if_pos ht]
      simp [Forest.labels, ha]
    · rw [if_neg ht, Forest.labels, List.mem_append]
      rcases List.mem_append.1 hc with hc | hc
      · exact Or.inl (Tree.mem_graft ⟨c, hc, hpc⟩ ht a ha)
      · exact Or.inr (Forest.mem_graft ⟨c, hc, hpc⟩ a ha)

end

end DesignCanvas
