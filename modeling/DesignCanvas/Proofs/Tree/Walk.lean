import DesignCanvas.Tree.Walk
import DesignCanvas.Proofs.Tree.Labels
import Mathlib.Data.List.Forall2

/-!
# What a walk comes to

A walk that only notes where it comes hands on its notes from one subtree to the next. What it has noted in the end is
a list that follows the shape of the tree (`Tree.reach`, `Tree.visited_eq`), so it is a part of the tree in order
(`Tree.labels_reached_sublist`), namely what is not too deep and below nothing that the walk stops at
(`Tree.visited_eq_filter`), and it is the same part of a tree with other labels (`Tree.visited_map`).
-/

namespace DesignCanvas

variable {α : Type u} (stop : Tree α → Bool)

mutual

/-- The subtrees of a tree that has some levels below it to go, apart from those below a subtree with a property. -/
def Tree.reach : Nat → List (Tree α) → Tree α → List (Visited α)
  | _, ancestors, .leaf a => [⟨ancestors, .leaf a⟩]
  | 0, ancestors, .branch a ts => [⟨ancestors, .branch a ts⟩]
  | room + 1, ancestors, .branch a ts =>
    ⟨ancestors, .branch a ts⟩ ::
      if stop (.branch a ts) then [] else Forest.reach room (ancestors ++ [.branch a ts]) ts

def Forest.reach : Nat → List (Tree α) → List (Tree α) → List (Visited α)
  | _, _, [] => []
  | room, ancestors, t :: ts => Tree.reach room ancestors t ++ Forest.reach room ancestors ts

end

/-- The visitor that notes where it comes. -/
def Visitor.note : Visitor α (List (Visited α)) :=
  fun ancestors t seen => (if stop t then .prune else .descend, ⟨ancestors, t⟩ :: seen)

mutual

theorem Tree.walkFrom_note (room : Nat) (ancestors : List (Tree α)) (seen : List (Visited α)) :
    ∀ t : Tree α, t.walkFrom (Visitor.note stop) room ancestors seen = (t.reach stop room ancestors).reverse ++ seen
  | .leaf a => by simp [Tree.walkFrom, Tree.reach, Visitor.note]
  | .branch a ts => by
    cases hstop : stop (.branch a ts) with
    | true => cases room <;> simp [Tree.walkFrom, Tree.reach, Visitor.note, hstop]
    | false =>
      cases room with
      | zero => simp [Tree.walkFrom, Tree.reach, Visitor.note, hstop]
      | succ room =>
        have hts := Forest.walkFrom_note room (ancestors ++ [.branch a ts]) (⟨ancestors, .branch a ts⟩ :: seen) ts
        simpa [Tree.walkFrom, Tree.reach, Visitor.note, hstop] using hts

theorem Forest.walkFrom_note (room : Nat) (ancestors : List (Tree α)) (seen : List (Visited α)) :
    ∀ ts : List (Tree α),
      Forest.walkFrom (Visitor.note stop) room ancestors ts seen = (Forest.reach stop room ancestors ts).reverse ++ seen
  | [] => rfl
  | t :: ts => by
    rw [Forest.walkFrom, Tree.walkFrom_note room ancestors seen t, Forest.walkFrom_note room ancestors _ ts,
      Forest.reach, List.reverse_append, List.append_assoc]

end

variable {stop} {t u : Tree α}

theorem Tree.visited_eq (t : Tree α) : t.visited stop = t.reach stop walkDepth [] := by
  have h := walkFrom_note stop walkDepth [] [] t
  rw [List.append_nil] at h
  rw [visited, walk, ← List.reverse_reverse (t.reach stop walkDepth []), ← h]
  rfl

mutual

theorem Tree.labels_reach_sublist (room : Nat) (ancestors : List (Tree α)) :
    ∀ t : Tree α, ((t.reach stop room ancestors).map fun v => v.tree.label).Sublist t.labels
  | .leaf a => by
    rw [Tree.reach]
    exact .refl _
  | .branch a ts => by
    cases room with
    | zero => exact (List.nil_sublist _).cons_cons a
    | succ room =>
      rw [Tree.reach, Tree.labels, List.map_cons]
      refine List.Sublist.cons_cons a ?_
      split
      · exact List.nil_sublist _
      · exact Forest.labels_reach_sublist room _ ts

theorem Forest.labels_reach_sublist (room : Nat) (ancestors : List (Tree α)) :
    ∀ ts : List (Tree α), ((Forest.reach stop room ancestors ts).map fun v => v.tree.label).Sublist (Forest.labels ts)
  | [] => .slnil
  | t :: ts => by
    rw [Forest.reach, Forest.labels, List.map_append]
    exact (Tree.labels_reach_sublist room ancestors t).append (Forest.labels_reach_sublist room ancestors ts)

end

theorem Tree.labels_reached_sublist (t : Tree α) : ((t.reached stop).map Tree.label).Sublist t.labels := by
  have h : ((t.reach stop walkDepth []).map fun v => v.tree.label).Sublist t.labels :=
    labels_reach_sublist walkDepth [] t
  rwa [Tree.reached, Tree.visited_eq, List.map_map]

theorem Tree.label_mem_of_reached (h : u ∈ t.reached stop) : u.label ∈ t.labels :=
  t.labels_reached_sublist.subset (List.mem_map_of_mem h)

theorem Tree.mem_reached_self (stop : Tree α → Bool) (t : Tree α) : t ∈ t.reached stop := by
  rw [Tree.reached, Tree.visited_eq]
  cases t <;> simp [Tree.reach, walkDepth]

theorem Forest.reach_leaves (room : Nat) (ancestors : List (Tree α)) (as : List α) :
    Forest.reach stop room ancestors (as.map .leaf) = as.map fun a => ⟨ancestors, .leaf a⟩ := by
  induction as with
  | nil => rfl
  | cons a as ih =>
    rw [List.map_cons, Forest.reach, ih, Tree.reach, List.map_cons]
    rfl

/-! ## Everything -/

namespace Visited

/-- The same place in a tree that is below others. -/
def under (outer : List (Tree α)) (v : Visited α) : Visited α :=
  ⟨outer ++ v.ancestors, v.tree⟩

/-- The place is at most so many levels down and below nothing that a walk stops at. -/
def within (stop : Tree α → Bool) (room : Nat) (v : Visited α) : Bool :=
  decide (v.ancestors.length ≤ room) && v.ancestors.all fun t => !stop t

theorem map_under_nil (vs : List (Visited α)) : vs.map (under []) = vs :=
  List.map_id vs

theorem within_under_succ (room : Nat) (t : Tree α) (v : Visited α) :
    (v.under [t]).within stop (room + 1) = (!stop t && v.within stop room) := by
  simp only [within, under, List.singleton_append, List.length_cons, List.all_cons, Nat.add_le_add_iff_right]
  cases stop t <;> simp

theorem within_under_zero (t : Tree α) (v : Visited α) : (v.under [t]).within stop 0 = false := by
  simp [within, under]

end Visited

mutual

/-- All subtrees of a tree in order, each with what is above it. -/
def Tree.spots : Tree α → List (Visited α)
  | .leaf a => [⟨[], .leaf a⟩]
  | .branch a ts => ⟨[], .branch a ts⟩ :: (Forest.spots ts).map (Visited.under [.branch a ts])

def Forest.spots : List (Tree α) → List (Visited α)
  | [] => []
  | t :: ts => t.spots ++ Forest.spots ts

end

mutual

theorem Tree.reach_eq (room : Nat) (ancestors : List (Tree α)) :
    ∀ t : Tree α, t.reach stop room ancestors = (t.spots.filter (Visited.within stop room)).map (Visited.under ancestors)
  | .leaf a => by
    have hroot : (⟨[], .leaf a⟩ : Visited α).within stop room = true := by simp [Visited.within]
    rw [Tree.reach, Tree.spots, List.filter_cons_of_pos hroot]
    simp [Visited.under]
  | .branch a ts => by
    have hroot : (⟨[], .branch a ts⟩ : Visited α).within stop room = true := by simp [Visited.within]
    rw [Tree.spots, List.filter_cons_of_pos hroot, List.filter_map, List.map_cons, List.map_map]
    cases room with
    | zero =>
      have hnone : (Forest.spots ts).filter (Visited.within stop 0 ∘ Visited.under [.branch a ts]) = [] :=
        List.filter_eq_nil_iff.2 fun v _ => by simp [Visited.within_under_zero]
      rw [Tree.reach, hnone]
      simp [Visited.under]
    | succ room =>
      have hbelow : Visited.within stop (room + 1) ∘ Visited.under [.branch a ts] =
          fun v => !stop (.branch a ts) && v.within stop room :=
        funext (Visited.within_under_succ room _)
      rw [Tree.reach, hbelow, Forest.reach_eq room (ancestors ++ [Tree.branch a ts]) ts]
      congr 1
      · simp [Visited.under]
      · cases stop (.branch a ts) with
        | true => simp
        | false => simp [Visited.under, Function.comp_def]

theorem Forest.reach_eq (room : Nat) (ancestors : List (Tree α)) :
    ∀ ts : List (Tree α), Forest.reach stop room ancestors ts =
      ((Forest.spots ts).filter (Visited.within stop room)).map (Visited.under ancestors)
  | [] => rfl
  | t :: ts => by
    rw [Forest.reach, Forest.spots, Tree.reach_eq room ancestors t, Forest.reach_eq room ancestors ts,
      List.filter_append, List.map_append]

end

theorem Tree.visited_eq_filter (t : Tree α) : t.visited stop = t.spots.filter (Visited.within stop walkDepth) := by
  rw [Tree.visited_eq, Tree.reach_eq, Visited.map_under_nil]

theorem forall₂_filter_filterMap {R : α → β → Prop} {f : α → Option β} {p : α → Bool}
    (hp : ∀ a, (f a).isSome = p a) (hR : ∀ a b, f a = some b → R a b) (as : List α) :
    List.Forall₂ R (as.filter p) (as.filterMap f) := by
  induction as with
  | nil => exact .nil
  | cons a as ih =>
    cases hf : f a with
    | none => rwa [List.filterMap_cons_none hf, List.filter_cons_of_neg (by simp [← hp, hf])]
    | some b =>
      rw [List.filterMap_cons_some hf, List.filter_cons_of_pos (by simp [← hp, hf])]
      exact .cons (hR a b hf) ih

/-! ## Other labels -/

section Relabelled

variable {β : Type v} {f : α → β} {stop' : Tree β → Bool} {p : β → Bool} {q : α → Bool}

mutual

theorem Tree.find?_map (hp : ∀ a, p (f a) = q a) : ∀ t : Tree α, (t.map f).find? p = (t.find? q).map (Tree.map f)
  | .leaf a => by
    rw [Tree.map, Tree.find?, Tree.find?, hp]
    split <;> rfl
  | .branch a ts => by
    rw [Tree.map, Tree.find?, Tree.find?, hp, Forest.find?_map hp ts]
    split <;> rfl

theorem Forest.find?_map (hp : ∀ a, p (f a) = q a) :
    ∀ ts : List (Tree α), Forest.find? p (Forest.map f ts) = (Forest.find? q ts).map (Tree.map f)
  | [] => rfl
  | t :: ts => by
    rw [Forest.map, Forest.find?, Forest.find?, Tree.find?_map hp t, Forest.find?_map hp ts]
    cases t.find? q <;> rfl

end

/-- The same place in a tree with other labels. -/
def Visited.map (f : α → β) (v : Visited α) : Visited β :=
  ⟨v.ancestors.map (Tree.map f), v.tree.map f⟩

mutual

theorem Tree.reach_map (hstop : ∀ t, stop' (t.map f) = stop t) (room : Nat) (ancestors : List (Tree α)) :
    ∀ t : Tree α, (t.map f).reach stop' room (ancestors.map (Tree.map f)) =
      (t.reach stop room ancestors).map (Visited.map f)
  | .leaf a => by cases room <;> rfl
  | .branch a ts => by
    cases room with
    | zero => rfl
    | succ room =>
      have hroot := hstop (.branch a ts)
      have hts := Forest.reach_map hstop room (ancestors ++ [.branch a ts]) ts
      rw [Tree.map] at hroot
      rw [List.map_append] at hts
      simp only [Tree.map, Tree.reach, hroot, List.map_cons] at hts ⊢
      congr 1
      split
      · rfl
      · exact hts

theorem Forest.reach_map (hstop : ∀ t, stop' (t.map f) = stop t) (room : Nat) (ancestors : List (Tree α)) :
    ∀ ts : List (Tree α), Forest.reach stop' room (ancestors.map (Tree.map f)) (Forest.map f ts) =
      (Forest.reach stop room ancestors ts).map (Visited.map f)
  | [] => rfl
  | t :: ts => by
    rw [Forest.map, Forest.reach, Forest.reach, List.map_append, Tree.reach_map hstop room ancestors t,
      Forest.reach_map hstop room ancestors ts]

end

theorem Tree.visited_map (hstop : ∀ t, stop' (t.map f) = stop t) (t : Tree α) :
    (t.map f).visited stop' = (t.visited stop).map (Visited.map f) := by
  have hreach := Tree.reach_map hstop walkDepth [] t
  rw [List.map_nil] at hreach
  rw [Tree.visited_eq, Tree.visited_eq, hreach]

theorem Tree.reached_map (hstop : ∀ t, stop' (t.map f) = stop t) (t : Tree α) :
    (t.map f).reached stop' = (t.reached stop).map (Tree.map f) := by
  rw [Tree.reached, Tree.reached, Tree.visited_map hstop, List.map_map, List.map_map]
  rfl

end Relabelled

end DesignCanvas
