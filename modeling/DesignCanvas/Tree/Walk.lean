import DesignCanvas.Tree

/-!
# Walking a tree

A walk goes over a tree in order and hands each subtree with its ancestors to a visitor, who keeps a state and
says whether to go on below it. No walk goes deeper than a fixed number of levels.
-/

namespace DesignCanvas

/-- The answer of a visitor: go on below the subtree just seen, or pass it over. -/
inductive Verdict where
  | descend
  | prune
  deriving DecidableEq, Repr

/-- The deepest level that is visited; the root is at level 0. -/
def walkDepth : Nat := 10

/-- A visitor takes the ancestors, outermost first, the subtree and its state. -/
abbrev Visitor (α : Type u) (σ : Type v) := List (Tree α) → Tree α → σ → Verdict × σ

mutual

/-- Walks a tree that has `room` levels below it to go. -/
def Tree.walkFrom (visit : Visitor α σ) (room : Nat) (ancestors : List (Tree α)) (t : Tree α) (s : σ) : σ :=
  match t with
  | .leaf a => (visit ancestors (.leaf a) s).2
  | .branch a ts =>
    match visit ancestors (.branch a ts) s, room with
    | (.prune, s), _ => s
    | (.descend, s), 0 => s
    | (.descend, s), room + 1 => Forest.walkFrom visit room (ancestors ++ [.branch a ts]) ts s

def Forest.walkFrom (visit : Visitor α σ) (room : Nat) (ancestors : List (Tree α)) (ts : List (Tree α))
    (s : σ) : σ :=
  match ts with
  | [] => s
  | t :: ts => Forest.walkFrom visit room ancestors ts (t.walkFrom visit room ancestors s)

end

def Tree.walk (visit : Visitor α σ) (t : Tree α) (s : σ) : σ :=
  t.walkFrom visit walkDepth [] s

/-- A subtree that a walk came to, with its ancestors, outermost first. -/
structure Visited (α : Type u) where
  ancestors : List (Tree α)
  tree : Tree α

/-- The subtrees that a walk comes to, in order, if it passes over what is below subtrees with a property. -/
def Tree.visited (stop : Tree α → Bool) (t : Tree α) : List (Visited α) :=
  (t.walk (fun ancestors t seen =>
    (if stop t then .prune else .descend, ⟨ancestors, t⟩ :: seen)) []).reverse

def Tree.reached (stop : Tree α → Bool) (t : Tree α) : List (Tree α) :=
  (t.visited stop).map Visited.tree

/-- The root and the subtrees right below it. -/
def Tree.shallow (t : Tree α) : List (Tree α) :=
  t :: t.children?.getD []

end DesignCanvas
