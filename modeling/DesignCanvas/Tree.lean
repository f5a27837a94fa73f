/-!
# Labelled trees

A tree is a leaf, or a branch with a list of subtrees, which may be empty. A forest is a list of trees. The
order of a forest is that of its labels from left to right, each before those below it.
-/

namespace DesignCanvas

/-- A tree with a label at every node. -/
inductive Tree (α : Type u) where
  | leaf (label : α)
  | branch (label : α) (children : List (Tree α))
  deriving Inhabited

/-- A list of trees. -/
abbrev Forest (α : Type u) := List (Tree α)

namespace Tree

def label : Tree α → α
  | .leaf a => a
  | .branch a _ => a

def children? : Tree α → Option (List (Tree α))
  | .leaf _ => none
  | .branch _ ts => some ts

/-- The tree with another label at the root. -/
def relabel (a : α) : Tree α → Tree α
  | .leaf _ => .leaf a
  | .branch _ ts => .branch a ts

/-- The tree with a label and with subtrees or without. -/
def ofChildren (a : α) : Option (List (Tree α)) → Tree α
  | none => .leaf a
  | some ts => .branch a ts

end Tree

mutual

def Tree.labels : Tree α → List α
  | .leaf a => [a]
  | .branch a ts => a :: Forest.labels ts

def Forest.labels : List (Tree α) → List α
  | [] => []
  | t :: ts => t.labels ++ Forest.labels ts

end

mutual

/-- The tree with every label changed by `f`. -/
def Tree.map (f : α → β) : Tree α → Tree β
  | .leaf a => .leaf (f a)
  | .branch a ts => .branch (f a) (Forest.map f ts)

def Forest.map (f : α → β) : List (Tree α) → List (Tree β)
  | [] => []
  | t :: ts => t.map f :: Forest.map f ts

end

mutual

/-- The first subtree, in order, whose label has a property. -/
def Tree.find? (p : α → Bool) : Tree α → Option (Tree α)
  | .leaf a => if p a then some (.leaf a) else none
  | .branch a ts => if p a then some (.branch a ts) else Forest.find? p ts

def Forest.find? (p : α → Bool) : List (Tree α) → Option (Tree α)
  | [] => none
  | t :: ts =>
    match t.find? p with
    | some u => some u
    | none => Forest.find? p ts

end

mutual

/-- Changes the first label, in order, that has a property. -/
def Tree.modify? (p : α → Bool) (f : α → α) : Tree α → Option (Tree α)
  | .leaf a => if p a then some (.leaf (f a)) else none
  | .branch a ts =>
    if p a then some (.branch (f a) ts) else (Forest.modify? p f ts).map (.branch a)

def Forest.modify? (p : α → Bool) (f : α → α) : List (Tree α) → Option (List (Tree α))
  | [] => none
  | t :: ts =>
    match t.modify? p f with
    | some u => some (u :: ts)
    | none => (Forest.modify? p f ts).map (t :: ·)

end

/-- Says that one of the trees themselves has a root label with a property. -/
def Forest.hasRoot (p : α → Bool) (ts : List (Tree α)) : Bool :=
  ts.any fun t => p t.label

/-- Takes out the first of the trees themselves whose root label has a property. -/
def Forest.removeRoot (p : α → Bool) (ts : List (Tree α)) : List (Tree α) :=
  ts.eraseP fun t => p t.label

mutual

/-- Takes out a subtree below the root, the same way as from the forest of the children. -/
def Tree.remove? (p : α → Bool) : Tree α → Option (Tree α)
  | .leaf _ => none
  | .branch a ts =>
    if Forest.hasRoot p ts then some (.branch a (Forest.removeRoot p ts))
    else (Forest.removeBelow? p ts).map (.branch a)

/-- Takes out a subtree below one of the roots, from the first tree that has one. -/
def Forest.removeBelow? (p : α → Bool) : List (Tree α) → Option (List (Tree α))
  | [] => none
  | t :: ts =>
    match t.remove? p with
    | some u => some (u :: ts)
    | none => (Forest.removeBelow? p ts).map (t :: ·)

end

/-- Takes out a subtree whose root label has a property. Siblings come before anything below them. -/
def Forest.remove? (p : α → Bool) (ts : List (Tree α)) : Option (List (Tree α)) :=
  if Forest.hasRoot p ts then some (Forest.removeRoot p ts) else Forest.removeBelow? p ts

/-- Puts a tree right after the first of the trees themselves whose root label has a property. -/
def Forest.insertAfterRoot (p : α → Bool) (new : Tree α) : List (Tree α) → List (Tree α)
  | [] => []
  | t :: ts => if p t.label then t :: new :: ts else t :: Forest.insertAfterRoot p new ts

mutual

/-- Puts a tree below the root, the same way as into the forest of the children. -/
def Tree.insertAfter? (p : α → Bool) (new : Tree α) : Tree α → Option (Tree α)
  | .leaf _ => none
  | .branch a ts =>
    if Forest.hasRoot p ts then some (.branch a (Forest.insertAfterRoot p new ts))
    else (Forest.insertAfterBelow? p new ts).map (.branch a)

/-- Puts a tree below one of the roots, into the first tree that has a place for it. -/
def Forest.insertAfterBelow? (p : α → Bool) (new : Tree α) : List (Tree α) → Option (List (Tree α))
  | [] => none
  | t :: ts =>
    match Tree.insertAfter? p new t with
    | some u => some (u :: ts)
    | none => (Forest.insertAfterBelow? p new ts).map (t :: ·)

end

/-- Puts a tree right after a sibling whose root label has a property. Siblings come before anything below
them. -/
def Forest.insertAfter? (p : α → Bool) (new : Tree α) (ts : List (Tree α)) : Option (List (Tree α)) :=
  if Forest.hasRoot p ts then some (Forest.insertAfterRoot p new ts)
  else Forest.insertAfterBelow? p new ts

end DesignCanvas
