import DesignCanvas.Proofs.Tree.Everywhere
import DesignCanvas.Proofs.Tree.Walk

/-!
# Places

A place is a label together with the labels above it. The list of all places says of a forest which labels it has, what
each of them is below and how they are ordered. Taking out by a property leaves the places that neither have it nor are
below anything that has it (`Forest.places_prune`), and a walk comes to the places that are not too deep and below
nothing that it stops at (`Tree.places_visited`).
-/

namespace DesignCanvas

/-- A label and the labels above it, outermost first. -/
structure Place (α : Type u) where
  above : List α
  label : α
  deriving DecidableEq, Repr

namespace Place

/-- The same place with more labels above it. -/
def under (outer : List α) (p : Place α) : Place α :=
  ⟨outer ++ p.above, p.label⟩

/-- Nothing above the place has the property. -/
def clear (q : α → Bool) (p : Place α) : Bool :=
  p.above.all fun a => !q a

/-- Neither the place nor anything above it has the property. -/
def spared (q : α → Bool) (p : Place α) : Bool :=
  !q p.label && p.clear q

end Place

mutual

/-- The places of a tree in order. -/
def Tree.places : Tree α → List (Place α)
  | .leaf a => [⟨[], a⟩]
  | .branch a ts => ⟨[], a⟩ :: (Forest.places ts).map (Place.under [a])

def Forest.places : List (Tree α) → List (Place α)
  | [] => []
  | t :: ts => t.places ++ Forest.places ts

end

variable {α : Type u} {q : α → Bool}

namespace Place

theorem under_nil (p : Place α) : p.under [] = p := rfl

theorem map_under_nil (ps : List (Place α)) : ps.map (under []) = ps :=
  (List.map_congr_left fun p _ => p.under_nil).trans (List.map_id _)

theorem spared_under (a : α) (p : Place α) : (p.under [a]).spared q = (!q a && p.spared q) := by
  simp only [spared, Place.clear, under, List.singleton_append, List.all_cons]
  cases q a <;> cases q p.label <;> rfl

end Place

mutual

theorem Tree.labels_places : ∀ t : Tree α, t.places.map Place.label = t.labels
  | .leaf a => rfl
  | .branch a ts => by
    rw [Tree.places, List.map_cons, List.map_map, Tree.labels, ← Forest.labels_places ts]
    rfl

theorem Forest.labels_places : ∀ ts : List (Tree α), (Forest.places ts).map Place.label = Forest.labels ts
  | [] => rfl
  | t :: ts => by
    rw [Forest.places, List.map_append, Tree.labels_places t, Forest.labels_places ts, Forest.labels]

end

theorem Forest.places_append (ts us : List (Tree α)) :
    Forest.places (ts ++ us) = Forest.places ts ++ Forest.places us := by
  induction ts with
  | nil => rfl
  | cons t ts ih => rw [List.cons_append, Forest.places, Forest.places, ih, List.append_assoc]

/-! ## Taking out -/

theorem Tree.filter_spared_eq_nil {t : Tree α} (ht : q t.label) : t.places.filter (Place.spared q) = [] := by
  rw [List.filter_eq_nil_iff]
  intro p hp
  cases t with
  | leaf a =>
    have ha : q a = true := ht
    obtain rfl := List.mem_singleton.1 hp
    simp [Place.spared, ha]
  | branch a ts =>
    have ha : q a = true := ht
    rcases List.mem_cons.1 hp with rfl | hp
    · simp [Place.spared, ha]
    · obtain ⟨p, -, rfl⟩ := List.mem_map.1 hp
      simp [Place.spared_under, ha]

mutual

theorem Tree.places_prune : ∀ {t : Tree α}, ¬ q t.label → (t.prune q).places = t.places.filter (Place.spared q)
  | .leaf a, ha => by
    have ha : q a = false := by simpa [Tree.label] using ha
    simp [Tree.prune, Tree.places, Place.spared, Place.clear, ha]
  | .branch a ts, ha => by
    have ha : q a = false := by simpa [Tree.label] using ha
    have hroot : (⟨[], a⟩ : Place α).spared q = true := by simp [Place.spared, Place.clear, ha]
    have hbelow : Place.spared q ∘ Place.under [a] = Place.spared q := by
      funext p
      simp [Place.spared_under, ha]
    rw [Tree.prune, Tree.places, Tree.places, List.filter_cons_of_pos hroot, List.filter_map, hbelow,
      Forest.places_prune ts]

/-- Taking out leaves what neither has the property nor is below anything that has it, in its order and with the same
labels above. -/
theorem Forest.places_prune :
    ∀ ts : List (Tree α), Forest.places (Forest.prune q ts) = (Forest.places ts).filter (Place.spared q)
  | [] => rfl
  | t :: ts => by
    rw [Forest.prune, Forest.places, List.filter_append]
    by_cases ht : q t.label
    · rw [if_pos ht, Tree.filter_spared_eq_nil ht, List.nil_append, Forest.places_prune ts]
    · rw [if_neg ht, Forest.places, Tree.places_prune ht, Forest.places_prune ts]

end

/-! ## Walking -/

section Walk

variable {stop : Tree α → Bool}

/-- Where a walk came to. -/
def Visited.place (v : Visited α) : Place α :=
  ⟨v.ancestors.map Tree.label, v.tree.label⟩

/-- A place that a walk comes to that stops at a property and goes so many levels down. -/
def Place.within (q : α → Bool) (room : Nat) (p : Place α) : Bool :=
  decide (p.above.length ≤ room) && p.clear q

theorem Visited.within_place (hstop : ∀ t, stop t = q t.label) (room : Nat) (v : Visited α) :
    v.place.within q room = v.within stop room := by
  simp [place, Place.within, Place.clear, within, hstop, Function.comp_def]

mutual

theorem Tree.places_spots : ∀ t : Tree α, t.spots.map Visited.place = t.places
  | .leaf a => rfl
  | .branch a ts => by
    rw [Tree.spots, Tree.places, List.map_cons, List.map_map, ← Forest.places_spots ts, List.map_map]
    rfl

theorem Forest.places_spots : ∀ ts : List (Tree α), (Forest.spots ts).map Visited.place = Forest.places ts
  | [] => rfl
  | t :: ts => by
    rw [Forest.spots, Forest.places, List.map_append, Tree.places_spots t, Forest.places_spots ts]

end

/-- A walk comes to the places that are not too deep and below nothing that it stops at. -/
theorem Tree.places_visited (hstop : ∀ t, stop t = q t.label) (t : Tree α) :
    (t.visited stop).map Visited.place = t.places.filter (Place.within q walkDepth) := by
  rw [Tree.visited_eq_filter, ← Tree.places_spots, List.filter_map]
  exact congrArg _ (List.filter_congr fun v _ => (v.within_place hstop walkDepth).symm)

end Walk

/-! ## Finding -/

mutual

theorem Tree.places_find? : ∀ {t u : Tree α}, t.find? q = some u →
    ∃ outer, u.places.map (Place.under outer) <:+: t.places
  | .leaf a, u, h => by
    rw [Tree.find?] at h
    split at h
    · cases h
      exact ⟨[], (Place.map_under_nil _).symm ▸ List.infix_rfl⟩
    · cases h
  | .branch a ts, u, h => by
    rw [Tree.find?] at h
    split at h
    · cases h
      exact ⟨[], (Place.map_under_nil _).symm ▸ List.infix_rfl⟩
    · obtain ⟨outer, hts⟩ := Forest.places_find? h
      have hbelow : (u.places.map (Place.under outer)).map (Place.under [a]) = u.places.map (Place.under (a :: outer)) :=
        List.map_map
      exact ⟨a :: outer, hbelow ▸ List.infix_cons (hts.map _)⟩

/-- The places of a subtree that was found are some of the whole, under what the subtree is under. -/
theorem Forest.places_find? : ∀ {ts : List (Tree α)} {u : Tree α}, Forest.find? q ts = some u →
    ∃ outer, u.places.map (Place.under outer) <:+: Forest.places ts
  | t :: ts, u, h => by
    rw [Forest.find?] at h
    split at h
    · next hfound =>
      cases h
      obtain ⟨outer, ht⟩ := Tree.places_find? hfound
      exact ⟨outer, ht.trans (List.prefix_append _ _).isInfix⟩
    · obtain ⟨outer, hts⟩ := Forest.places_find? h
      exact ⟨outer, hts.trans (List.suffix_append _ _).isInfix⟩

end

end DesignCanvas
