import DesignCanvas.Tree.Walk
import Mathlib.Data.List.Forall2
import Mathlib.Data.List.Infix

/-!
# The calls of a walk

A place in a tree is a path of positions among children, and paths are ordered like the places: what is above comes
first, then the siblings one after another. A visitor may answer as it likes, also by what it has seen before. Whatever
it answers, a walk asks it at the places that are at most ten levels down and properly below nothing that was answered
with a prune, at each of them once and in their order, and hands it what is above them (`Tree.walk_visits`).
-/

namespace DesignCanvas

variable {α : Type u} {σ : Type v}

/-! ## Places -/

/-- The subtree at the end of a path from the root. -/
def Tree.subtree? : Tree α → List Nat → Option (Tree α)
  | t, [] => some t
  | t, i :: path => (t.children?.getD [])[i]?.bind fun u => u.subtree? path

/-- The trees that a path leads through before its end, the whole tree first. -/
def Tree.above (t : Tree α) (path : List Nat) : List (Tree α) :=
  path.inits.dropLast.filterMap t.subtree?

namespace Tree

variable {t u : Tree α} {a : α} {ts : List (Tree α)} {i : Nat} {path : List Nat}

theorem subtree?_branch_cons : (branch a ts).subtree? (i :: path) = ts[i]?.bind fun u => u.subtree? path :=
  rfl

theorem above_branch_cons (h : ts[i]? = some u) : (branch a ts).above (i :: path) = branch a ts :: u.above path := by
  have hne : path.inits.map (i :: ·) ≠ [] := by cases path <;> simp
  have hbelow : (branch a ts).subtree? ∘ (i :: ·) = u.subtree? := by
    funext p
    rw [Function.comp_apply, subtree?_branch_cons, h, Option.bind_some]
  have hroot : (branch a ts).subtree? [] = some (branch a ts) := rfl
  rw [above, List.inits_cons, List.dropLast_cons_of_ne_nil hne, ← List.map_dropLast,
    List.filterMap_cons_some hroot, List.filterMap_map, hbelow]
  rfl

end Tree

/-! ## Calls -/

/-- A call of a visitor: what it was handed and what it answered. -/
structure Call (α : Type u) extends Visited α where
  verdict : Verdict

/-- The visitor that notes its calls, the latest last. -/
def Visitor.recorded (visit : Visitor α σ) : Visitor α (σ × List (Call α)) :=
  fun ancestors t (s, calls) =>
    let (verdict, s) := visit ancestors t s
    (verdict, s, calls ++ [⟨⟨ancestors, t⟩, verdict⟩])

/-- The answers are those of a visitor that hands its state from one call to the next, from `s` to `s'`. -/
def Answered (visit : Visitor α σ) (s : σ) : List (Call α) → σ → Prop
  | [], s' => s' = s
  | c :: calls, s' =>
    (visit c.ancestors c.tree s).1 = c.verdict ∧ Answered visit (visit c.ancestors c.tree s).2 calls s'

/-- A call at some place properly above a path was answered with a prune. -/
def CutOff (paths : List (List Nat)) (calls : List (Call α)) (path : List Nat) : Prop :=
  ∃ p ∈ paths.zip calls, p.2.verdict = .prune ∧ p.1 <+: path ∧ p.1 ≠ path

variable {visit : Visitor α σ} {s s₁ s₂ : σ} {calls calls₁ calls₂ : List (Call α)}

theorem Answered.append (h₁ : Answered visit s calls₁ s₁) (h₂ : Answered visit s₁ calls₂ s₂) :
    Answered visit s (calls₁ ++ calls₂) s₂ := by
  induction calls₁ generalizing s with
  | nil =>
    obtain rfl : s₁ = s := h₁
    exact h₂
  | cons c calls ih => exact ⟨h₁.1, ih h₁.2⟩

/-! ## Exploring -/

/-- The call hands on what is at a place of a tree that has some trees above it. -/
def Call.At (outer : List (Tree α)) (t : Tree α) (path : List Nat) (c : Call α) : Prop :=
  t.subtree? path = some c.tree ∧ c.ancestors = outer ++ t.above path

theorem Call.At.child {outer : List (Tree α)} {u : Tree α} {a : α} {ts : List (Tree α)} {k : Nat} {path : List Nat}
    {c : Call α} (hu : ts[k]? = some u) (h : Call.At (outer ++ [.branch a ts]) u path c) :
    Call.At outer (.branch a ts) (k :: path) c := by
  obtain ⟨htree, hancestors⟩ := h
  refine ⟨by rw [Tree.subtree?_branch_cons, hu]; exact htree, ?_⟩
  rw [hancestors, Tree.above_branch_cons hu, List.append_assoc]
  rfl

/-- Some calls are those of a walk of a tree that goes so many levels down, at the places with a property. -/
structure Explored (outer : List (Tree α)) (t : Tree α) (room : Nat) (P : List Nat → Prop) (paths : List (List Nat))
    (calls : List (Call α)) : Prop where
  at_path : List.Forall₂ (Call.At outer t) paths calls
  ordered : paths.Pairwise (· < ·)
  mem_iff : ∀ path, path ∈ paths ↔
    P path ∧ (t.subtree? path).isSome ∧ path.length ≤ room ∧ ¬ CutOff paths calls path

/-- A path that goes through a child, the one at position `k` or a later one. -/
def FromChild (k : Nat) (path : List Nat) : Prop :=
  ∃ i p, path = i :: p ∧ k ≤ i

namespace Explored

variable {outer : List (Tree α)} {t u : Tree α} {a : α} {ts : List (Tree α)} {room k : Nat} {verdict : Verdict}
  {paths paths₁ paths₂ : List (List Nat)} {path : List Nat}

theorem not_cutOff_nil : ¬ CutOff paths calls [] := by
  rintro ⟨p, -, -, hprefix, hne⟩
  exact hne (List.prefix_nil.1 hprefix)

theorem cutOff_cons {c : Call α} : CutOff ([] :: paths) (c :: calls) path ↔
    (c.verdict = .prune ∧ path ≠ []) ∨ CutOff paths calls path := by
  simp [CutOff, eq_comm]

theorem root_only (h : ∀ path ≠ [], (t.subtree? path).isSome → path.length ≤ room → verdict = .prune) :
    Explored outer t room (fun _ => True) [[]] [⟨⟨outer, t⟩, verdict⟩] := by
  refine ⟨.cons ⟨rfl, (List.append_nil outer).symm⟩ .nil, List.pairwise_singleton _ _, fun path => ?_⟩
  rw [List.mem_singleton, cutOff_cons]
  constructor
  · rintro rfl
    exact ⟨trivial, rfl, Nat.zero_le _, by simp [CutOff]⟩
  · rintro ⟨-, hsome, hlength, hfree⟩
    by_contra hne
    exact hfree (Or.inl ⟨h path hne hsome hlength, hne⟩)

theorem root_descend (h : Explored outer (.branch a ts) (room + 1) (FromChild 0) paths calls) :
    Explored outer (.branch a ts) (room + 1) (fun _ => True) ([] :: paths)
      (⟨⟨outer, .branch a ts⟩, .descend⟩ :: calls) := by
  refine ⟨.cons ⟨rfl, (List.append_nil outer).symm⟩ h.at_path, List.pairwise_cons.2 ⟨fun path hpath => ?_, h.ordered⟩,
    fun path => ?_⟩
  · obtain ⟨⟨i, p, rfl, -⟩, -⟩ := (h.mem_iff path).1 hpath
    exact List.nil_lt_cons i p
  · rw [List.mem_cons, h.mem_iff, cutOff_cons]
    cases path with
    | nil => simp [Tree.subtree?, not_cutOff_nil]
    | cons i p => simp [FromChild]

theorem none_left (hk : ts.length ≤ k) : Explored outer (.branch a ts) room (FromChild k) [] [] := by
  refine ⟨.nil, .nil, fun path => ?_⟩
  simp only [List.not_mem_nil, false_iff]
  rintro ⟨⟨i, p, rfl, hi⟩, hsome, -⟩
  rw [Tree.subtree?_branch_cons, List.getElem?_eq_none (hk.trans hi)] at hsome
  cases hsome

theorem fromChild_cons {i : Nat} : FromChild k (i :: path) ↔ k ≤ i := by
  simp [FromChild]

theorem cutOff_append (h : paths₁.length = calls₁.length) :
    CutOff (paths₁ ++ paths₂) (calls₁ ++ calls₂) path ↔ CutOff paths₁ calls₁ path ∨ CutOff paths₂ calls₂ path := by
  simp only [CutOff, List.zip_append h, List.mem_append, or_and_right, exists_or]

theorem cutOff_child {i : Nat} :
    CutOff (paths.map (k :: ·)) calls (i :: path) ↔ i = k ∧ CutOff paths calls path := by
  constructor
  · rintro ⟨_, hmem, hprune, hprefix, hne⟩
    rw [List.zip_map_left] at hmem
    obtain ⟨⟨p, c⟩, hpc, rfl⟩ := List.mem_map.1 hmem
    obtain ⟨rfl, habove⟩ := List.cons_prefix_cons.1 hprefix
    exact ⟨rfl, ⟨p, c⟩, hpc, hprune, habove, fun heq => hne (congrArg _ heq)⟩
  · rintro ⟨rfl, ⟨p, c⟩, hmem, hprune, hprefix, hne⟩
    refine ⟨⟨i :: p, c⟩, ?_, hprune, List.cons_prefix_cons.2 ⟨rfl, hprefix⟩, fun heq => hne (List.cons.inj heq).2⟩
    rw [List.zip_map_left]
    exact List.mem_map_of_mem hmem

theorem not_cutOff_later (h : ∀ p ∈ paths, FromChild (k + 1) p) : ¬ CutOff paths calls (k :: path) := by
  rintro ⟨⟨p, c⟩, hmem, -, hprefix, -⟩
  obtain ⟨i, q, rfl, hi⟩ := h p (List.of_mem_zip hmem).1
  obtain rfl := (List.cons_prefix_cons.1 hprefix).1
  omega

theorem mem_cons_child (hu : ts[k]? = some u)
    (h₁ : Explored (outer ++ [.branch a ts]) u room (fun _ => True) paths₁ calls₁)
    (h₂ : Explored outer (.branch a ts) (room + 1) (FromChild (k + 1)) paths₂ calls₂) (path : List Nat) :
    path ∈ paths₁.map (k :: ·) ++ paths₂ ↔ FromChild k path ∧ ((Tree.branch a ts).subtree? path).isSome ∧
      path.length ≤ room + 1 ∧ ¬ CutOff (paths₁.map (k :: ·) ++ paths₂) (calls₁ ++ calls₂) path := by
  have hlater : ∀ p ∈ paths₂, FromChild (k + 1) p := fun p hp => ((h₂.mem_iff p).1 hp).1
  have hlength : (paths₁.map (k :: ·)).length = calls₁.length := by rw [List.length_map, h₁.at_path.length_eq]
  rw [cutOff_append hlength, List.mem_append, List.mem_map]
  cases path with
  | nil =>
    refine iff_of_false ?_ fun ⟨⟨i, p, heq, _⟩, _⟩ => List.cons_ne_nil i p heq.symm
    rintro (⟨p, -, heq⟩ | hmem)
    · cases heq
    · obtain ⟨i, p, heq, -⟩ := hlater [] hmem
      cases heq
  | cons i path =>
    rw [cutOff_child, fromChild_cons, List.length_cons, Nat.add_le_add_iff_right]
    by_cases hi : i = k
    · -- below the child itself, where no later call matters
      subst hi
      have hnot : i :: path ∉ paths₂ := fun hmem => by
        have := fromChild_cons.1 (hlater _ hmem)
        omega
      simp [hnot, not_cutOff_later hlater, h₁.mem_iff, Tree.subtree?_branch_cons, hu]
    · -- below a later one, where none of the child matters
      have hne : ¬ ∃ p ∈ paths₁, k :: p = i :: path := by
        rintro ⟨p, -, heq⟩
        exact hi (List.cons.inj heq).1.symm
      have hle : k + 1 ≤ i ↔ k ≤ i := by omega
      rw [or_iff_right hne, h₂.mem_iff, fromChild_cons, hle, List.length_cons, Nat.add_le_add_iff_right]
      simp [hi]

theorem cons_child (hu : ts[k]? = some u)
    (h₁ : Explored (outer ++ [.branch a ts]) u room (fun _ => True) paths₁ calls₁)
    (h₂ : Explored outer (.branch a ts) (room + 1) (FromChild (k + 1)) paths₂ calls₂) :
    Explored outer (.branch a ts) (room + 1) (FromChild k) (paths₁.map (k :: ·) ++ paths₂) (calls₁ ++ calls₂) := by
  refine ⟨?_, List.pairwise_append.2 ⟨?_, h₂.ordered, fun p hp q hq => ?_⟩, mem_cons_child hu h₁ h₂⟩
  · exact List.rel_append (List.forall₂_map_left_iff.2 (h₁.at_path.imp fun _ _ => .child hu)) h₂.at_path
  · exact List.pairwise_map.2 (h₁.ordered.imp List.cons_lt_cons_self.2)
  · obtain ⟨p, -, rfl⟩ := List.mem_map.1 hp
    obtain ⟨i, q, rfl, hi⟩ := ((h₂.mem_iff q).1 hq).1
    exact List.Lex.rel hi

end Explored

/-! ## Walking -/

section Steps

variable {ancestors : List (Tree α)} {a : α} {ts : List (Tree α)} {room : Nat}

theorem Tree.walkFrom_prune (h : visit ancestors (.branch a ts) s = (.prune, s₁)) :
    (branch a ts).walkFrom visit room ancestors s = s₁ := by
  unfold walkFrom
  rw [h]

theorem Tree.walkFrom_zero (h : visit ancestors (.branch a ts) s = (.descend, s₁)) :
    (branch a ts).walkFrom visit 0 ancestors s = s₁ := by
  unfold walkFrom
  rw [h]

theorem Tree.walkFrom_succ (h : visit ancestors (.branch a ts) s = (.descend, s₁)) :
    (branch a ts).walkFrom visit (room + 1) ancestors s =
      Forest.walkFrom visit room (ancestors ++ [.branch a ts]) ts s₁ := by
  unfold walkFrom
  rw [h]

theorem Visitor.recorded_eq {t : Tree α} {verdict : Verdict} (h : visit ancestors t s = (verdict, s₁))
    (log : List (Call α)) :
    visit.recorded ancestors t (s, log) = (verdict, s₁, log ++ [⟨⟨ancestors, t⟩, verdict⟩]) := by
  rw [recorded, h]

theorem Answered.cons {t : Tree α} {verdict : Verdict} (h : visit ancestors t s = (verdict, s₁))
    (hrest : Answered visit s₁ calls s₂) : Answered visit s (⟨⟨ancestors, t⟩, verdict⟩ :: calls) s₂ := by
  refine ⟨congrArg Prod.fst h, ?_⟩
  rwa [show (visit ancestors t s).2 = s₁ from congrArg Prod.snd h]

end Steps

/-- What a visitor that notes its calls has noted in a walk, besides what was there before. -/
structure Noted (visit : Visitor α σ) (s s' : σ) (log : List (Call α)) (r : σ × List (Call α))
    (calls : List (Call α)) : Prop where
  eq : r = (s', log ++ calls)
  answered : Answered visit s calls s'

mutual

theorem Tree.walkFrom_recorded (visit : Visitor α σ) (room : Nat) (outer : List (Tree α)) (s : σ)
    (log : List (Call α)) : ∀ t : Tree α, ∃ paths calls,
      Noted visit s (t.walkFrom visit room outer s) log (t.walkFrom visit.recorded room outer (s, log)) calls ∧
        Explored outer t room (fun _ => True) paths calls
  | .leaf a => by
    refine ⟨[[]], [⟨⟨outer, .leaf a⟩, _⟩], ⟨rfl, rfl, rfl⟩, Explored.root_only fun path hne hsome _ => ?_⟩
    cases path with
    | nil => exact absurd rfl hne
    | cons i path => cases hsome
  | .branch a ts => by
    cases hcall : visit outer (.branch a ts) s with
    | mk verdict s₁ =>
      have hrecorded := Visitor.recorded_eq hcall log
      have hlast : Answered visit s [⟨⟨outer, .branch a ts⟩, verdict⟩] s₁ := .cons hcall rfl
      cases verdict with
      | prune =>
        rw [Tree.walkFrom_prune hcall, Tree.walkFrom_prune hrecorded]
        exact ⟨[[]], _, ⟨rfl, hlast⟩, Explored.root_only fun _ _ _ _ => rfl⟩
      | descend =>
        cases room with
        | zero =>
          rw [Tree.walkFrom_zero hcall, Tree.walkFrom_zero hrecorded]
          refine ⟨[[]], _, ⟨rfl, hlast⟩, Explored.root_only fun path hne _ hlength => ?_⟩
          exact absurd (List.length_eq_zero_iff.1 (Nat.le_zero.1 hlength)) hne
        | succ room =>
          obtain ⟨paths, calls, ⟨heq, hanswered⟩, hexplored⟩ :=
            Forest.walkFrom_recorded visit room outer a ts ts 0 rfl s₁ (log ++ [⟨⟨outer, .branch a ts⟩, .descend⟩])
          rw [Tree.walkFrom_succ hcall, Tree.walkFrom_succ hrecorded, heq, List.append_assoc]
          exact ⟨[] :: paths, _, ⟨rfl, .cons hcall hanswered⟩, hexplored.root_descend⟩

theorem Forest.walkFrom_recorded (visit : Visitor α σ) (room : Nat) (outer : List (Tree α)) (a : α)
    (ts : List (Tree α)) : ∀ (us : List (Tree α)) (k : Nat) (_ : ts.drop k = us) (s : σ) (log : List (Call α)),
      ∃ paths calls,
        Noted visit s (Forest.walkFrom visit room (outer ++ [.branch a ts]) us s) log
          (Forest.walkFrom visit.recorded room (outer ++ [.branch a ts]) us (s, log)) calls ∧
        Explored outer (.branch a ts) (room + 1) (FromChild k) paths calls
  | [], k, hus, s, log =>
    ⟨[], [], ⟨by rw [List.append_nil]; rfl, rfl⟩, Explored.none_left (List.drop_eq_nil_iff.1 hus)⟩
  | u :: us, k, hus, s, log => by
    have hu : ts[k]? = some u := by rw [← List.head?_drop, hus, List.head?_cons]
    have hrest : ts.drop (k + 1) = us := by rw [← List.tail_drop, hus, List.tail_cons]
    obtain ⟨paths₁, calls₁, ⟨heq₁, hanswered₁⟩, hexplored₁⟩ :=
      Tree.walkFrom_recorded visit room (outer ++ [.branch a ts]) s log u
    obtain ⟨paths₂, calls₂, ⟨heq₂, hanswered₂⟩, hexplored₂⟩ :=
      Forest.walkFrom_recorded visit room outer a ts us (k + 1) hrest
        (u.walkFrom visit room (outer ++ [.branch a ts]) s) (log ++ calls₁)
    refine ⟨_, calls₁ ++ calls₂, ⟨?_, ?_⟩, hexplored₁.cons_child hu hexplored₂⟩
    · rw [Forest.walkFrom, Forest.walkFrom, heq₁, heq₂, List.append_assoc]
    · rw [Forest.walkFrom]
      exact hanswered₁.append hanswered₂

end

/-- Whatever a visitor answers, a walk asks it just at the places of the tree that are at most ten levels down and not
cut off by an answer above them, once at each and in their order, and hands it the subtree and what is above it. -/
theorem Tree.walk_visits (visit : Visitor α σ) (t : Tree α) (s : σ) :
    let (last, calls) := t.walk visit.recorded (s, [])
    last = t.walk visit s ∧ Answered visit s calls last ∧
      ∃ paths : List (List Nat), paths.Pairwise (· < ·) ∧
        List.Forall₂ (fun path c => t.subtree? path = some c.tree ∧ c.ancestors = t.above path) paths calls ∧
        ∀ path, path ∈ paths ↔ (t.subtree? path).isSome ∧ path.length ≤ 10 ∧ ¬ CutOff paths calls path := by
  obtain ⟨paths, calls, ⟨heq, hanswered⟩, hexplored⟩ := t.walkFrom_recorded visit walkDepth [] s []
  rw [List.nil_append] at heq
  rw [walk, heq]
  refine ⟨rfl, hanswered, paths, hexplored.ordered, hexplored.at_path, fun path => ?_⟩
  rw [hexplored.mem_iff, walkDepth, true_and]

end DesignCanvas
