import DesignCanvas.Proofs.Outline.Matching
import DesignCanvas.Proofs.Outline.Similarity
import Mathlib.Data.List.MinMax

/-!
# The greedy round

In the second round every item without an equal text is given what is then left of the texts (`Claim.unclaimed`), and
takes the first of those that are most alike to its own text, if that is alike enough (`Claim.choice`). So what is
missing at the end is not alike enough to anything that nobody claimed (`reconcile_greedy`).
-/

namespace DesignCanvas

theorem le_of_argmax {α : Type*} [DecidableEq α] {β : Type*} [LinearOrder β] {f : α → β} {number : α → Nat}
    {l : List α} {a : α} (hl : l.Pairwise fun a b => number a < number b) (ha : l.argmax f = some a) :
    ∀ b ∈ l, f b ≤ f a ∧ (f b = f a → number a ≤ number b) := by
  intro b hb
  refine ⟨List.le_of_mem_argmax hb ha, fun heq => ?_⟩
  have hindex : l.idxOf a ≤ l.idxOf b := List.index_of_argmax ha hb heq.ge
  rcases hindex.eq_or_lt with hsame | hlt
  · rw [(List.idxOf_inj (List.argmax_mem ha)).1 hsame]
  · have hlength : l.idxOf b < l.length := List.idxOf_lt_length_of_mem hb
    have hnumber := List.pairwise_iff_getElem.1 hl _ _ (hlt.trans hlength) hlength hlt
    rw [List.getElem_idxOf, List.getElem_idxOf] at hnumber
    exact hnumber.le

namespace Claim

/-! ## The choice of one item -/

/-- The likeness of a text of the design to a given one. -/
def alike (text : String) (t : Placed) : ℚ :=
  likeness text t.1.text

/-- What an item without an equal text claims of the texts that are free. -/
def choice (i : OutlineItem) (free : List Placed) : Claim :=
  match mostSimilar? i.text free with
  | none => missing
  | some (t, score) => if Score.threshold.less score then similar t score else missing

theorem better_map (text : String) (best : Option Placed) (t : Placed) :
    better text (best.map fun b => (b, Score.similarity text b.1.text)) t
      = (List.argAux (fun b c => alike text c < alike text b) best t).map fun b =>
          (b, Score.similarity text b.1.text) := by
  cases best with
  | none => rfl
  | some b =>
    dsimp only [better, List.argAux, Option.map_some]
    by_cases hless : alike text b < alike text t
    · rw [if_pos hless, if_pos ((Score.less_similarity_iff ..).2 hless), Option.map_some]
    · rw [if_neg hless, if_neg (mt (Score.less_similarity_iff ..).1 hless), Option.map_some]

/-- The scan with a running best ends at the first text with the greatest likeness. -/
theorem mostSimilar?_eq (text : String) (free : List Placed) :
    mostSimilar? text free
      = (free.argmax (alike text)).map fun t => (t, Score.similarity text t.1.text) := by
  have hfold (best : Option Placed) :
      free.foldl (better text) (best.map fun b => (b, Score.similarity text b.1.text))
        = (free.foldl (List.argAux fun b c => alike text c < alike text b) best).map fun b =>
            (b, Score.similarity text b.1.text) := by
    induction free generalizing best with
    | nil => rfl
    | cons t ts ih => rw [List.foldl_cons, List.foldl_cons, better_map, ih]
  exact hfold none

theorem choice_eq_missing {i : OutlineItem} {free : List Placed} :
    choice i free = missing ↔ ∀ t ∈ free, alike i.text t ≤ 3 / 10 := by
  rw [choice, mostSimilar?_eq]
  cases hbest : free.argmax (alike i.text) with
  | none => simp [List.argmax_eq_none.1 hbest]
  | some t =>
    have hmem : t ∈ free := List.argmax_mem hbest
    have hmax : ∀ u ∈ free, alike i.text u ≤ alike i.text t := fun u hu => List.le_of_mem_argmax hu hbest
    dsimp only [Option.map_some]
    by_cases hless : 3 / 10 < alike i.text t
    · rw [if_pos ((Score.threshold_less_iff ..).2 hless)]
      exact iff_of_false (by simp) fun h => absurd (h t hmem) (not_le.2 hless)
    · rw [if_neg (mt (Score.threshold_less_iff ..).1 hless)]
      exact iff_of_true rfl fun u hu => (hmax u hu).trans (not_lt.1 hless)

theorem choice_eq_similar {i : OutlineItem} {free : List Placed} (h : choice i free ≠ missing) :
    ∃ t, free.argmax (alike i.text) = some t ∧ 3 / 10 < alike i.text t ∧
      choice i free = similar t (Score.similarity i.text t.1.text) := by
  rw [choice, mostSimilar?_eq] at h ⊢
  cases hbest : free.argmax (alike i.text) with
  | none => simp [hbest] at h
  | some t =>
    rw [hbest] at h
    dsimp only [Option.map_some] at h ⊢
    split at h
    · next hless => exact ⟨t, rfl, (Score.threshold_less_iff ..).1 hless, if_pos hless⟩
    · exact absurd rfl h

/-! ## What is left for an item -/

/-- The texts that are left for the item at a place: those that are claimed neither as equal ones nor for an item
before it. -/
def unclaimed (records : List TextRecord) (claims : List Claim) (p : Nat) : List Placed :=
  records.zipIdx.filter fun t => t ∉ claims.filterMap equal? ∧ t ∉ (claims.take p).filterMap placed?

section TakeEqual

variable {free : List Placed}

theorem eraseP_eq_filter {p : Placed → Bool} (hfree : free.Nodup) :
    free.eraseP p = free.filter fun t => free.find? p ≠ some t := by
  cases hfound : free.find? p with
  | none => rw [List.eraseP_of_forall_not (List.find?_eq_none.1 hfound)]; simp
  | some a =>
    obtain ⟨hp, l₁, l₂, rfl, hl₁⟩ := List.find?_eq_some_iff_append.1 hfound
    have hnot : ∀ b ∈ l₁, ¬ p b := fun b hb => by simpa using hl₁ b hb
    have ha : a ∉ l₁ ++ l₂ := (List.nodup_middle.1 hfree).notMem
    rw [List.eraseP_append_right _ hnot, List.eraseP_cons_of_pos hp, List.filter_append,
      List.filter_cons_of_neg (by simp), ← List.filter_append, List.filter_eq_self.2]
    intro b hb
    have hne : a ≠ b := fun h => ha (h ▸ hb)
    simpa using hne

theorem takeEqual_free (hfree : free.Nodup) (items : List OutlineItem) :
    (takeEqual free items).2 = free.filter fun t => t ∉ (takeEqual free items).1.reduceOption := by
  induction items generalizing free with
  | nil => simp [takeEqual, List.reduceOption]
  | cons i is ih =>
    rw [takeEqual]
    dsimp only
    rw [ih (hfree.sublist List.eraseP_sublist), eraseP_eq_filter hfree, List.filter_filter]
    refine List.filter_congr fun t _ => ?_
    cases free.find? fun t => t.1.text == i.text with
    | none => simp [List.reduceOption_cons_of_none]
    | some a => simp [List.reduceOption_cons_of_some, eq_comm, Bool.and_comm]

end TakeEqual

section TakeSimilar

variable {free : List Placed} {l : List (OutlineItem × Option Placed)}

theorem takeSimilar_cons_none (hfree : (free.map Prod.snd).Nodup) (i : OutlineItem) :
    takeSimilar free ((i, none) :: l)
      = choice i free :: takeSimilar (free.filter fun u => (choice i free).placed? ≠ some u) l := by
  have hall : (free.filter fun u => missing.placed? ≠ some u) = free := by simp [placed?]
  rw [takeSimilar, choice]
  cases hbest : mostSimilar? i.text free with
  | none => rw [hall]
  | some b =>
    obtain ⟨t, score⟩ := b
    dsimp only
    have ht : t ∈ free := (mostSimilar?_scored i.text free t score hbest).1
    split
    · congr 2
      refine List.filter_congr fun u hu => ?_
      -- the position tells the texts apart
      have hsame : u.2 = t.2 ↔ t = u :=
        ⟨fun h => (List.inj_on_of_nodup_map hfree hu ht h).symm, fun h => h ▸ rfl⟩
      rw [Bool.eq_iff_iff]
      simp [placed?, ← hsame]
    · rw [hall]

/-- The claim of an item without an equal text is its choice of what was claimed for no item before it. -/
theorem getElem?_takeSimilar (free : List Placed) {i : OutlineItem} {p : Nat} (hfree : (free.map Prod.snd).Nodup)
    (hequal : ∀ t ∈ (l.map Prod.snd).reduceOption, t ∉ free) (hi : l[p]? = some (i, none)) :
    (takeSimilar free l)[p]?
      = some (choice i (free.filter fun t => t ∉ ((takeSimilar free l).take p).filterMap placed?)) := by
  induction l generalizing free p with
  | nil => simp at hi
  | cons x l ih =>
    obtain ⟨j, _ | a⟩ := x
    · rw [takeSimilar_cons_none hfree]
      rw [List.map_cons, List.reduceOption_cons_of_none] at hequal
      cases p with
      | zero =>
        obtain ⟨rfl, -⟩ := Prod.mk.inj (Option.some.inj hi)
        simp
      | succ p =>
        rw [List.getElem?_cons_succ, ih _ ?_ ?_ hi]
        · congr 2
          rw [List.filter_filter, List.take_succ_cons, List.filterMap_cons]
          refine List.filter_congr fun t _ => ?_
          cases (choice j free).placed? with
          | none => simp
          | some b =>
            rw [Bool.eq_iff_iff, Bool.and_eq_true]
            simp only [decide_eq_true_eq, List.mem_cons, not_or, ne_eq, Option.some.injEq]
            exact and_comm.trans (and_congr_left' (not_congr eq_comm))
        · exact hfree.sublist (List.filter_sublist.map _)
        · exact fun t ht hmem => hequal t ht (List.mem_of_mem_filter hmem)
    · rw [List.map_cons, List.reduceOption_cons_of_some] at hequal
      cases p with
      | zero => simp at hi
      | succ p =>
        rw [takeSimilar, List.getElem?_cons_succ,
          ih _ hfree (fun t ht => hequal t (List.mem_cons_of_mem _ ht)) hi]
        congr 2
        rw [List.take_succ_cons, List.filterMap_cons_some (show (equal a).placed? = some a from rfl)]
        refine List.filter_congr fun t ht => ?_
        have hne : t ≠ a := fun h => hequal a (List.mem_cons_self ..) (h ▸ ht)
        simp [hne]

end TakeSimilar

/-! ## The claims of both rounds -/

section OfItems

variable (items : List OutlineItem) (records : List TextRecord)

theorem nodup_zipIdx : (records.zipIdx.map Prod.snd).Nodup := by
  rw [List.zipIdx_map_snd]
  exact List.nodup_range'

theorem getElem?_ofItems {p : Nat} {i : OutlineItem} {c : Claim} (hi : items[p]? = some i)
    (hc : (ofItems items records)[p]? = some c) (hnone : c.equal? = none) :
    c = choice i (unclaimed records (ofItems items records) p) := by
  have hnodup : records.zipIdx.Nodup := List.Nodup.of_map _ (nodup_zipIdx records)
  have hequal : (ofItems items records).filterMap equal? = (takeEqual records.zipIdx items).1.reduceOption := by
    rw [← map_equal?_ofItems, List.reduceOption, List.filterMap_map]
    rfl
  have hfree : (takeEqual records.zipIdx items).2
      = records.zipIdx.filter fun t => t ∉ (ofItems items records).filterMap equal? := by
    rw [hequal, takeEqual_free hnodup]
  have hfirst : (takeEqual records.zipIdx items).1[p]? = some none := by
    rw [← map_equal?_ofItems, List.getElem?_map, hc, Option.map_some, hnone]
  have hpair : (items.zip (takeEqual records.zipIdx items).1)[p]? = some (i, none) :=
    List.getElem?_zip_eq_some.2 ⟨hi, hfirst⟩
  have hclaim := getElem?_takeSimilar (takeEqual records.zipIdx items).2 ?_ ?_ hpair
  · change (ofItems items records)[p]? = _ at hclaim
    rw [hc, Option.some.injEq] at hclaim
    rw [hclaim]
    change choice i ((takeEqual records.zipIdx items).2.filter fun t =>
      t ∉ ((ofItems items records).take p).filterMap placed?) = _
    rw [unclaimed, hfree, List.filter_filter]
    congr 1
    exact List.filter_congr fun t _ => by rw [Bool.decide_and, Bool.and_comm]
  · rw [hfree]
    exact (nodup_zipIdx records).sublist (List.filter_sublist.map _)
  · rw [map_snd_zip_takeEqual, hfree, ← hequal]
    intro t ht hmem
    simpa [ht] using List.of_mem_filter hmem

theorem pairwise_unclaimed (claims : List Claim) (p : Nat) :
    (unclaimed records claims p).Pairwise fun t u => t.2 < u.2 := by
  refine List.Pairwise.sublist List.filter_sublist ?_
  rw [← List.pairwise_map (f := Prod.snd) (R := (· < ·)), List.zipIdx_map_snd]
  exact List.pairwise_lt_range'

theorem mem_unclaimed {claims : List Claim} {t : Placed} (ht : t ∈ records.zipIdx)
    (hfree : t ∉ claims.filterMap placed?) (p : Nat) : t ∈ unclaimed records claims p := by
  refine List.mem_filter.2 ⟨ht, ?_⟩
  have hequal : t ∉ claims.filterMap equal? := by
    intro hmem
    obtain ⟨c, hc, hct⟩ := List.mem_filterMap.1 hmem
    refine hfree (List.mem_filterMap.2 ⟨c, hc, ?_⟩)
    cases c with
    | equal u => exact hct
    | similar u score => cases hct
    | missing => cases hct
  have hbefore : t ∉ (claims.take p).filterMap placed? := fun hmem =>
    hfree (((List.take_sublist p claims).filterMap placed?).subset hmem)
  simp [hequal, hbefore]

end OfItems

end Claim

/-! ## What the results tell -/

theorem MatchResult.mismatched_ofClaim (i : OutlineItem) (c : Claim) :
    (ofClaim i c).status = .mismatched ↔ c.equal? = none ∧ c ≠ .missing := by
  cases c <;> simp [ofClaim, claimed, Claim.equal?]

theorem MatchResult.missing_ofClaim (i : OutlineItem) (c : Claim) :
    (ofClaim i c).status = .missing ↔ c = .missing := by
  cases c <;> simp [ofClaim, claimed]

/-- An item that is not matched is a mismatch if one of the texts that are left for it is alike enough, and is then
given the first of those that are most alike. So an item that is missing is not alike enough to any text that nobody
claimed. -/
theorem reconcile_greedy (items : List OutlineItem) (records : List TextRecord) :
    let claims := Claim.ofItems items records
    let results := reconcile items records
    (∀ (p : Nat) (i : OutlineItem) (res : MatchResult), items[p]? = some i → results[p]? = some res →
      res.status ≠ .matched →
      let free := Claim.unclaimed records claims p
      (res.status = .mismatched ↔ ∃ t ∈ free, 3 / 10 < likeness i.text t.1.text) ∧
      (res.status = .mismatched → ∃ t ∈ free,
        claims[p]? = some (.similar t (Score.similarity i.text t.1.text)) ∧
        res = .claimed .mismatched i t.1 (Score.similarity i.text t.1.text) ∧
        ∀ u ∈ free, likeness i.text u.1.text ≤ likeness i.text t.1.text ∧
          (likeness i.text u.1.text = likeness i.text t.1.text → t.2 ≤ u.2))) ∧
    ∀ (p : Nat) (i : OutlineItem) (res : MatchResult), items[p]? = some i → results[p]? = some res →
      res.status = .missing →
      ∀ t ∈ records.zipIdx, t ∉ claims.filterMap Claim.placed? → likeness i.text t.1.text ≤ 3 / 10 := by
  dsimp only
  refine ⟨fun p i res hi hres hmatched => ?_, fun p i res hi hres hmissing t ht hfree => ?_⟩
  · obtain ⟨c, hc, -, hres'⟩ := getElem?_reconcile items records hi
    obtain rfl := Option.some.inj (hres.symm.trans hres')
    have hnone : c.equal? = none := by
      rw [Ne, MatchResult.matched_ofClaim] at hmatched
      simpa using hmatched
    have hchoice := Claim.getElem?_ofItems items records hi hc hnone
    have hstatus : (MatchResult.ofClaim i c).status = .mismatched ↔ c ≠ .missing := by
      rw [MatchResult.mismatched_ofClaim]
      exact and_iff_right hnone
    rw [hstatus]
    refine ⟨?_, fun hsome => ?_⟩
    · rw [hchoice, Ne, Claim.choice_eq_missing]
      simp only [Claim.alike]
      push Not
      rfl
    · rw [hchoice] at hsome
      obtain ⟨t, hbest, -, hsimilar⟩ := Claim.choice_eq_similar hsome
      rw [← hchoice] at hsimilar
      refine ⟨t, List.argmax_mem hbest, by rw [hc, hsimilar], by rw [hsimilar]; rfl, ?_⟩
      exact le_of_argmax (Claim.pairwise_unclaimed records _ p) hbest
  · obtain ⟨c, hc, -, hres'⟩ := getElem?_reconcile items records hi
    obtain rfl := Option.some.inj (hres.symm.trans hres')
    obtain rfl := (MatchResult.missing_ofClaim i c).1 hmissing
    have hchoice := Claim.getElem?_ofItems items records hi hc rfl
    exact Claim.choice_eq_missing.1 hchoice.symm t (Claim.mem_unclaimed records ht hfree p)

/-- Of two texts that are equally alike the earlier one is taken. -/
example : (reconcile [⟨"", "ab", ""⟩] [⟨"1:2", "", "b", ""⟩, ⟨"1:3", "", "a", ""⟩]).map MatchResult.nodeId
    = [some "1:2"] := by
  decide

end DesignCanvas
