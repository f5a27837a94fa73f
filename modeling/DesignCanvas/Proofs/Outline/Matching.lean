import DesignCanvas.Proofs.Outline.Claims

/-!
# Results of a comparison

What the results of a comparison say is true of the texts that the items have claimed, and no text is told of twice
(`reconcile_sound`). The items that are matched are the first ones with their text, as many as there are texts equal
to it, and they are matched with these texts in order (`reconcile_matched`).
-/

namespace DesignCanvas

namespace MatchResult

/-- What a result tells of the text at a position of the design, or of none. -/
def Tells (records : List TextRecord) (i : OutlineItem) (res : MatchResult) : Option Nat → Prop
  | none => res.status = .missing ∧ res.actual = none ∧ res.nodeId = none ∧ res.path = none ∧ res.similarity = none
  | some j => ∃ r, records[j]? = some r ∧ res.actual = some r.text ∧ res.nodeId = some r.nodeId ∧
      res.path = some r.path ∧
      ((res.status = .matched ∧ r.text = i.text ∧ res.similarity = some 1.0) ∨
        (res.status = .mismatched ∧ r.text ≠ i.text ∧
          res.similarity = some (Score.similarity i.text r.text).toFloat ∧
          Score.threshold.less (Score.similarity i.text r.text)))

theorem label_ofClaim (i : OutlineItem) (c : Claim) : (ofClaim i c).label = i.label := by
  cases c <;> rfl

theorem expected_ofClaim (i : OutlineItem) (c : Claim) : (ofClaim i c).expected = i.text := by
  cases c <;> rfl

theorem matched_ofClaim (i : OutlineItem) (c : Claim) : (ofClaim i c).status = .matched ↔ c.equal?.isSome := by
  cases c <;> simp [ofClaim, claimed, Claim.equal?]

theorem tells_ofClaim {records : List TextRecord} {i : OutlineItem} {c : Claim} (hfits : c.Fits i)
    (hplaced : ∀ t, c.placed? = some t → records[t.2]? = some t.1) : (ofClaim i c).Tells records i c.position? := by
  cases c with
  | missing => exact ⟨rfl, rfl, rfl, rfl, rfl⟩
  | equal t =>
    have hfull : Score.full.toFloat = 1.0 := by decide +kernel
    refine ⟨t.1, hplaced t rfl, rfl, rfl, rfl, Or.inl ⟨rfl, hfits, ?_⟩⟩
    rw [← hfull]
    rfl
  | similar t score =>
    obtain ⟨hne, rfl, hless⟩ := hfits
    exact ⟨t.1, hplaced t rfl, rfl, rfl, rfl, Or.inr ⟨rfl, hne, rfl, hless⟩⟩

end MatchResult

/-! ## Counts -/

namespace MatchSummary

theorem total_ofResults (rs : List MatchResult) : (ofResults rs).total = rs.length := by
  induction rs with
  | nil => rfl
  | cons r rs ih =>
    simp only [ofResults, total, List.countP_cons, List.length_cons] at ih ⊢
    cases r.status <;> simp <;> omega

theorem matched_add_mismatched (rs : List MatchResult) :
    (ofResults rs).matched + (ofResults rs).mismatched = rs.countP fun r => r.status != .missing := by
  induction rs with
  | nil => rfl
  | cons r rs ih =>
    simp only [ofResults, List.countP_cons] at ih ⊢
    cases r.status <;> simp <;> omega

end MatchSummary

section Reconcile

variable (items : List OutlineItem) (records : List TextRecord)

theorem length_reconcile : (reconcile items records).length = items.length := by
  rw [reconcile, List.length_zipWith, Claim.length_ofItems, Nat.min_self]

theorem getElem?_reconcile {p : Nat} {i : OutlineItem} (hi : items[p]? = some i) :
    ∃ c, (Claim.ofItems items records)[p]? = some c ∧ c.Fits i ∧
      (reconcile items records)[p]? = some (.ofClaim i c) := by
  obtain ⟨hlength, hfits⟩ := List.forall₂_iff_zip.1 (Claim.forall₂_fits items records)
  obtain ⟨hp, -⟩ := List.getElem?_eq_some_iff.1 hi
  rw [hlength] at hp
  have hc := List.getElem?_eq_getElem hp
  have hzip : (items.zip (Claim.ofItems items records))[p]? = some (i, (Claim.ofItems items records)[p]) :=
    List.getElem?_zip_eq_some.2 ⟨hi, hc⟩
  refine ⟨_, hc, hfits (List.mem_of_getElem? hzip), ?_⟩
  rw [reconcile, List.getElem?_zipWith, hi, hc]

theorem countP_reconcile :
    ((reconcile items records).countP fun r => r.status != .missing)
      = ((Claim.ofItems items records).filterMap Claim.position?).length := by
  have hlength : items.length = (Claim.ofItems items records).length := (Claim.length_ofItems items records).symm
  rw [reconcile]
  generalize Claim.ofItems items records = cs at hlength
  induction items generalizing cs with
  | nil => rw [List.length_eq_zero_iff.1 hlength.symm]; rfl
  | cons i is ih =>
    obtain ⟨c, cs, rfl⟩ := List.exists_cons_of_length_eq_add_one hlength.symm
    rw [List.zipWith_cons_cons, List.countP_cons, ih cs (by simpa using hlength)]
    cases c <;> simp [MatchResult.ofClaim, MatchResult.claimed, Claim.position?, List.filterMap_cons]

theorem eq_of_position? {p q j : Nat} {c d : Claim} (hc : (Claim.ofItems items records)[p]? = some c)
    (hd : (Claim.ofItems items records)[q]? = some d) (hcj : c.position? = some j) (hdj : d.position? = some j) :
    p = q := by
  have hpairwise := List.pairwise_filterMap.1 (Claim.nodup_position? items records)
  rw [List.pairwise_iff_getElem] at hpairwise
  obtain ⟨hp, rfl⟩ := List.getElem?_eq_some_iff.1 hc
  obtain ⟨hq, rfl⟩ := List.getElem?_eq_some_iff.1 hd
  rcases Nat.lt_trichotomy p q with hlt | heq | hlt
  · exact absurd rfl (hpairwise p q hp hq hlt j hcj j hdj)
  · exact heq
  · exact absurd rfl (hpairwise q p hq hp hlt j hdj j hcj)

end Reconcile

/-! ## What is told -/

/-- There is one result for each item, in their order, and each tells the truth of the text at a position of the
design, or tells of none. No two of them tell of the same position. -/
theorem reconcile_sound (items : List OutlineItem) (records : List TextRecord) :
    let results := reconcile items records
    let summary := MatchSummary.ofResults results
    (∃ place : Nat → Option Nat,
      results.length = items.length ∧
      (∀ (p : Nat) (i : OutlineItem), items[p]? = some i → ∃ res, results[p]? = some res ∧ res.label = i.label ∧ res.expected = i.text ∧
        res.Tells records i (place p)) ∧
      (∀ p, items.length ≤ p → place p = none) ∧
      ∀ p q j, place p = some j → place q = some j → p = q) ∧
    summary.total = items.length ∧ summary.matched + summary.mismatched ≤ records.length := by
  dsimp only
  refine ⟨⟨fun p => (Claim.ofItems items records)[p]?.bind Claim.position?, length_reconcile items records, ?_, ?_, ?_⟩,
    ?_, ?_⟩
  · intro p i hi
    obtain ⟨c, hc, hfits, hres⟩ := getElem?_reconcile items records hi
    refine ⟨_, hres, MatchResult.label_ofClaim i c, MatchResult.expected_ofClaim i c, ?_⟩
    dsimp only
    rw [hc]
    exact MatchResult.tells_ofClaim hfits fun t ht =>
      Claim.getElem?_of_placed? items records (List.mem_of_getElem? hc) ht
  · intro p hp
    have hnone : (Claim.ofItems items records)[p]? = none := by
      rw [List.getElem?_eq_none_iff, Claim.length_ofItems]
      exact hp
    dsimp only
    rw [hnone]
    rfl
  · intro p q j hp hq
    obtain ⟨c, hc, hcj⟩ := Option.bind_eq_some_iff.1 hp
    obtain ⟨d, hd, hdj⟩ := Option.bind_eq_some_iff.1 hq
    exact eq_of_position? items records hc hd hcj hdj
  · rw [MatchSummary.total_ofResults, length_reconcile]
  · rw [MatchSummary.matched_add_mismatched, countP_reconcile]
    exact Claim.length_position?_le items records

/-! ## Which items are matched -/

section Matched

/-- The place of an element among those that have a property is the number of such elements before it. -/
theorem getElem?_of_filter_zipIdx {q : α → Bool} {l : List α} {n k p : Nat} {a : α}
    (h : ((l.zipIdx n).filter fun x => q x.1)[k]? = some (a, p)) :
    ∃ m, p = n + m ∧ l[m]? = some a ∧ q a ∧ (l.take m).countP q = k := by
  induction l generalizing n k with
  | nil => simp at h
  | cons b l ih =>
    rw [List.zipIdx_cons] at h
    by_cases hb : q b
    · rw [List.filter_cons_of_pos (p := fun x : α × Nat => q x.1) hb] at h
      cases k with
      | zero =>
        obtain ⟨rfl, rfl⟩ := Prod.mk.inj (Option.some.inj h)
        exact ⟨0, rfl, rfl, hb, rfl⟩
      | succ k =>
        obtain ⟨m, rfl, hm, ha, hk⟩ := ih h
        refine ⟨m + 1, by omega, hm, ha, ?_⟩
        rw [List.take_succ_cons, List.countP_cons_of_pos hb, hk]
    · rw [List.filter_cons_of_neg (p := fun x : α × Nat => q x.1) hb] at h
      obtain ⟨m, rfl, hm, ha, hk⟩ := ih h
      refine ⟨m + 1, by omega, hm, ha, ?_⟩
      rw [List.take_succ_cons, List.countP_cons_of_neg hb, hk]

theorem length_filter_zipIdx (q : α → Bool) (l : List α) : (l.zipIdx.filter fun x => q x.1).length = l.countP q := by
  rw [← List.countP_eq_length_filter]
  have hmap := List.countP_map (p := q) (f := Prod.fst) (l := l.zipIdx)
  rw [List.zipIdx_map_fst] at hmap
  exact hmap.symm

variable {items : List OutlineItem} {records : List TextRecord}

theorem matched_iff {p : Nat} {i : OutlineItem} {res : MatchResult} (hi : items[p]? = some i)
    (hres : (reconcile items records)[p]? = some res) :
    res.status = .matched ↔
      ((items.take p).countP fun j => j.text == i.text) < records.countP fun r => r.text == i.text := by
  obtain ⟨c, hc, -, hres'⟩ := getElem?_reconcile items records hi
  obtain rfl := Option.some.inj (hres.symm.trans hres')
  have hequal := Claim.map_equal?_getElem?_ofItems items records hi
  rw [hc, Option.map_some, Option.some.injEq] at hequal
  rw [MatchResult.matched_ofClaim, hequal, ← length_filter_zipIdx (fun r => r.text == i.text) records]
  simp

/-- Which items are matched does not depend on the order of the texts of the design. -/
theorem map_matched_perm (items : List OutlineItem) {records records' : List TextRecord} (h : records.Perm records') :
    (reconcile items records).map (fun r => r.status == .matched)
      = (reconcile items records').map fun r => r.status == .matched := by
  refine List.ext_getElem? fun p => ?_
  rw [List.getElem?_map, List.getElem?_map]
  cases hi : items[p]? with
  | none =>
    have hp := List.getElem?_eq_none_iff.1 hi
    rw [List.getElem?_eq_none (by rwa [length_reconcile]), List.getElem?_eq_none (by rwa [length_reconcile])]
  | some i =>
    obtain ⟨c, -, -, hres⟩ := getElem?_reconcile items records hi
    obtain ⟨c', -, -, hres'⟩ := getElem?_reconcile items records' hi
    have hcount : (records.countP fun r => r.text == i.text) = records'.countP fun r => r.text == i.text :=
      h.countP_eq _
    have hiff := matched_iff hi hres
    rw [hcount, ← matched_iff hi hres'] at hiff
    rw [hres, hres', Option.map_some, Option.map_some, Option.some.injEq, Bool.eq_iff_iff, beq_iff_eq, beq_iff_eq]
    exact hiff

/-- Of the items with a text, the first ones are matched, as many as there are texts of the design equal to it, each
with the text at its own place among these. Which items these are does not depend on the order of the texts. -/
theorem reconcile_matched (items : List OutlineItem) (records : List TextRecord) :
    (∀ text : String,
      let wanted := items.zipIdx.filter fun x => x.1.text == text
      let present := records.zipIdx.filter fun t => t.1.text == text
      ∀ k i p, wanted[k]? = some (i, p) →
        ∃ res, (reconcile items records)[p]? = some res ∧
          (res.status = .matched ↔ k < min wanted.length present.length) ∧
          ∀ r j, present[k]? = some (r, j) →
            (Claim.ofItems items records)[p]? = some (.equal (r, j)) ∧ res = .claimed .matched i r .full) ∧
    ∀ records', records.Perm records' →
      (reconcile items records).map (fun r => r.status == .matched)
        = (reconcile items records').map fun r => r.status == .matched := by
  refine ⟨fun text => ?_, fun records' h => map_matched_perm items h⟩
  dsimp only
  intro k i p hk
  obtain ⟨m, hm, hi, htext, hcount⟩ := getElem?_of_filter_zipIdx (q := fun j : OutlineItem => j.text == text) hk
  obtain rfl : p = m := by omega
  obtain rfl := beq_iff_eq.1 htext
  obtain ⟨c, hc, -, hres⟩ := getElem?_reconcile items records hi
  have hequal := Claim.map_equal?_getElem?_ofItems items records hi
  rw [hc, Option.map_some, Option.some.injEq, hcount] at hequal
  refine ⟨_, hres, ?_, fun r j hr => ?_⟩
  · have hwanted : k < (items.zipIdx.filter fun x => x.1.text == i.text).length :=
      (List.getElem?_eq_some_iff.1 hk).1
    rw [matched_iff hi hres, hcount, length_filter_zipIdx (fun r => r.text == i.text) records]
    omega
  · rw [hr] at hequal
    cases c with
    | equal t =>
      obtain rfl := Option.some.inj hequal
      exact ⟨hc, rfl⟩
    | similar t score => cases hequal
    | missing => cases hequal

/-- An equal text goes to its own item, also when an earlier item is like it. -/
example : (reconcile [⟨"", "ab", ""⟩, ⟨"", "a", ""⟩] [⟨"1:2", "", "a", ""⟩]).map MatchResult.status
    = [.missing, .matched] := by
  decide

end Matched

end DesignCanvas
