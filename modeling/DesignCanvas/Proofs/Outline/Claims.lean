import DesignCanvas.Outline.Matching
import Mathlib.Data.List.Perm.Subperm
import Mathlib.Data.List.ReduceOption

/-!
# Claims

What the two rounds of claiming keep. No text is claimed twice, since the texts that are claimed and those that are
still free are together the texts that were free before. In the first round the items with one text are served in
order from the texts that are equal to it, whatever the others do (`Claim.getElem?_takeEqual`). So an item that goes
away empty finds no equal text among those that are left, and every claim of the second round is for a different
text (`Claim.forall₂_fits`).
-/

namespace DesignCanvas

namespace Claim

def placed? : Claim → Option Placed
  | equal t => some t
  | similar t _ => some t
  | missing => none

def equal? : Claim → Option Placed
  | equal t => some t
  | similar _ _ => none
  | missing => none

/-- The claim suits the item: an equal text, or a different one with its score, which is high enough. -/
def Fits (i : OutlineItem) : Claim → Prop
  | equal t => t.1.text = i.text
  | similar t score =>
    t.1.text ≠ i.text ∧ score = Score.similarity i.text t.1.text ∧ Score.threshold.less score
  | missing => True

theorem map_placed? (c : Claim) : c.placed?.map Prod.snd = c.position? := by
  cases c <;> rfl

/-! ## Equal texts -/

section Equal

variable (free : List Placed) (items : List OutlineItem)

theorem length_takeEqual : (takeEqual free items).1.length = items.length := by
  induction items generalizing free with
  | nil => rfl
  | cons i is ih => rw [takeEqual, List.length_cons, List.length_cons, ih]

theorem perm_eraseP {p : α → Bool} {l : List α} {a : α} (h : l.find? p = some a) : (a :: l.eraseP p).Perm l := by
  obtain ⟨hp, l₁, l₂, rfl, hl₁⟩ := List.find?_eq_some_iff_append.1 h
  have hnot : ∀ b ∈ l₁, ¬ p b := fun b hb => by simpa using hl₁ b hb
  rw [List.eraseP_append_right _ hnot, List.eraseP_cons_of_pos hp]
  exact List.perm_middle.symm

theorem perm_takeEqual : ((takeEqual free items).1.reduceOption ++ (takeEqual free items).2).Perm free := by
  induction items generalizing free with
  | nil => exact .refl _
  | cons i is ih =>
    have hrest := ih (free.eraseP fun t => t.1.text == i.text)
    rw [takeEqual]
    cases hfound : free.find? fun t => t.1.text == i.text with
    | none =>
      have hnot := List.find?_eq_none.1 hfound
      rw [List.eraseP_of_forall_not hnot] at hrest ⊢
      rw [List.reduceOption_cons_of_none]
      exact hrest
    | some t =>
      rw [List.reduceOption_cons_of_some]
      exact (hrest.cons t).trans (perm_eraseP hfound)

theorem ne_of_takeEqual :
    ∀ x ∈ items.zip (takeEqual free items).1,
      match x.2 with
      | some t => t.1.text = x.1.text
      | none => ∀ t ∈ (takeEqual free items).2, t.1.text ≠ x.1.text := by
  induction items generalizing free with
  | nil => simp
  | cons i is ih =>
    intro x hx
    rw [takeEqual, List.zip_cons_cons] at hx
    rcases List.mem_cons.1 hx with rfl | hx
    · dsimp only
      split
      · next t hfound => simpa using List.find?_some hfound
      · next hfound =>
        intro t ht
        have hsub : t ∈ free.eraseP fun t => t.1.text == i.text :=
          (perm_takeEqual _ is).mem_iff.1 (List.mem_append_right _ ht)
        have hnot := List.find?_eq_none.1 hfound t (List.mem_of_mem_eraseP hsub)
        simpa using hnot
    · exact ih _ x hx

theorem filter_eraseP (x y : String) :
    (free.eraseP fun t => t.1.text == y).filter (fun t => t.1.text == x)
      = (free.filter fun t => t.1.text == x).drop (if y = x then 1 else 0) := by
  induction free with
  | nil => simp
  | cons t ts ih =>
    by_cases hy : t.1.text = y
    · by_cases hyx : y = x
      · subst hyx
        simp [hy]
      · simp [hy, hyx]
    · rw [List.eraseP_cons_of_neg (by simpa using hy)]
      by_cases hx : t.1.text = x
      · have hyx : y ≠ x := fun h => hy (hx.trans h.symm)
        simp only [if_neg hyx, List.drop_zero] at ih ⊢
        rw [List.filter_cons, List.filter_cons, ih]
      · rw [List.filter_cons_of_neg (by simpa using hx), List.filter_cons_of_neg (by simpa using hx)]
        exact ih

/-- Of the items with one text, each takes the text that is equal to it at its own place among them. -/
theorem getElem?_takeEqual {p : Nat} {i : OutlineItem} (hi : items[p]? = some i) :
    (takeEqual free items).1[p]?
      = some ((free.filter fun t => t.1.text == i.text)[(items.take p).countP fun j => j.text == i.text]?) := by
  induction items generalizing free p with
  | nil => simp at hi
  | cons j js ih =>
    rw [takeEqual]
    cases p with
    | zero =>
      obtain rfl : j = i := by simpa using hi
      simp [List.head?_eq_getElem?.symm]
    | succ p =>
      have hi' : js[p]? = some i := by simpa using hi
      rw [List.getElem?_cons_succ, ih _ hi', filter_eraseP, List.getElem?_drop, List.take_succ_cons,
        List.countP_cons]
      congr 2
      simp only [beq_iff_eq]
      omega

end Equal

/-! ## Similar texts -/

section Similar

/-- What is found so far is one of some texts with its score. -/
def Scored (text : String) (free : List Placed) (best : Option (Placed × Score)) : Prop :=
  ∀ t score, best = some (t, score) → t ∈ free ∧ score = Score.similarity text t.1.text

theorem scored_better {text : String} {free : List Placed} {best : Option (Placed × Score)} {t : Placed}
    (ht : t ∈ free) (h : Scored text free best) : Scored text free (better text best t) := by
  have hnew : Scored text free (some (t, Score.similarity text t.1.text)) := by
    intro u score hu
    obtain ⟨rfl, rfl⟩ := Prod.mk.inj (Option.some.inj hu)
    exact ⟨ht, rfl⟩
  unfold better
  dsimp only
  split
  · exact hnew
  · split
    · exact hnew
    · exact h

theorem mostSimilar?_scored (text : String) (free : List Placed) : Scored text free (mostSimilar? text free) := by
  have hfold (ts : List Placed) (best : Option (Placed × Score)) (hts : ∀ t ∈ ts, t ∈ free)
      (h : Scored text free best) : Scored text free (ts.foldl (better text) best) := by
    induction ts generalizing best with
    | nil => exact h
    | cons t ts ih =>
      exact ih _ (fun u hu => hts u (List.mem_cons_of_mem _ hu)) (scored_better (hts t (List.mem_cons_self ..)) h)
  exact hfold free none (fun t ht => ht) fun t score h => by cases h

variable (free : List Placed) (l : List (OutlineItem × Option Placed))

theorem length_takeSimilar : (takeSimilar free l).length = l.length := by
  induction l generalizing free with
  | nil => rfl
  | cons x l ih =>
    obtain ⟨i, _ | t⟩ := x
    · rw [takeSimilar]
      split
      · simp [ih]
      · split <;> simp [ih]
    · simp [takeSimilar, ih]

theorem map_equal?_takeSimilar : (takeSimilar free l).map equal? = l.map Prod.snd := by
  induction l generalizing free with
  | nil => rfl
  | cons x l ih =>
    obtain ⟨i, _ | t⟩ := x
    · rw [takeSimilar]
      split
      · simp [ih, equal?]
      · split <;> simp [ih, equal?]
    · simp [takeSimilar, ih, equal?]

theorem subperm_takeSimilar :
    ((takeSimilar free l).filterMap placed?).Subperm ((l.map Prod.snd).reduceOption ++ free) := by
  induction l generalizing free with
  | nil => exact List.nil_subperm
  | cons x l ih =>
    obtain ⟨i, _ | t⟩ := x
    · rw [takeSimilar, List.map_cons, List.reduceOption_cons_of_none]
      split
      · exact ih free
      · next t score hbest =>
        have ht : t ∈ free := (mostSimilar?_scored i.text free t score hbest).1
        split
        · have hsub : (t :: free.filter fun u => u.2 != t.2).Subperm free := by
            refine List.cons_subperm_of_not_mem_of_mem (fun hmem => ?_) ht (List.filter_sublist).subperm
            simpa using (List.mem_filter.1 hmem).2
          have hrest := (List.subperm_cons t).2 (ih (free.filter fun u => u.2 != t.2))
          exact (hrest.trans List.perm_middle.symm.subperm).trans ((List.subperm_append_left _).2 hsub)
        · exact ih free
    · rw [takeSimilar, List.map_cons, List.reduceOption_cons_of_some]
      exact (List.subperm_cons t).2 (ih free)

theorem forall₂_takeSimilar (hequal : ∀ x ∈ l, ∀ t, x.2 = some t → t.1.text = x.1.text)
    (hnone : ∀ x ∈ l, x.2 = none → ∀ t ∈ free, t.1.text ≠ x.1.text) :
    List.Forall₂ (fun x c => Fits x.1 c) l (takeSimilar free l) := by
  induction l generalizing free with
  | nil => exact .nil
  | cons x l ih =>
    have hequal' : ∀ x ∈ l, ∀ t, x.2 = some t → t.1.text = x.1.text := fun y hy =>
      hequal y (List.mem_cons_of_mem _ hy)
    have hnone' (rest : List Placed) (hrest : rest ⊆ free) :
        ∀ x ∈ l, x.2 = none → ∀ t ∈ rest, t.1.text ≠ x.1.text := fun y hy hyn t ht =>
      hnone y (List.mem_cons_of_mem _ hy) hyn t (hrest ht)
    obtain ⟨i, _ | t⟩ := x
    · -- texts only leave what is free, so none that is equal to the text of a later item comes back
      have hi := hnone _ (List.mem_cons_self ..) rfl
      rw [takeSimilar]
      split
      · exact .cons trivial (ih free hequal' (hnone' free (List.Subset.refl _)))
      · next t score hbest =>
        obtain ⟨ht, hscore⟩ := mostSimilar?_scored i.text free t score hbest
        split
        · next hless =>
          refine .cons ⟨hi t ht, hscore, hless⟩ (ih _ hequal' (hnone' _ ?_))
          exact List.filter_subset_self _
        · exact .cons trivial (ih free hequal' (hnone' free (List.Subset.refl _)))
    · rw [takeSimilar]
      exact .cons (hequal _ (List.mem_cons_self ..) t rfl) (ih free hequal' (hnone' free (List.Subset.refl _)))

end Similar

/-! ## Both rounds -/

section Both

variable (items : List OutlineItem) (records : List TextRecord)

theorem map_snd_zip_takeEqual (free : List Placed) :
    (items.zip (takeEqual free items).1).map Prod.snd = (takeEqual free items).1 :=
  List.map_snd_zip (Nat.le_of_eq (length_takeEqual free items))

theorem map_fst_zip_takeEqual (free : List Placed) : (items.zip (takeEqual free items).1).map Prod.fst = items :=
  List.map_fst_zip (Nat.le_of_eq (length_takeEqual free items).symm)

theorem length_ofItems : (ofItems items records).length = items.length := by
  have hfst := congrArg List.length (map_fst_zip_takeEqual items records.zipIdx)
  rw [ofItems, length_takeSimilar]
  rwa [List.length_map] at hfst

theorem map_equal?_ofItems : (ofItems items records).map equal? = (takeEqual records.zipIdx items).1 := by
  rw [ofItems, map_equal?_takeSimilar, map_snd_zip_takeEqual]

theorem subperm_ofItems : ((ofItems items records).filterMap placed?).Subperm records.zipIdx := by
  have hclaims := subperm_takeSimilar (takeEqual records.zipIdx items).2
    (items.zip (takeEqual records.zipIdx items).1)
  rw [map_snd_zip_takeEqual] at hclaims
  exact hclaims.trans (perm_takeEqual records.zipIdx items).subperm

theorem getElem?_of_placed? {c : Claim} {t : Placed} (hc : c ∈ ofItems items records) (ht : c.placed? = some t) :
    records[t.2]? = some t.1 :=
  List.mem_zipIdx_iff_getElem?.1 ((subperm_ofItems items records).subset (List.mem_filterMap.2 ⟨c, hc, ht⟩))

theorem nodup_position? : ((ofItems items records).filterMap position?).Nodup := by
  obtain ⟨ts, hperm, hsub⟩ := subperm_ofItems items records
  have hpositions : (ts.map Prod.snd).Nodup := by
    refine List.Nodup.sublist (hsub.map Prod.snd) ?_
    rw [List.zipIdx_map_snd]
    exact List.nodup_range'
  have hclaimed := (hperm.map Prod.snd).nodup_iff.1 hpositions
  rw [List.map_filterMap] at hclaimed
  simpa only [map_placed?] using hclaimed

theorem length_position?_le : ((ofItems items records).filterMap position?).length ≤ records.length := by
  have hlength := (subperm_ofItems items records).length_le
  rw [List.length_zipIdx] at hlength
  simp only [← map_placed?, ← List.map_filterMap, List.length_map]
  exact hlength

/-- Every claim suits its item. -/
theorem forall₂_fits : List.Forall₂ Fits items (ofItems items records) := by
  have hne := ne_of_takeEqual records.zipIdx items
  have hclaims := forall₂_takeSimilar (takeEqual records.zipIdx items).2
    (items.zip (takeEqual records.zipIdx items).1) (fun x hx t ht => ?_) fun x hx hn => ?_
  · rw [← List.forall₂_map_left_iff, map_fst_zip_takeEqual] at hclaims
    exact hclaims
  · have h := hne x hx
    rwa [ht] at h
  · have h := hne x hx
    rwa [hn] at h

/-- Of the items with one text, each claims the text of the design that is equal to it at its own place among
them. -/
theorem map_equal?_getElem?_ofItems {p : Nat} {i : OutlineItem} (hi : items[p]? = some i) :
    (ofItems items records)[p]?.map equal?
      = some ((records.zipIdx.filter fun t => t.1.text == i.text)[
          (items.take p).countP fun j => j.text == i.text]?) := by
  rw [← List.getElem?_map, map_equal?_ofItems, getElem?_takeEqual _ _ hi]

end Both

end Claim

end DesignCanvas
