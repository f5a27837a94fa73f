import DesignCanvas.Text.Case

/-!
# The lower case of a lower case

A text in lower case is its own lower case (`lower_lower`). What the table gives to the characters of a run are the
members of another run (`CaseRun.lowered`), and none of these runs meets a run of the table again
(`CaseRun.lowerIn_of_missesAll`). So every character of a text in lower case is left as it is wherever it stands
(`IsLower`), and it is no capital sigma, the only one that depends on its neighbours.
-/

namespace DesignCanvas.Text

/-! ## Runs of the table -/

namespace CaseRun

/-- The code point is one of the run. -/
def Has (r : CaseRun) (n : Nat) : Prop :=
  r.first ≤ n ∧ n ≤ r.last ∧ (n - r.first) % r.step = 0

instance (r : CaseRun) (n : Nat) : Decidable (r.Has n) :=
  inferInstanceAs (Decidable (r.first ≤ n ∧ n ≤ r.last ∧ (n - r.first) % r.step = 0))

/-- The run of the partners. -/
def lowered (r : CaseRun) : CaseRun :=
  { r with first := (r.first + r.shift).toNat, last := (r.last + r.shift).toNat, shift := 0 }

/-- Two runs have no member in common, since one of them ends before the other, or since every other code point is in
the second one and the first one lies between these. -/
def misses (r s : CaseRun) : Bool :=
  r.last.blt s.first || s.last.blt r.first ||
    (s.step == 2 && (r.step == 2 || r.first == r.last) && (r.first + s.first) % 2 == 1)

/-- A run has no member in common with any of some runs in ascending order. -/
def missesAll (r : CaseRun) : List CaseRun → Bool
  | [] => true
  | s :: runs => r.last.blt s.first || (r.misses s && r.missesAll runs)

variable {r s : CaseRun} {m n : Nat}

theorem apply?_eq (r : CaseRun) (n : Nat) : r.apply? n = if r.Has n then some (n + r.shift).toNat else none :=
  ite_congr (by simp [Has, and_assoc]) (fun _ => rfl) fun _ => rfl

theorem apply?_eq_some (h : r.apply? n = some m) : r.Has n ∧ m = (n + r.shift).toNat := by
  rw [apply?_eq, Option.ite_none_right_eq_some] at h
  exact ⟨h.1, (Option.some.inj h.2).symm⟩

theorem has_lowered (hshift : 0 ≤ r.first + r.shift) (h : r.Has n) : r.lowered.Has (n + r.shift).toNat := by
  obtain ⟨hfirst, hlast, hstep⟩ := h
  have hdist : (n + r.shift).toNat - (r.first + r.shift).toNat = n - r.first := by omega
  refine ⟨?_, ?_, ?_⟩
  · change (r.first + r.shift).toNat ≤ _
    omega
  · change _ ≤ (r.last + r.shift).toNat
    omega
  · change (_ - (r.first + r.shift).toNat) % r.step = 0
    rw [hdist, hstep]

theorem not_has_of_misses (h : r.misses s) (hn : r.Has n) : ¬ s.Has n := by
  rintro ⟨hfirst, hlast, hstep⟩
  obtain ⟨hfirst', hlast', hstep'⟩ := hn
  simp only [misses, Bool.or_eq_true, Bool.and_eq_true, beq_iff_eq, Nat.blt_eq] at h
  rcases h with (hbefore | hafter) | ⟨⟨htwo, hevery⟩, hodd⟩
  · omega
  · omega
  · rw [htwo] at hstep
    rcases hevery with htwo' | hone
    · rw [htwo'] at hstep'
      omega
    · omega

theorem lowerIn_of_missesAll {runs : List CaseRun} (h : r.missesAll runs) (hn : r.Has n) : lowerIn n runs = n := by
  induction runs with
  | nil => rfl
  | cons s runs ih =>
    rw [missesAll, Bool.or_eq_true, Nat.blt_eq, Bool.and_eq_true] at h
    rw [lowerIn]
    rcases h with hbefore | ⟨hmiss, hrest⟩
    · rw [if_pos (Nat.lt_of_le_of_lt hn.2.1 hbefore)]
    · have hnone : s.apply? n = none := by
        rw [apply?_eq, if_neg (not_has_of_misses hmiss hn)]
      rw [hnone, ih hrest, ite_self]

end CaseRun

theorem lowerIn_cases (n : Nat) (runs : List CaseRun) :
    lowerIn n runs = n ∨ ∃ r ∈ runs, r.Has n ∧ lowerIn n runs = (n + r.shift).toNat := by
  induction runs with
  | nil => exact Or.inl rfl
  | cons r runs ih =>
    rw [lowerIn]
    split
    · exact Or.inl rfl
    · cases hr : r.apply? n with
      | some m =>
        obtain ⟨hn, hm⟩ := CaseRun.apply?_eq_some hr
        exact Or.inr ⟨r, List.mem_cons_self .., hn, hm⟩
      | none =>
        refine ih.imp_right ?_
        rintro ⟨s, hs, hn⟩
        exact ⟨s, List.mem_cons_of_mem _ hs, hn⟩

/-- The dotted capital I, which is not in the table. -/
def dottedRun : CaseRun :=
  ⟨0x130, 0x130, 1, 0⟩

/-- No run of partners goes below zero, has the dotted capital I or meets a run of the table. -/
theorem lowerRuns_settled :
    ∀ r ∈ lowerRuns, 0 ≤ r.first + r.shift ∧ r.lowered.misses dottedRun ∧ r.lowered.missesAll lowerRuns := by
  decide +kernel

/-- What the table has given is left as it is, and it is not the dotted capital I unless that was there before. -/
theorem lowerIn_lowerIn (n : Nat) : lowerIn (lowerIn n lowerRuns) lowerRuns = lowerIn n lowerRuns ∧
    (lowerIn n lowerRuns = 0x130 → n = 0x130) := by
  rcases lowerIn_cases n lowerRuns with hsame | ⟨r, hr, hn, hm⟩
  · rw [hsame]
    exact ⟨hsame, id⟩
  · obtain ⟨hshift, hdotted, hall⟩ := lowerRuns_settled r hr
    have hpartner := CaseRun.has_lowered hshift hn
    rw [hm]
    refine ⟨CaseRun.lowerIn_of_missesAll hall hpartner, fun hI => ?_⟩
    rw [hI] at hpartner
    exact absurd (by decide : dottedRun.Has 0x130) (CaseRun.not_has_of_misses hdotted hpartner)

/-! ## Characters -/

/-- A character that is its own lower case, whatever its neighbours are. -/
def IsLower (c : Char) : Prop :=
  c ≠ 'Σ' ∧ lowerChar c = [c]

instance : DecidablePred IsLower :=
  fun c => inferInstanceAs (Decidable (c ≠ 'Σ' ∧ lowerChar c = [c]))

theorem isLower_of_lowerIn {c : Char} (hdotted : c ≠ 'İ') (h : lowerIn c.toNat lowerRuns = c.toNat) : IsLower c := by
  refine ⟨?_, ?_⟩
  · rintro rfl
    exact absurd h (by decide)
  · rw [lowerChar, if_neg hdotted, h, Char.ofNat_toNat]

theorem isLower_of_mem_lowerChar {c d : Char} (h : d ∈ lowerChar c) : IsLower d := by
  rw [lowerChar] at h
  split at h
  · obtain rfl | rfl : d = 'i' ∨ d = '\u0307' := by simpa using h
    · decide
    · decide
  · next hdotted =>
    obtain rfl := List.mem_singleton.1 h
    obtain ⟨hsame, hI⟩ := lowerIn_lowerIn c.toNat
    by_cases hvalid : (lowerIn c.toNat lowerRuns).isValidChar
    · have hnat : (Char.ofNat (lowerIn c.toNat lowerRuns)).toNat = lowerIn c.toNat lowerRuns := by
        rw [Char.ofNat, dif_pos hvalid]
        rfl
      refine isLower_of_lowerIn (fun heq => hdotted ?_) (by rw [hnat, hsame])
      have hn : c.toNat = 0x130 := hI (by rw [← hnat, heq]; rfl)
      rw [← Char.ofNat_toNat c, hn]
    · rw [Char.ofNat, dif_neg hvalid]
      decide

/-! ## Texts -/

theorem lowerAfter_eq_self {s : List Char} (h : ∀ c ∈ s, IsLower c) (before : List Char) : lowerAfter before s = s := by
  induction s generalizing before with
  | nil => rfl
  | cons c s ih =>
    obtain ⟨⟨hsigma, hc⟩, hs⟩ := List.forall_mem_cons.1 h
    rw [lowerAfter, if_neg hsigma, hc, ih hs]
    rfl

theorem isLower_of_mem_lowerAfter {before s : List Char} {c : Char} (h : c ∈ lowerAfter before s) : IsLower c := by
  induction s generalizing before with
  | nil => cases h
  | cons d s ih =>
    rw [lowerAfter, List.mem_append] at h
    rcases h with hhere | hrest
    · split at hhere
      · obtain rfl := List.mem_singleton.1 hhere
        split <;> decide
      · exact isLower_of_mem_lowerChar hhere
    · exact ih hrest

theorem lower_lower (s : List Char) : lower (lower s) = lower s :=
  lowerAfter_eq_self (fun _ hc => isLower_of_mem_lowerAfter hc) []

theorem lowered_lowered (s : String) : lowered (lowered s) = lowered s := by
  rw [lowered, lowered, String.toList_ofList, lower_lower]

end DesignCanvas.Text
