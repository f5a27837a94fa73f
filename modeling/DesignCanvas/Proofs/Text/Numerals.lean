import DesignCanvas.Proofs.Text.Pattern

/-!
# Numerals

The value of a run of decimal digits of any script. A run of plain digits is read as this value (`plainNat?_eq_some`,
`plainInt?_eq_some`), and a run with any other digit in it as none (`plainNat?_eq_none`, `plainInt?_eq_none`). The
digits of a number have the number as their value (`value_toDigits`, `signedValue_repr`).
-/

namespace DesignCanvas.Text

variable {run rest : List Char} {c : Char}

/-- The value of a decimal digit. The digits of a script lie in a row from zero to nine, and so may those of scripts
that are next to each other. -/
def numeral (c : Char) : Nat :=
  match digitRanges.find? fun r => r.1 ≤ c.toNat && c.toNat ≤ r.2 with
  | some r => (c.toNat - r.1) % 10
  | none => 0

/-- The value of a run of decimal digits. -/
def value (run : List Char) : Nat :=
  run.foldl (fun n c => 10 * n + numeral c) 0

/-- The value of a run of decimal digits with a minus sign in front of it or without. -/
def signedValue : List Char → Int
  | '-' :: run => -(value run : Int)
  | run => (value run : Int)

example : [numeral '7', numeral '٣', numeral '５', numeral '𝟖', numeral '𑛛'] = [7, 3, 5, 8, 1] := by decide

/-- All digits of a run are plain. -/
def IsPlain (run : List Char) : Prop :=
  ∀ c ∈ run, isDigit c → isPlainDigit c

instance (run : List Char) : Decidable (IsPlain run) :=
  List.decidableBAll (fun c => isDigit c → isPlainDigit c) run

/-! ## Digits -/

theorem toNat_of_isPlainDigit (h : isPlainDigit c) : 48 ≤ c.toNat ∧ c.toNat ≤ 57 := by
  obtain ⟨hlow, hhigh⟩ := Bool.and_eq_true_iff.1 h
  exact ⟨UInt32.le_iff_toNat_le.1 (of_decide_eq_true hlow), UInt32.le_iff_toNat_le.1 (of_decide_eq_true hhigh)⟩

theorem isDigit_of_isPlainDigit (h : isPlainDigit c) : isDigit c := by
  obtain ⟨hlow, hhigh⟩ := toNat_of_isPlainDigit h
  rw [isDigit, digitRanges, inRanges, if_neg (by omega), decide_eq_true hhigh, Bool.true_or]

theorem numeral_of_isPlainDigit (h : isPlainDigit c) : numeral c = digitValue c := by
  obtain ⟨hlow, hhigh⟩ := toNat_of_isPlainDigit h
  rw [numeral, digitRanges, List.find?_cons_of_pos (by simp [hlow, hhigh])]
  exact Nat.mod_eq_of_lt (by omega)

theorem not_isDigit_of_isBlank (h : isBlank c) : ¬ isDigit c := by
  have hnot : ∀ n ∈ blankPoints, ¬ inRanges n digitRanges := by decide +kernel
  exact hnot _ (toNat_mem_blankPoints h)

def plainDigits : List Char :=
  "0123456789".toList

theorem mem_plainDigits (h : isPlainDigit c) : c ∈ plainDigits := by
  obtain ⟨hlow, hhigh⟩ := toNat_of_isPlainDigit h
  have hall : ∀ n ∈ List.range' 48 10, Char.ofNat n ∈ plainDigits := by decide
  have hmem := hall c.toNat (List.mem_range'_1.2 ⟨hlow, by omega⟩)
  rwa [Char.ofNat_toNat] at hmem

/-! ## Plain runs -/

theorem foldl_numeral (h : ∀ c ∈ run, isPlainDigit c) (n : Nat) :
    run.foldl (fun n c => 10 * n + numeral c) n = plainValueFrom n run := by
  induction run generalizing n with
  | nil => rfl
  | cons c run ih =>
    obtain ⟨hc, hrun⟩ := List.forall_mem_cons.1 h
    rw [List.foldl_cons, numeral_of_isPlainDigit hc, ih hrun]
    rfl

theorem le_plainValueFrom (acc : Nat) (run : List Char) : acc ≤ plainValueFrom acc run := by
  induction run generalizing acc with
  | nil => exact Nat.le_refl acc
  | cons c run ih => exact le_trans (by omega) (ih (10 * acc + digitValue c))

theorem plainNat?_eq_some (hrun : IsRun run rest) (h : IsPlain run) : plainNat? run = some (value run) := by
  have hplain : ∀ c ∈ run, isPlainDigit c := fun c hc => h c hc (hrun.digits c hc)
  have hguard : (!run.isEmpty && run.all isPlainDigit) = true := by
    simpa [hrun.nonempty] using hplain
  rw [plainNat?, if_pos hguard, value, foldl_numeral hplain]

theorem plainNat?_eq_none (h : ¬ IsPlain run) : plainNat? run = none := by
  have hguard : ¬ (!run.isEmpty && run.all isPlainDigit) = true := by
    intro hguard
    exact h fun c hc _ => List.all_eq_true.1 (Bool.and_eq_true_iff.1 hguard).2 c hc
  rw [plainNat?, if_neg hguard]

theorem isPlain_cons_minus : IsPlain ('-' :: run) ↔ IsPlain run := by
  unfold IsPlain
  rw [List.forall_mem_cons]
  exact and_iff_right fun h => absurd h (by decide)

theorem signedValue_digits (hrun : IsRun run rest) : signedValue run = value run := by
  obtain ⟨c, run, rfl⟩ := List.exists_cons_of_ne_nil hrun.nonempty
  rw [signedValue]
  exact fun t ht => isDigit_ne '-' (by decide) (hrun.digits c List.mem_cons_self) (List.cons.inj ht).1

theorem plainInt?_digits (hrun : IsRun run rest) : plainInt? run = (plainNat? run).map fun n => (n : Int) := by
  obtain ⟨c, run, rfl⟩ := List.exists_cons_of_ne_nil hrun.nonempty
  rw [plainInt?]
  exact fun t ht => isDigit_ne '-' (by decide) (hrun.digits c List.mem_cons_self) (List.cons.inj ht).1

theorem plainInt?_eq_some (hrun : IsSigned run rest) (h : IsPlain run) : plainInt? run = some (signedValue run) := by
  obtain ⟨digits, rfl | rfl, hdigits⟩ := hrun
  · rw [plainInt?_digits hdigits, plainNat?_eq_some hdigits h, signedValue_digits hdigits]
    rfl
  · rw [plainInt?, plainNat?_eq_some hdigits (isPlain_cons_minus.1 h)]
    rfl

theorem plainInt?_eq_none (hrun : IsSigned run rest) (h : ¬ IsPlain run) : plainInt? run = none := by
  obtain ⟨digits, rfl | rfl, hdigits⟩ := hrun
  · rw [plainInt?_digits hdigits, plainNat?_eq_none h]
    rfl
  · rw [plainInt?, plainNat?_eq_none fun hplain => h (isPlain_cons_minus.2 hplain)]
    rfl

/-! ## Written numbers -/

theorem isPlainDigit_toDigits {n : Nat} : ∀ c ∈ Nat.toDigits 10 n, isPlainDigit c :=
  fun _ => Nat.isDigit_of_mem_toDigits (by decide) (by decide)

theorem isPlain_toDigits (n : Nat) : IsPlain (Nat.toDigits 10 n) :=
  fun c hc _ => isPlainDigit_toDigits c hc

theorem isRun_toDigits (n : Nat) (hrest : ∀ c ∈ rest.head?, ¬ isDigit c) : IsRun (Nat.toDigits 10 n) rest :=
  ⟨Nat.toDigits_ne_nil, fun c hc => isDigit_of_isPlainDigit (isPlainDigit_toDigits c hc), hrest⟩

theorem isRun_toDigits_nil (n : Nat) : IsRun (Nat.toDigits 10 n) [] :=
  isRun_toDigits n (by simp)

theorem value_toDigits (n : Nat) : value (Nat.toDigits 10 n) = n := by
  have hfold : plainValueFrom 0 (Nat.toDigits 10 n) = Nat.ofDigitChars 10 (Nat.toDigits 10 n) 0 := by
    rw [Nat.ofDigitChars_eq_foldl]
    generalize Nat.toDigits 10 n = run
    generalize 0 = m
    induction run generalizing m with
    | nil => rfl
    | cons c run ih => exact ih _
  rw [value, foldl_numeral isPlainDigit_toDigits, hfold, Nat.ofDigitChars_ten_toDigits]

theorem plainValueFrom_toDigits (n : Nat) : plainValueFrom 0 (Nat.toDigits 10 n) = n := by
  rw [← foldl_numeral isPlainDigit_toDigits]
  exact value_toDigits n

theorem eq_zero_of_head?_toDigits {n : Nat} (h : (Nat.toDigits 10 n).head? = some '0') : n = 0 := by
  induction n using Nat.strongRecOn with
  | ind n ih =>
    by_cases hn : n < 10
    · have hdigit : ∀ n < 10, (Nat.toDigits 10 n).head? = some '0' → n = 0 := by decide
      exact hdigit n hn h
    · rw [Nat.toDigits_of_base_le (by decide) (by omega), List.head?_append_of_ne_nil _ Nat.toDigits_ne_nil] at h
      have htens : n / 10 = 0 := ih (n / 10) (by omega) h
      omega

theorem isSigned_repr (i : Int) (hrest : ∀ c ∈ rest.head?, ¬ isDigit c) : IsSigned i.repr.toList rest := by
  cases i with
  | ofNat n => exact ⟨_, Or.inl Nat.toList_repr, isRun_toDigits n hrest⟩
  | negSucc n =>
    refine ⟨_, Or.inr ?_, isRun_toDigits n.succ hrest⟩
    rw [Int.repr, String.toList_append, Nat.toList_repr]
    rfl

theorem isSigned_repr_nil (i : Int) : IsSigned i.repr.toList [] :=
  isSigned_repr i (by simp)

theorem isPlain_repr (i : Int) : IsPlain i.repr.toList := by
  cases i with
  | ofNat n => exact Nat.toList_repr ▸ isPlain_toDigits n
  | negSucc n =>
    rw [Int.repr, String.toList_append, Nat.toList_repr]
    exact isPlain_cons_minus.2 (isPlain_toDigits n.succ)

theorem signedValue_repr (i : Int) : signedValue i.repr.toList = i := by
  cases i with
  | ofNat n =>
    rw [Int.repr, Nat.toList_repr, signedValue_digits (isRun_toDigits_nil n), value_toDigits]
    rfl
  | negSucc n =>
    have hlist : (Int.negSucc n).repr.toList = '-' :: Nat.toDigits 10 n.succ := by
      rw [Int.repr, String.toList_append, Nat.toList_repr]
      rfl
    rw [hlist, signedValue, value_toDigits]
    rfl

end DesignCanvas.Text
