import DesignCanvas.Text.Blank
import Mathlib.Data.List.DropRight
import Mathlib.Data.List.Infix

/-!
# Blanks

The blanks are finitely many (`toNat_mem_blankPoints`). A text is trimmed if it neither begins nor ends with one
(`trim_eq_self_iff`). Trimming gives such a text (`trim_trim`), whatever blanks surround it (`trim_surrounded`), and
does not reach past a character that is no blank (`trim_append_cons`).
-/

namespace DesignCanvas.Text

variable {s : List Char} {c : Char}

def blankPoints : List Nat :=
  List.range' 9 5 ++ [0x20, 0x85, 0xA0, 0x1680] ++ List.range' 0x2000 11 ++ [0x2028, 0x2029, 0x202F, 0x205F, 0x3000]

theorem toNat_mem_blankPoints (h : isBlank c) : c.toNat ∈ blankPoints := by
  simp only [isBlank, Bool.or_eq_true, Bool.and_eq_true, decide_eq_true_eq, beq_iff_eq] at h
  simp only [blankPoints, List.mem_append, List.mem_range'_1, List.mem_cons, List.not_mem_nil, or_false]
  omega

theorem trimStart_isSuffix (s : List Char) : trimStart s <:+ s :=
  List.dropWhile_suffix isBlank

theorem trimEnd_isPrefix (s : List Char) : trimEnd s <+: s :=
  List.rdropWhile_prefix isBlank s

theorem trim_isInfix (s : List Char) : trim s <:+: s :=
  (trimEnd_isPrefix _).isInfix.trans (trimStart_isSuffix s).isInfix

/-! ## Where trimming stops -/

theorem trimStart_append (h : ∀ c ∈ s, isBlank c) (t : List Char) : trimStart (s ++ t) = trimStart t :=
  List.dropWhile_append_of_pos h

theorem trimEnd_append (h : ∀ c ∈ s, isBlank c) (t : List Char) : trimEnd (t ++ s) = trimEnd t := by
  rw [trimEnd, List.reverse_append, List.dropWhile_append_of_pos fun c hc => h c (List.mem_reverse.1 hc)]
  rfl

theorem trimStart_append_cons (hc : ¬ isBlank c) (x y : List Char) :
    trimStart (x ++ c :: y) = trimStart x ++ c :: y := by
  induction x with
  | nil => exact List.dropWhile_cons_of_neg hc
  | cons d x ih =>
    by_cases hd : isBlank d
    · rw [List.cons_append, trimStart, List.dropWhile_cons_of_pos hd, trimStart, List.dropWhile_cons_of_pos hd]
      exact ih
    · rw [List.cons_append, trimStart, List.dropWhile_cons_of_neg hd, trimStart, List.dropWhile_cons_of_neg hd]
      rfl

theorem trimEnd_append_cons (hc : ¬ isBlank c) (x y : List Char) :
    trimEnd (x ++ c :: y) = x ++ c :: trimEnd y := by
  have hreverse : (x ++ c :: y).reverse = y.reverse ++ c :: x.reverse := by simp
  rw [trimEnd, hreverse, ← trimStart, trimStart_append_cons hc]
  simp [trimEnd, trimStart]

theorem trim_append_cons (hc : ¬ isBlank c) (x y : List Char) :
    trim (x ++ c :: y) = trimStart x ++ c :: trimEnd y := by
  rw [trim, trimStart_append_cons hc, trimEnd_append_cons hc]

theorem trim_surrounded {a b : List Char} (ha : ∀ c ∈ a, isBlank c) (hb : ∀ c ∈ b, isBlank c) (s : List Char) :
    trim (a ++ s ++ b) = trim s := by
  rw [trim, List.append_assoc, trimStart_append ha]
  by_cases hs : ∀ c ∈ s, isBlank c
  · have hnil : trimStart s = [] := List.dropWhile_eq_nil_iff.2 hs
    have hblank : trimStart b = [] := List.dropWhile_eq_nil_iff.2 hb
    rw [trimStart_append hs, hblank, trim, hnil]
  · obtain ⟨c, hc, hblank⟩ := not_forall₂.1 hs
    obtain ⟨x, y, rfl⟩ := List.append_of_mem hc
    rw [List.append_assoc, List.cons_append, trimStart_append_cons hblank, trimEnd_append_cons hblank,
      trimEnd_append hb, trim_append_cons hblank]

theorem trim_eq_nil_iff : trim s = [] ↔ ∀ c ∈ s, isBlank c := by
  constructor
  · intro h
    by_contra hs
    obtain ⟨c, hc, hblank⟩ := not_forall₂.1 hs
    obtain ⟨x, y, rfl⟩ := List.append_of_mem hc
    rw [trim_append_cons hblank] at h
    exact absurd h (by simp)
  · intro h
    have hnil : trimStart s = [] := List.dropWhile_eq_nil_iff.2 h
    rw [trim, hnil]
    rfl

/-! ## Trimmed texts -/

theorem trimStart_eq_self_iff : trimStart s = s ↔ ∀ c ∈ s.head?, ¬ isBlank c := by
  cases s with
  | nil => exact iff_of_true rfl (by simp)
  | cons c s => simp [trimStart, List.dropWhile_eq_self_iff]

theorem trimEnd_eq_self_iff : trimEnd s = s ↔ ∀ c ∈ s.getLast?, ¬ isBlank c := by
  rw [← List.head?_reverse, ← trimStart_eq_self_iff, ← List.reverse_inj, trimEnd, List.reverse_reverse]
  rfl

theorem trim_eq_self_iff : trim s = s ↔ (∀ c ∈ s.head?, ¬ isBlank c) ∧ ∀ c ∈ s.getLast?, ¬ isBlank c := by
  rw [← trimStart_eq_self_iff, ← trimEnd_eq_self_iff]
  refine ⟨fun h => ?_, fun ⟨hstart, hend⟩ => by rw [trim, hstart, hend]⟩
  have hle : s.length ≤ (trimStart s).length := by
    have hle := (trimEnd_isPrefix (trimStart s)).length_le
    rwa [← trim, h] at hle
  have hstart : trimStart s = s := (trimStart_isSuffix s).eq_of_length_le hle
  rw [trim, hstart] at h
  exact ⟨hstart, h⟩

theorem trim_append_eq_self {t : List Char} (hs : s ≠ []) (ht : t ≠ []) (hstart : ∀ c ∈ s.head?, ¬ isBlank c)
    (hend : ∀ c ∈ t.getLast?, ¬ isBlank c) : trim (s ++ t) = s ++ t := by
  rw [trim_eq_self_iff, List.head?_append_of_ne_nil s hs, List.getLast?_append_of_ne_nil s ht]
  exact ⟨hstart, hend⟩

theorem trim_trimStart (s : List Char) : trim (trimStart s) = trim s := by
  rw [trim, trimStart, trimStart, List.dropWhile_idempotent]
  rfl

theorem trim_trimEnd (s : List Char) : trim (trimEnd s) = trim s := by
  by_cases hs : ∀ c ∈ s, isBlank c
  · have hnil : trimEnd s = [] := (List.rdropWhile_eq_nil_iff).2 hs
    rw [trim_eq_nil_iff.2 hs, hnil]
    rfl
  · obtain ⟨c, hc, hblank⟩ := not_forall₂.1 hs
    obtain ⟨x, y, rfl⟩ := List.append_of_mem hc
    have hend : trimEnd (trimEnd y) = trimEnd y := List.rdropWhile_idempotent isBlank y
    rw [trimEnd_append_cons hblank, trim_append_cons hblank, trim_append_cons hblank, hend]

theorem trim_trim (s : List Char) : trim (trim s) = trim s :=
  (trim_trimEnd (trimStart s)).trans (trim_trimStart s)

end DesignCanvas.Text
