import DesignCanvas.Editor.Styles
import DesignCanvas.Proofs.Tree.Labels
import Mathlib.Data.List.Perm.Subperm
import Mathlib.Data.Nat.Count
import Mathlib.Tactic.Push

/-!
# Numbers for copies and styles

A search for a free number that may try one number more than there are names finds one (`exists_free`), because a
name ends in one number only (`serial_append_toString`). So the ids of a copy (`Editor.copyTaken_copyNumber`) and
the id of a style (`Editor.styleId_styleNumber`) are new to the document. Styles get the free numbers after their count
in order (`Editor.upcoming_addPaintStyle`).
-/

namespace DesignCanvas

/-! ## The search -/

theorem le_firstFree (taken : Nat → Bool) (tries n : Nat) : n ≤ firstFree taken tries n := by
  induction tries generalizing n with
  | zero => exact Nat.le_refl n
  | succ tries ih =>
    rw [firstFree]
    split
    · exact Nat.le_of_succ_le (ih (n + 1))
    · exact Nat.le_refl n

theorem firstFree_free {taken : Nat → Bool} {tries n k : Nat} (hn : n ≤ k) (hk : k ≤ n + tries)
    (hfree : taken k = false) : taken (firstFree taken tries n) = false := by
  induction tries generalizing n with
  | zero =>
    obtain rfl : k = n := by omega
    exact hfree
  | succ tries ih =>
    rw [firstFree]
    split
    · next htaken =>
      have hne : k ≠ n := fun h => by simp [← h, hfree] at htaken
      exact ih (by omega) (by omega)
    · next hnot => simpa using hnot

theorem taken_of_lt_firstFree {taken : Nat → Bool} {tries n k : Nat} (hn : n ≤ k)
    (hk : k < firstFree taken tries n) : taken k := by
  induction tries generalizing n with
  | zero =>
    rw [firstFree] at hk
    omega
  | succ tries ih =>
    rw [firstFree] at hk
    split at hk
    · next htaken =>
      by_cases hkn : k = n
      · rw [hkn, htaken]
      · exact ih (by omega) hk
    · omega

/-! ## The number that a name ends in -/

/-- The number that the digits at the end of a name write. -/
def serial (s : String) : Nat :=
  Nat.ofDigitChars 10 (s.toList.reverse.takeWhile Char.isDigit).reverse 0

theorem serial_append_toString {s : String} {c : Char} (n : Nat) (hs : s.toList.getLast? = some c)
    (hc : c.isDigit = false) : serial (s ++ toString n) = n := by
  obtain ⟨r, hr⟩ : ∃ r, s.toList.reverse = c :: r := by
    rw [← List.head?_reverse] at hs
    exact List.head?_eq_some_iff.1 hs
  have hdigits : ∀ d ∈ (Nat.toDigits 10 n).reverse, d.isDigit = true := fun d hd =>
    Nat.isDigit_of_mem_toDigits (by decide) (by decide) (List.mem_reverse.1 hd)
  have hlist : (s ++ toString n).toList.reverse = (Nat.toDigits 10 n).reverse ++ c :: r := by
    rw [String.toList_append, Nat.toString_eq_repr, Nat.toList_repr, List.reverse_append, hr]
  rw [serial, hlist, List.takeWhile_append_of_pos hdigits, List.takeWhile_cons_of_neg (by simp [hc]),
    List.append_nil, List.reverse_reverse, Nat.ofDigitChars_ten_toDigits]

/-- Among one number more than there are names there is one that no name ends in. -/
theorem exists_free {taken : Nat → Bool} {names : List String}
    (htaken : ∀ n, taken n → ∃ s ∈ names, serial s = n) (start : Nat) :
    ∃ n, start ≤ n ∧ n ≤ start + names.length ∧ taken n = false := by
  by_contra hnone
  push Not at hnone
  have hsub : List.range' start (names.length + 1) ⊆ names.map serial := by
    intro n hn
    obtain ⟨hlow, hhigh⟩ := List.mem_range'_1.1 hn
    have hn : taken n := by simpa using hnone n hlow (by omega)
    obtain ⟨s, hs, rfl⟩ := htaken n hn
    exact List.mem_map_of_mem hs
  have hlen := (List.subperm_of_subset List.nodup_range' hsub).length_le
  simp only [List.length_range', List.length_map] at hlen
  omega

theorem firstFree_of_names {taken : Nat → Bool} {names : List String}
    (htaken : ∀ n, taken n → ∃ s ∈ names, serial s = n) (start : Nat) :
    taken (firstFree taken names.length start) = false := by
  obtain ⟨n, hlow, hhigh, hfree⟩ := exists_free htaken start
  exact firstFree_free hlow hhigh hfree

theorem firstFree_le {taken : Nat → Bool} {names : List String}
    (htaken : ∀ n, taken n → ∃ s ∈ names, serial s = n) (tries start : Nat) :
    firstFree taken tries start ≤ start + names.length := by
  obtain ⟨n, hlow, hhigh, hfree⟩ := exists_free htaken start
  by_contra hlt
  have hpassed : n < firstFree taken tries start := by omega
  have hn : taken n := taken_of_lt_firstFree hlow hpassed
  rw [hfree] at hn
  cases hn

/-! ## Copies and styles -/

theorem copySuffix_eq (n : Nat) : copySuffix n = "-copy-" ++ toString n := rfl

theorem serial_copy (id : String) (n : Nat) : serial (id ++ copySuffix n) = n := by
  rw [copySuffix_eq, ← String.append_assoc]
  exact serial_append_toString (c := '-') n (by simp) (by decide)

theorem serial_styleId (n : Nat) : serial (styleId n) = n := by
  have h : styleId n = "S:" ++ toString n := rfl
  rw [h]
  exact serial_append_toString (c := ':') n (by simp) (by decide)

theorem Style.serial_of_taken (styles : List Style) (n : Nat) (h : styles.any fun s => s.id == styleId n) :
    ∃ s ∈ styles.map Style.id, serial s = n := by
  obtain ⟨s, hs, hid⟩ := List.any_eq_true.1 h
  refine ⟨s.id, List.mem_map_of_mem hs, ?_⟩
  rw [beq_iff_eq.1 hid, serial_styleId]

namespace Editor

variable {e : Editor} {ids : List String}

theorem serial_of_copyTaken (e : Editor) (ids : List String) (n : Nat) (h : e.copyTaken ids n) :
    ∃ s ∈ e.document.attributes.map Attributes.id, serial s = n := by
  obtain ⟨id, -, hid⟩ := List.any_eq_true.1 h
  obtain ⟨a, ha, hida⟩ := Forest.find?_isSome.1 hid
  refine ⟨a.id, List.mem_map_of_mem ha, ?_⟩
  rw [beq_iff_eq.1 hida, serial_copy]

theorem copyTaken_copyNumber (e : Editor) (ids : List String) : e.copyTaken ids (e.copyNumber ids) = false := by
  simpa [copyNumber] using firstFree_of_names (e.serial_of_copyTaken ids) (e.copies + 1)

theorem styleId_styleNumber (e : Editor) : ∀ s ∈ e.document.styles, s.id ≠ styleId e.styleNumber := by
  have hfree := firstFree_of_names (Style.serial_of_taken e.document.styles) (e.document.styles.length + 1)
  simpa [styleNumber] using hfree

end Editor

/-! ## The next styles -/

/-- A number for a new style: it comes after the count of styles, and no style has its id. -/
def Style.Free (styles : List Style) (n : Nat) : Prop :=
  styles.length < n ∧ ∀ s ∈ styles, s.id ≠ styleId n

instance (styles : List Style) : DecidablePred (Style.Free styles) :=
  fun n => inferInstanceAs (Decidable (styles.length < n ∧ ∀ s ∈ styles, s.id ≠ styleId n))

/-- One of the numbers for the next `k` styles: it is free, and fewer than `k` smaller ones are. -/
def Style.Upcoming (styles : List Style) (k n : Nat) : Prop :=
  Free styles n ∧ Nat.count (Free styles) n < k

theorem styleId_inj {m n : Nat} : styleId m = styleId n ↔ m = n := by
  refine ⟨fun h => ?_, congrArg styleId⟩
  rw [← serial_styleId m, h, serial_styleId]

namespace Editor

variable {e : Editor} {name : String} {c : Color} {n : Nat}

theorem free_styleNumber (e : Editor) : Style.Free e.document.styles e.styleNumber :=
  ⟨le_firstFree _ _ _, e.styleId_styleNumber⟩

theorem styleNumber_le (h : Style.Free e.document.styles n) : e.styleNumber ≤ n := by
  by_contra hlt
  have htaken := taken_of_lt_firstFree h.1 (Nat.lt_of_not_le hlt)
  obtain ⟨s, hs, hid⟩ := List.any_eq_true.1 htaken
  exact h.2 s hs (beq_iff_eq.1 hid)

theorem styles_addPaintStyle (e : Editor) (name : String) (c : Color) :
    (e.addPaintStyle name c).1.document.styles = e.document.styles ++ [(e.addPaintStyle name c).2] := rfl

theorem id_addPaintStyle (e : Editor) (name : String) (c : Color) :
    (e.addPaintStyle name c).2.id = styleId e.styleNumber := rfl

theorem free_addPaintStyle : Style.Free (e.addPaintStyle name c).1.document.styles n ↔
    Style.Free e.document.styles n ∧ n ≠ e.styleNumber := by
  rw [styles_addPaintStyle, Style.Free, List.length_append, List.length_singleton, List.forall_mem_append,
    List.forall_mem_singleton, id_addPaintStyle, ne_eq (styleId _), styleId_inj, eq_comm]
  constructor
  · rintro ⟨hlt, hall, hne⟩
    exact ⟨⟨Nat.lt_of_succ_lt hlt, hall⟩, hne⟩
  · rintro ⟨hfree, hne⟩
    -- it comes after the number of the next style, which comes after the count
    have hle := styleNumber_le hfree
    have hlt := e.free_styleNumber.1
    exact ⟨by omega, hfree.2, hne⟩

theorem count_free_styleNumber (e : Editor) : Nat.count (Style.Free e.document.styles) e.styleNumber = 0 :=
  Nat.count_iff_forall_not.2 fun _ hlt hfree => Nat.not_le.2 hlt (styleNumber_le hfree)

theorem count_free_addPaintStyle (h : e.styleNumber < n) : Nat.count (Style.Free e.document.styles) n =
    Nat.count (Style.Free (e.addPaintStyle name c).1.document.styles) n + 1 := by
  have hmem : e.styleNumber ∈ (Finset.range n).filter (Style.Free e.document.styles) :=
    Finset.mem_filter.2 ⟨Finset.mem_range.2 h, e.free_styleNumber⟩
  have herase : (Finset.range n).filter (Style.Free (e.addPaintStyle name c).1.document.styles) =
      ((Finset.range n).filter (Style.Free e.document.styles)).erase e.styleNumber := by
    ext m
    simp only [Finset.mem_filter, Finset.mem_erase, free_addPaintStyle]
    tauto
  rw [Nat.count_eq_card_filter_range, Nat.count_eq_card_filter_range, herase, Finset.card_erase_add_one hmem]

theorem upcoming_addPaintStyle (name : String) (c : Color) {k : Nat} : Style.Upcoming e.document.styles (k + 1) n ↔
    n = e.styleNumber ∨ Style.Upcoming (e.addPaintStyle name c).1.document.styles k n := by
  rw [Style.Upcoming, Style.Upcoming, free_addPaintStyle]
  by_cases hn : n = e.styleNumber
  · simp [hn, e.count_free_styleNumber, e.free_styleNumber]
  · rw [and_iff_left hn, or_iff_right hn]
    refine and_congr_right fun hfree => ?_
    rw [count_free_addPaintStyle (Nat.lt_of_le_of_ne (styleNumber_le hfree) (Ne.symm hn))]
    exact Nat.add_lt_add_iff_right

end Editor

end DesignCanvas
