import DesignCanvas.Text.Search
import Mathlib.Data.List.Infix

/-!
# Occurrences

A text has another one in it if that is an infix of it (`contains_iff`). Replacing the first occurrence keeps what is
before and after it, and no occurrence begins earlier (`replaceFirst_replaced`).
-/

namespace DesignCanvas.Text

variable {search replacement s : List Char}

theorem contains_iff {needle s : List Char} : contains needle s ↔ needle <:+: s := by
  induction s with
  | nil => simp [contains]
  | cons c s ih => rw [contains, List.infix_cons_iff, Bool.or_eq_true, List.isPrefixOf_iff_prefix, ih]

/-- The second text is the first one with the first occurrence of `search` replaced. -/
def Replaced (search replacement s t : List Char) : Prop :=
  ∃ before after, s = before ++ search ++ after ∧ t = before ++ replacement ++ after ∧
    ∀ n < before.length, ¬ search <+: s.drop n

/-- What has `search` in it has the first occurrence replaced. -/
theorem replaceFirst_replaced (replacement : List Char) (h : search <:+: s) :
    Replaced search replacement s (replaceFirst search replacement s) := by
  induction s with
  | nil =>
    obtain rfl := List.infix_nil.1 h
    exact ⟨[], [], rfl, by simp [replaceFirst], by simp⟩
  | cons c s ih =>
    rw [replaceFirst]
    by_cases hfirst : search <+: c :: s
    · rw [if_pos (List.isPrefixOf_iff_prefix.2 hfirst)]
      obtain ⟨after, hafter⟩ := hfirst
      exact ⟨[], after, by simpa using hafter.symm, by simp [← hafter], by simp⟩
    · rw [if_neg (by rwa [List.isPrefixOf_iff_prefix])]
      have hrest : search <:+: s := (List.infix_cons_iff.1 h).resolve_left hfirst
      obtain ⟨before, after, hs, ht, hnone⟩ := ih hrest
      refine ⟨c :: before, after, by simp [hs], by simp [ht], fun n hn => ?_⟩
      cases n with
      | zero => exact hfirst
      | succ n => exact hnone n (by simpa using hn)

end DesignCanvas.Text
