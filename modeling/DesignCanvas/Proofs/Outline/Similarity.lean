import DesignCanvas.Outline.Score
import DesignCanvas.Proofs.Text.Search
import Mathlib.Algebra.Order.Field.Rat
import Mathlib.Data.Finset.Card
import Mathlib.Tactic.NormNum

/-!
# Similarity as a rational number

The score of two texts stands for a rational number (`Score.value_similarity`): four fifths if one of them has the
other in it, and else the share of the common characters in all of them. Its denominator is never zero, so comparing
scores is comparing these numbers (`Score.less_iff`).
-/

namespace DesignCanvas

/-- How alike two texts are, whatever the case of their letters. -/
def likeness (a b : String) : ℚ :=
  let s := Text.lower a.toList
  let t := Text.lower b.toList
  if s <:+: t ∨ t <:+: s then 4 / 5
  else (s.toFinset ∩ t.toFinset).card / (s.toFinset ∪ t.toFinset).card

namespace Score

/-- The number that a score stands for. -/
def value (s : Score) : ℚ :=
  s.num / s.den

theorem less_iff {a b : Score} (ha : 0 < a.den) (hb : 0 < b.den) : a.less b ↔ a.value < b.value := by
  have ha' : (0 : ℚ) < a.den := by exact_mod_cast ha
  have hb' : (0 : ℚ) < b.den := by exact_mod_cast hb
  rw [less, decide_eq_true_eq, value, value, div_lt_div_iff₀ ha' hb']
  exact_mod_cast Iff.rfl

/-! ## Shared characters -/

theorem nodup_eraseDups (s : List Char) : s.eraseDups.Nodup := by
  induction hn : s.length using Nat.strongRecOn generalizing s with
  | ind n ih =>
    cases s with
    | nil => simp
    | cons c s =>
      rw [List.eraseDups_cons, List.nodup_cons, List.mem_eraseDups]
      refine ⟨by simp, ih _ ?_ _ rfl⟩
      rw [← hn, List.length_cons]
      exact Nat.lt_succ_of_le (List.length_filter_le _ _)

theorem length_eraseDups (s : List Char) : s.eraseDups.length = s.toFinset.card := by
  rw [← List.toFinset_card_of_nodup (nodup_eraseDups s)]
  congr 1
  ext c
  simp

theorem length_common (s t : List Char) :
    (s.eraseDups.filter fun c => t.eraseDups.contains c).length = (s.toFinset ∩ t.toFinset).card := by
  rw [← List.toFinset_card_of_nodup ((nodup_eraseDups s).filter _)]
  congr 1
  ext c
  simp

theorem shared_num (s t : List Char) : (shared s t).num = (s.toFinset ∩ t.toFinset).card :=
  length_common s t

theorem shared_den (s t : List Char) : (shared s t).den = (s.toFinset ∪ t.toFinset).card := by
  rw [Finset.card_union, ← length_eraseDups, ← length_eraseDups, ← length_common]
  rfl

/-! ## Scores of texts -/

theorem ofLowered_eq (s t : List Char) :
    ofLowered s t = if s <:+: t ∨ t <:+: s then containment else shared s t := by
  rw [ofLowered]
  congr 1
  rw [Bool.or_eq_true, Text.contains_iff, Text.contains_iff, Or.comm]

theorem similarity_den_pos (a b : String) : 0 < (similarity a b).den := by
  rw [similarity, ofLowered_eq]
  split
  · decide
  · next hpart =>
    rw [shared_den, Finset.card_pos]
    obtain ⟨c, hc⟩ := List.exists_mem_of_ne_nil (Text.lower a.toList) fun hnil =>
      hpart (Or.inl (hnil ▸ List.nil_infix))
    exact ⟨c, Finset.mem_union_left _ (List.mem_toFinset.2 hc)⟩

theorem value_similarity (a b : String) : (similarity a b).value = likeness a b := by
  rw [similarity, ofLowered_eq, likeness]
  split
  · norm_num [containment, value]
  · rw [value, shared_num, shared_den]

theorem less_similarity_iff (a b c d : String) :
    (similarity a b).less (similarity c d) ↔ likeness a b < likeness c d := by
  rw [less_iff (similarity_den_pos a b) (similarity_den_pos c d), value_similarity, value_similarity]

theorem threshold_less_iff (a b : String) : threshold.less (similarity a b) ↔ 3 / 10 < likeness a b := by
  have hthreshold : threshold.value = 3 / 10 := by norm_num [threshold, value]
  rw [less_iff (by decide) (similarity_den_pos a b), value_similarity, hthreshold]

end Score

end DesignCanvas
