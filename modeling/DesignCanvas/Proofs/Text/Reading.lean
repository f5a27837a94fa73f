import DesignCanvas.Text.Case
import DesignCanvas.Text.Search
import DesignCanvas.Proofs.Text.Blank

/-!
# Pieces and lower case

A text has one piece more than it has marks (`length_splitAt`), and lines that are written one below the other are read
back (`lines_flatMap`). The lower case of a part is found in the lower case of the text if there is no capital sigma in
the part (`flatMap_lowerChar_infix`). Every text that is more than blanks has a character whose lower case by itself is
found in the lower case of the text (`exists_lower_infix`); for a capital sigma this has to be the first one, which is
not at the end of a word.
-/

namespace DesignCanvas.Text

/-! ## Pieces and lines -/

theorem splitAt_ne_nil (mark : Char) (s : List Char) : splitAt mark s ≠ [] := by
  cases s with
  | nil => nofun
  | cons c s =>
    rw [splitAt]
    split
    · nofun
    · cases splitAt mark s <;> nofun

theorem splitAt_of_notMem {mark : Char} {s : List Char} (hs : mark ∉ s) : splitAt mark s = [s] := by
  induction s with
  | nil => rfl
  | cons c s ih =>
    rw [List.mem_cons, not_or] at hs
    rw [splitAt, if_neg (Ne.symm hs.1), ih hs.2]
    rfl

theorem splitAt_append_cons (mark : Char) (s t : List Char) :
    splitAt mark (s ++ mark :: t) = splitAt mark s ++ splitAt mark t := by
  induction s with
  | nil => rw [splitAt, List.nil_append, splitAt, if_pos rfl, List.singleton_append]
  | cons c s ih =>
    rw [List.cons_append, splitAt, splitAt, ih]
    split
    · rfl
    · obtain ⟨p, ps, hps⟩ := List.exists_cons_of_ne_nil (splitAt_ne_nil mark s)
      rw [hps]
      rfl

theorem splitAt_append {mark : Char} {s : List Char} (hs : mark ∉ s) (t : List Char) :
    splitAt mark (s ++ mark :: t) = s :: splitAt mark t := by
  rw [splitAt_append_cons, splitAt_of_notMem hs, List.singleton_append]

theorem length_splitAt (mark : Char) (s : List Char) : (splitAt mark s).length = s.count mark + 1 := by
  induction s with
  | nil => rfl
  | cons c s ih =>
    rw [splitAt]
    by_cases hc : c = mark
    · rw [if_pos hc, hc, List.length_cons, ih, List.count_cons_self]
    · obtain ⟨piece, pieces, hpieces⟩ := List.exists_cons_of_ne_nil (splitAt_ne_nil mark s)
      rw [if_neg hc, List.count_cons_of_ne hc, ← ih, hpieces]
      rfl

theorem mark_notMem_of_mem_splitAt {mark : Char} {s p : List Char} (h : p ∈ splitAt mark s) : mark ∉ p := by
  induction s generalizing p with
  | nil =>
    obtain rfl := List.mem_singleton.1 h
    exact List.not_mem_nil
  | cons c s ih =>
    rw [splitAt] at h
    split at h
    · rcases List.mem_cons.1 h with rfl | h
      · exact List.not_mem_nil
      · exact ih h
    · next hc =>
      obtain ⟨q, qs, hqs⟩ := List.exists_cons_of_ne_nil (splitAt_ne_nil mark s)
      rw [hqs, consFirst] at h
      rcases List.mem_cons.1 h with rfl | h
      · have hq := ih (hqs ▸ List.mem_cons_self)
        exact fun hmem => (List.mem_cons.1 hmem).elim (Ne.symm hc) hq
      · exact ih (hqs ▸ List.mem_cons_of_mem q h)

theorem splitAt_flatMap {mark : Char} {ls : List (List Char)} (hls : ∀ l ∈ ls, mark ∉ l) :
    splitAt mark (ls.flatMap (· ++ [mark])) = ls ++ [[]] := by
  induction ls with
  | nil => rfl
  | cons l ls ih =>
    obtain ⟨hl, hls⟩ := List.forall_mem_cons.1 hls
    rw [List.flatMap_cons, List.append_assoc, List.singleton_append, splitAt_append hl, ih hls, List.cons_append]

theorem dropReturn_eq (l : List Char) : dropReturn l = l ∨ l = dropReturn l ++ ['\r'] := by
  unfold dropReturn
  split
  · next h =>
    obtain ⟨front, rfl⟩ := List.getLast?_eq_some_iff.1 h
    right
    rw [List.dropLast_concat]
  · exact Or.inl rfl

theorem mem_linesOfPieces {l : List Char} {ps : List (List Char)} (h : l ∈ linesOfPieces ps) :
    ∃ p ∈ ps, l = p ∨ l = dropReturn p := by
  fun_induction linesOfPieces ps with
  | case1 => cases h
  | case2 p hp => cases h
  | case3 p hp =>
    obtain rfl := List.mem_singleton.1 h
    exact ⟨l, List.mem_singleton_self l, Or.inl rfl⟩
  | case4 p ps _ ih =>
    rcases List.mem_cons.1 h with rfl | h
    · exact ⟨p, List.mem_cons_self, Or.inr rfl⟩
    · obtain ⟨q, hq, hl⟩ := ih h
      exact ⟨q, List.mem_cons_of_mem p hq, hl⟩

theorem newline_notMem_of_mem_lines {s l : List Char} (h : l ∈ lines s) : '\n' ∉ l := by
  obtain ⟨p, hp, rfl | rfl⟩ := mem_linesOfPieces h
  · exact mark_notMem_of_mem_splitAt hp
  · have hnot := mark_notMem_of_mem_splitAt hp
    rcases dropReturn_eq p with heq | heq
    · rwa [heq]
    · exact fun hmem => hnot (heq ▸ List.mem_append_left _ hmem)

/-- What is read of lines is read of the pieces between line feeds, if empty ones and carriage returns at their ends make
no difference to it. -/
theorem map_filter_linesOfPieces {keep : List Char → Bool} {f : List Char → β} (hempty : keep [] = false)
    (hkeep : ∀ l, keep (l ++ ['\r']) = keep l) (hf : ∀ l, f (l ++ ['\r']) = f l) (ps : List (List Char)) :
    ((linesOfPieces ps).filter keep).map f = (ps.filter keep).map f := by
  have hdropped : ∀ l, keep (dropReturn l) = keep l ∧ f (dropReturn l) = f l := by
    intro l
    rcases dropReturn_eq l with heq | heq
    · rw [heq]
      exact ⟨rfl, rfl⟩
    · exact ⟨by conv_rhs => rw [heq, hkeep], by conv_rhs => rw [heq, hf]⟩
  fun_induction linesOfPieces ps with
  | case1 => rfl
  | case2 p hp =>
    rw [List.isEmpty_iff.1 hp, List.filter_cons_of_neg (by simp [hempty])]
  | case3 p hp => rfl
  | case4 p ps _ ih =>
    obtain ⟨hkept, hsame⟩ := hdropped p
    rw [List.filter_cons, List.filter_cons, hkept]
    split
    · rw [List.map_cons, List.map_cons, hsame, ih]
    · exact ih

theorem linesOfPieces_append (ps : List (List Char)) {qs : List (List Char)} (hqs : qs ≠ []) :
    linesOfPieces (ps ++ qs) = ps.map dropReturn ++ linesOfPieces qs := by
  induction ps with
  | nil => rfl
  | cons p ps ih =>
    obtain ⟨r, rs, hrest⟩ := List.exists_cons_of_ne_nil (List.append_ne_nil_of_right_ne_nil ps hqs)
    rw [List.cons_append, List.map_cons, List.cons_append, ← ih, hrest, linesOfPieces]
    nofun

theorem lines_append_cons (s t : List Char) : lines (s ++ '\n' :: t) = (splitAt '\n' s).map dropReturn ++ lines t := by
  rw [lines, splitAt_append_cons, linesOfPieces_append _ (splitAt_ne_nil '\n' t), lines]

theorem lines_flatMap (ls : List (List Char)) (hls : ∀ l ∈ ls, '\n' ∉ l ∧ l.getLast? ≠ some '\r') :
    lines (ls.flatMap (· ++ ['\n'])) = ls := by
  unfold lines
  induction ls with
  | nil => rfl
  | cons l ls ih =>
    obtain ⟨⟨hline, hreturn⟩, hls⟩ := List.forall_mem_cons.1 hls
    rw [List.flatMap_cons, List.append_assoc, List.singleton_append, splitAt_append hline]
    cases hrest : splitAt '\n' (ls.flatMap (· ++ ['\n'])) with
    | nil => exact absurd hrest (splitAt_ne_nil _ _)
    | cons p ps =>
      have ih := ih hls
      rw [hrest] at ih
      rw [linesOfPieces, ih, dropReturn, if_neg hreturn]
      nofun

/-! ## Lower case -/

theorem exists_lowerAfter_append (before s t : List Char) :
    ∃ front, lowerAfter before (s ++ t) = front ++ lowerAfter (s.reverse ++ before) t := by
  induction s generalizing before with
  | nil => exact ⟨[], rfl⟩
  | cons c s ih =>
    obtain ⟨front, hfront⟩ := ih (c :: before)
    rw [List.cons_append, lowerAfter, hfront, List.reverse_cons, List.append_assoc, List.singleton_append]
    exact ⟨_, (List.append_assoc _ _ _).symm⟩

theorem lowerAfter_append {s : List Char} (hs : 'Σ' ∉ s) (before t : List Char) :
    lowerAfter before (s ++ t) = s.flatMap lowerChar ++ lowerAfter (s.reverse ++ before) t := by
  induction s generalizing before with
  | nil => rfl
  | cons c s ih =>
    rw [List.mem_cons, not_or] at hs
    rw [List.cons_append, lowerAfter, if_neg (Ne.symm hs.1), ih hs.2, List.flatMap_cons, List.append_assoc,
      List.reverse_cons, List.append_assoc, List.singleton_append]

theorem lower_eq_flatMap {s : List Char} (hs : 'Σ' ∉ s) : lower s = s.flatMap lowerChar := by
  rw [lower, ← List.append_nil s, lowerAfter_append hs]
  simp [lowerAfter]

theorem flatMap_lowerChar_infix {s u : List Char} (hu : 'Σ' ∉ u) (h : u <:+: s) :
    u.flatMap lowerChar <:+: lower s := by
  obtain ⟨a, b, rfl⟩ := h
  obtain ⟨front, hfront⟩ := exists_lowerAfter_append [] a (u ++ b)
  rw [lower, List.append_assoc, hfront, lowerAfter_append hu]
  exact ⟨front, _, List.append_assoc _ _ _⟩

theorem not_cased_of_isBlank {c : Char} (h : isBlank c) : inRanges c.toNat casedRanges = false := by
  have hcased : ∀ n ∈ blankPoints, inRanges n casedRanges = false := by decide +kernel
  exact hcased _ (toNat_mem_blankPoints h)

theorem meetsCased_of_blank {before : List Char} (h : ∀ c ∈ before, isBlank c) : meetsCased before = false := by
  unfold meetsCased
  split
  · rfl
  · next c s hrest =>
    have hc : c ∈ before := (List.dropWhile_suffix _).subset (hrest ▸ List.mem_cons_self)
    exact not_cased_of_isBlank (h c hc)

theorem sigma_infix {before s : List Char} (hbefore : ∀ c ∈ before, isBlank c) (hs : ∀ c ∈ s, isBlank c ∨ c = 'Σ')
    (hmem : 'Σ' ∈ s) : ['σ'] <:+: lowerAfter before s := by
  induction s generalizing before with
  | nil => exact absurd hmem List.not_mem_nil
  | cons c s ih =>
    obtain ⟨hc, hs⟩ := List.forall_mem_cons.1 hs
    rw [lowerAfter]
    by_cases hsigma : c = 'Σ'
    · rw [if_pos hsigma, meetsCased_of_blank hbefore]
      exact (List.prefix_append _ _).isInfix
    · have hblank : ∀ b ∈ c :: before, isBlank b :=
        List.forall_mem_cons.2 ⟨hc.resolve_right hsigma, hbefore⟩
      have hrest : 'Σ' ∈ s := (List.mem_cons.1 hmem).resolve_left (Ne.symm hsigma)
      exact (ih hblank hs hrest).trans (List.suffix_append _ _).isInfix

theorem exists_lower_infix {s : List Char} (hs : ¬ allBlank s) : ∃ u, ¬ isBlank u ∧ lower [u] <:+: lower s := by
  by_cases hletter : ∃ u ∈ s, ¬ isBlank u ∧ u ≠ 'Σ'
  · obtain ⟨u, hmem, hblank, hsigma⟩ := hletter
    have hu : 'Σ' ∉ [u] := by simpa using Ne.symm hsigma
    exact ⟨u, hblank, lower_eq_flatMap hu ▸ flatMap_lowerChar_infix hu ((List.singleton_infix_iff u s).2 hmem)⟩
  · -- with a letter before it a capital sigma could be a final one, but there is no letter
    have honly : ∀ c ∈ s, isBlank c ∨ c = 'Σ' := by
      intro c hc
      by_contra hnot
      rw [not_or] at hnot
      exact hletter ⟨c, hc, hnot⟩
    obtain ⟨c, hc, hblank⟩ : ∃ c ∈ s, ¬ isBlank c := by simpa [allBlank] using hs
    obtain rfl := (honly c hc).resolve_left hblank
    exact ⟨'Σ', hblank, sigma_infix nofun honly hc⟩

end DesignCanvas.Text
