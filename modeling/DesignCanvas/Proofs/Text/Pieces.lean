import DesignCanvas.Proofs.Text.Reading

/-!
# Cutting and trimming

What is cut at marks or trimmed is part of the text (`infix_of_mem_splitAt`, `mem_trim_iff`), and pieces that were joined
with a mark and a blank are found again (`splitAt_intercalate`). What comes of each line of a text comes of each piece
between line feeds, if it depends on no carriage return (`flatMap_lines`).
-/

namespace DesignCanvas.Text

variable {s t : List Char} {c mark : Char}

/-! ## Trimming -/

theorem mem_dropWhile_iff {p : Char → Bool} (hc : p c = false) : c ∈ s.dropWhile p ↔ c ∈ s := by
  refine ⟨fun h => (List.dropWhile_suffix p).subset h, fun h => ?_⟩
  rw [← List.takeWhile_append_dropWhile (p := p) (l := s), List.mem_append] at h
  refine h.resolve_left fun htaken => ?_
  rw [List.mem_takeWhile_imp htaken] at hc
  cases hc

theorem mem_trim_iff (hc : isBlank c = false) : c ∈ trim s ↔ c ∈ s := by
  rw [trim, trimEnd, List.mem_reverse, mem_dropWhile_iff hc, List.mem_reverse, trimStart, mem_dropWhile_iff hc]

theorem trim_append_return (s : List Char) : trim (s ++ ['\r']) = trim s := by
  have hblank : ∀ c ∈ ['\r'], isBlank c := List.forall_mem_singleton.2 (by decide)
  simpa using trim_surrounded (a := []) (b := ['\r']) nofun hblank s

/-! ## Cutting -/

theorem infix_of_mem_splitAt {p : List Char} (h : p ∈ splitAt mark s) : p <:+: s := by
  -- the first piece is where the text begins
  suffices ∃ q ps, splitAt mark s = q :: ps ∧ q <+: s ∧ ∀ r ∈ ps, r <:+: s by
    obtain ⟨q, ps, hsplit, hq, hps⟩ := this
    rw [hsplit] at h
    exact (List.mem_cons.1 h).elim (fun heq => heq ▸ hq.isInfix) (hps p)
  clear h
  induction s with
  | nil => exact ⟨[], [], rfl, List.prefix_rfl, nofun⟩
  | cons c s ih =>
    obtain ⟨q, ps, hsplit, hq, hps⟩ := ih
    have hsuffix : s <:+ c :: s := List.suffix_cons c s
    rw [splitAt, hsplit]
    by_cases hc : c = mark
    · rw [if_pos hc]
      refine ⟨[], q :: ps, rfl, List.nil_prefix, List.forall_mem_cons.2 ⟨?_, fun r hr => ?_⟩⟩
      · exact hq.isInfix.trans hsuffix.isInfix
      · exact (hps r hr).trans hsuffix.isInfix
    · rw [if_neg hc]
      exact ⟨c :: q, ps, rfl, (List.prefix_cons_inj c).2 hq, fun r hr => (hps r hr).trans hsuffix.isInfix⟩

theorem splitFirst?_append (hs : mark ∉ s) (t : List Char) : splitFirst? mark (s ++ mark :: t) = some (s, t) := by
  induction s with
  | nil => exact if_pos rfl
  | cons c s ih =>
    rw [List.mem_cons, not_or] at hs
    rw [List.cons_append, splitFirst?, if_neg (Ne.symm hs.1), ih hs.2]
    rfl

theorem splitFirst?_eq_some {a b : List Char} (h : splitFirst? mark s = some (a, b)) :
    s = a ++ mark :: b ∧ mark ∉ a := by
  induction s generalizing a with
  | nil => cases h
  | cons c s ih =>
    rw [splitFirst?] at h
    split at h
    · next hc =>
      obtain ⟨rfl, rfl⟩ := Prod.mk.inj (Option.some.inj h)
      exact ⟨by rw [hc, List.nil_append], List.not_mem_nil⟩
    · next hc =>
      obtain ⟨⟨a', b'⟩, hparts, heq⟩ := Option.map_eq_some_iff.1 h
      obtain ⟨rfl, rfl⟩ := Prod.mk.inj heq
      obtain ⟨rfl, ha⟩ := ih hparts
      exact ⟨rfl, fun hmem => (List.mem_cons.1 hmem).elim (Ne.symm hc) ha⟩

theorem splitFirst?_eq_none : splitFirst? mark s = none ↔ mark ∉ s := by
  induction s with
  | nil => exact iff_of_true rfl List.not_mem_nil
  | cons c s ih =>
    rw [splitFirst?, List.mem_cons, not_or]
    by_cases hc : c = mark
    · rw [if_pos hc]
      exact iff_of_false nofun fun h => h.1 hc.symm
    · rw [if_neg hc, Option.map_eq_none_iff, ih]
      exact (and_iff_right (Ne.symm hc)).symm

/-! ## Joining -/

theorem mem_of_mem_intercalate {sep : List Char} {ps : List (List Char)} (h : c ∈ sep.intercalate ps) :
    c ∈ sep ∨ ∃ p ∈ ps, c ∈ p := by
  obtain ⟨p, hp, hc⟩ := List.mem_flatten.1 (show c ∈ (ps.intersperse sep).flatten from h)
  obtain ⟨i, hi⟩ := List.mem_iff_getElem?.1 hp
  rw [List.getElem?_intersperse] at hi
  split at hi
  · exact .inr ⟨p, List.mem_of_getElem? hi, hc⟩
  · split at hi
    · exact .inl (Option.some.inj hi ▸ hc)
    · cases hi

theorem suffix_intercalate (sep : List Char) (ps : List (List Char)) (p : List Char) :
    p <:+ sep.intercalate (ps ++ [p]) := by
  induction ps with
  | nil => simp
  | cons q ps ih =>
    rw [List.cons_append, List.intercalate_cons_of_ne_nil (by simp)]
    exact ih.trans (List.suffix_append _ _)

theorem splitAt_intercalate {glue : List Char} (hglue : mark ∉ glue) {ps : List (List Char)} (hps : ps ≠ [])
    (hmark : ∀ p ∈ ps, mark ∉ p) :
    splitAt mark (glue ++ (mark :: glue).intercalate ps) = ps.map (glue ++ ·) := by
  have hpiece : ∀ p ∈ ps, mark ∉ glue ++ p := fun p hp h => (List.mem_append.1 h).elim hglue (hmark p hp)
  clear hmark
  induction ps with
  | nil => exact absurd rfl hps
  | cons p ps ih =>
    obtain ⟨hp, hrest⟩ := List.forall_mem_cons.1 hpiece
    cases ps with
    | nil => simpa using splitAt_of_notMem hp
    | cons q qs =>
      have hjoined : glue ++ (mark :: glue).intercalate (p :: q :: qs) =
          (glue ++ p) ++ mark :: (glue ++ (mark :: glue).intercalate (q :: qs)) := by
        simp [List.intercalate_cons_cons]
      rw [hjoined, splitAt_append hp, ih (List.cons_ne_nil q qs) hrest]
      rfl

/-! ## Lines -/

/-- What comes of the lines comes of the pieces between line feeds, if nothing comes of an empty one and a carriage
return at the end makes no difference. -/
theorem flatMap_lines {f : List Char → List β} (hempty : f [] = []) (hreturn : ∀ l, f (l ++ ['\r']) = f l)
    (s : List Char) : (lines s).flatMap f = (splitAt '\n' s).flatMap f := by
  -- lines of which nothing comes can be left out
  have hkept : ∀ ls : List (List Char), ls.flatMap f = ((ls.filter fun l => !(f l).isEmpty).map f).flatten := by
    intro ls
    rw [List.flatMap_def, ← List.flatten_filter_not_isEmpty, List.filter_map]
    rfl
  rw [hkept, hkept, lines]
  refine congrArg List.flatten (map_filter_linesOfPieces ?_ (fun l => ?_) hreturn _)
  · rw [hempty]
    rfl
  · rw [hreturn]

end DesignCanvas.Text
