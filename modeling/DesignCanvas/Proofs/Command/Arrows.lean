import DesignCanvas.Proofs.Command.Decision

/-!
# Arrows

A command with an arrow in it asks for a replacement of text, or is refused, whatever words, quotation marks and numbers
it has besides (`readByArrows`). Two texts with an arrow between them are read back from the command that they make
(`parse_arrow`).
-/

namespace DesignCanvas.Command

variable {p : Phrase} {input : String} {search replacement text : List Char}

/-- What a command with an arrow in it is read as. -/
structure ReadByArrows (input : String) : Prop where
  leading : ∀ text, Text.trim input.toList = '>' :: text →
    read input = .ok (.replaceAll, .replaceAllText (String.ofList (Text.trim text)))
  single : (Text.trim input.toList).head? ≠ some '>' → (Text.trim input.toList).count '>' = 1 →
    ∃ search replacement, Text.trim input.toList = search ++ '>' :: replacement ∧ Text.trim search ≠ [] ∧
      read input = .ok (.searchReplace,
        .replaceText (String.ofList (Text.trim search)) (String.ofList (Text.trim replacement)))
  several : (Text.trim input.toList).head? ≠ some '>' → 1 < (Text.trim input.toList).count '>' →
    read input = .error (.invalid .searchReplace .manyArrows)
  searched : read input ≠ .error (.invalid .searchReplace .noSearch)

/-! ## One phrase -/

theorem readSearchReplace_leading (h : p.raw = '>' :: text) : readSearchReplace p = none := by
  rw [readSearchReplace, h]
  simp

theorem readSearchReplace_single (h : p.raw = search ++ '>' :: replacement) (hsearch : '>' ∉ search)
    (hreplacement : '>' ∉ replacement) (hne : Text.trim search ≠ []) :
    readSearchReplace p =
      some (.ok (.replaceText (String.ofList (Text.trim search)) (String.ofList (Text.trim replacement)))) := by
  have hmem : '>' ∈ p.raw := by simp [h]
  have hhead : p.raw.head? ≠ some '>' := by
    cases search with
    | nil => exact absurd rfl hne
    | cons c search => simpa [h] using Ne.symm (List.ne_of_not_mem_cons hsearch)
  have hguard : ¬ (!p.raw.contains '>' || p.raw.head? = some '>') = true := by
    simp [hmem, hhead]
  rw [readSearchReplace, if_neg hguard, h, Text.splitAt_append hsearch, Text.splitAt_of_notMem hreplacement]
  exact if_neg (by simpa using hne)

theorem readSearchReplace_several (hhead : p.raw.head? ≠ some '>') (hcount : 1 < p.raw.count '>') :
    readSearchReplace p = some (.error .manyArrows) := by
  have hmem : '>' ∈ p.raw := List.count_pos_iff.1 (by omega)
  have hguard : ¬ (!p.raw.contains '>' || p.raw.head? = some '>') = true := by
    simp [hmem, hhead]
  rw [readSearchReplace, if_neg hguard]
  split
  · next search replacement hpieces =>
    have hlength := Text.length_splitAt '>' p.raw
    rw [hpieces, List.length_cons, List.length_singleton] at hlength
    omega
  · rfl

theorem exists_single {s : List Char} (htrim : Text.trim s = s) (hhead : s.head? ≠ some '>')
    (hcount : s.count '>' = 1) :
    ∃ search replacement, s = search ++ '>' :: replacement ∧ '>' ∉ search ∧ '>' ∉ replacement ∧
      Text.trim search ≠ [] := by
  have hmem : '>' ∈ s := List.count_pos_iff.1 (by omega)
  obtain ⟨search, replacement, rfl, hsearch⟩ := List.eq_append_cons_of_mem hmem
  rw [List.count_append, List.count_cons_self, List.count_eq_zero.2 hsearch] at hcount
  have hreplacement : '>' ∉ replacement := List.count_eq_zero.1 (by omega)
  refine ⟨search, replacement, rfl, hsearch, hreplacement, ?_⟩
  cases search with
  | nil => exact absurd rfl hhead
  | cons c search =>
    have hc : ¬ Text.isBlank c := (Text.trim_eq_self_iff.1 htrim).1 c rfl
    exact fun hnil => hc (Text.trim_eq_nil_iff.1 hnil c List.mem_cons_self)

/-- The rule refuses a trimmed text or reads what is before and after its only arrow. -/
theorem readSearchReplace_cases {reading : Reading} (htrim : Text.trim p.raw = p.raw)
    (h : readSearchReplace p = some reading) :
    reading = .error .manyArrows ∨
      ∃ search replacement, '>' ∉ search ∧ '>' ∉ replacement ∧ Text.trim search ≠ [] ∧
        reading = .ok (.replaceText (String.ofList (Text.trim search)) (String.ofList (Text.trim replacement))) := by
  have hguard := (Option.ite_none_left_eq_some.1 h).1
  rw [Bool.or_eq_true, not_or, Bool.not_eq_true', Bool.not_eq_false, List.contains_iff_mem, decide_eq_true_eq] at hguard
  obtain ⟨hmem, hhead⟩ := hguard
  have hpos : 0 < p.raw.count '>' := List.count_pos_iff.2 hmem
  rcases Nat.lt_or_eq_of_le (Nat.succ_le_of_lt hpos) with hcount | hcount
  · rw [readSearchReplace_several hhead hcount] at h
    exact Or.inl (Option.some.inj h).symm
  · obtain ⟨search, replacement, hraw, hsearch, hreplacement, hne⟩ := exists_single htrim hhead hcount.symm
    rw [readSearchReplace_single hraw hsearch hreplacement hne] at h
    exact Or.inr ⟨search, replacement, hsearch, hreplacement, hne, (Option.some.inj h).symm⟩

/-! ## Commands -/

theorem read_single (h : Text.trim input.toList = search ++ '>' :: replacement) (hsearch : '>' ∉ search)
    (hreplacement : '>' ∉ replacement) (hne : Text.trim search ≠ []) :
    read input = .ok (.searchReplace,
      .replaceText (String.ofList (Text.trim search)) (String.ofList (Text.trim replacement))) := by
  have hread := readSearchReplace_single (p := .of input) h hsearch hreplacement hne
  exact read_of_first .searchReplace hread nofun

theorem read_leading (h : Text.trim input.toList = '>' :: text) :
    read input = .ok (.replaceAll, .replaceAllText (String.ofList (Text.trim text))) := by
  have hraw : (Phrase.of input).raw = '>' :: text := h
  have hread : readReplaceAll (.of input) = some (.ok (.replaceAllText (String.ofList (Text.trim text)))) := by
    rw [readReplaceAll, hraw]
    rfl
  refine read_of_first .replaceAll hread fun r hr => ?_
  obtain rfl : r = .searchReplace := List.mem_singleton.1 hr
  exact readSearchReplace_leading hraw

theorem read_several (hhead : (Text.trim input.toList).head? ≠ some '>')
    (hcount : 1 < (Text.trim input.toList).count '>') :
    read input = .error (.invalid .searchReplace .manyArrows) :=
  read_of_first .searchReplace (readSearchReplace_several (p := .of input) hhead hcount) nofun

theorem readByArrows (input : String) : ReadByArrows input := by
  have htrim : Text.trim (Phrase.of input).raw = (Phrase.of input).raw := Text.trim_trim input.toList
  refine ⟨fun text => read_leading, fun hhead hcount => ?_, read_several, fun hno => ?_⟩
  · obtain ⟨search, replacement, h, hsearch, hreplacement, hne⟩ := exists_single htrim hhead hcount
    exact ⟨search, replacement, h, hne, read_single h hsearch hreplacement hne⟩
  · have hanswer : read input = answer .searchReplace (.error .noSearch) := hno
    have hread : readSearchReplace (.of input) = some (.error .noSearch) := (read_eq_answer_iff.1 hanswer).1
    rcases readSearchReplace_cases htrim hread with h | ⟨search, replacement, -, -, -, h⟩
    · cases h
    · cases h

theorem parse_arrow {a b c d : List Char} (hblank : ∀ x ∈ a ++ b ++ c ++ d, Text.isBlank x) (hne : search ≠ [])
    (hsearch : Text.trim search = search) (hreplacement : Text.trim replacement = replacement)
    (hmark : '>' ∉ search) (hmark' : '>' ∉ replacement) :
    parse (String.ofList (a ++ search ++ b ++ '>' :: (c ++ replacement ++ d))) =
      .ok (.replaceText (String.ofList search) (String.ofList replacement)) := by
  simp only [List.mem_append, or_imp, forall_and] at hblank
  obtain ⟨⟨⟨ha, hb⟩, hc⟩, hd⟩ := hblank
  have hnot : ∀ {s : List Char}, (∀ x ∈ s, Text.isBlank x) → '>' ∉ s := fun h hmem => absurd (h _ hmem) (by decide)
  -- the arrow is no blank, so trimming the command trims each side at its outer end only
  have htrim : Text.trim (a ++ search ++ b ++ '>' :: (c ++ replacement ++ d)) =
      Text.trimStart (a ++ search ++ b) ++ '>' :: Text.trimEnd (c ++ replacement ++ d) :=
    Text.trim_append_cons (by decide) _ _
  have hleft : Text.trim (Text.trimStart (a ++ search ++ b)) = search := by
    rw [Text.trim_trimStart, Text.trim_surrounded ha hb, hsearch]
  have hright : Text.trim (Text.trimEnd (c ++ replacement ++ d)) = replacement := by
    rw [Text.trim_trimEnd, Text.trim_surrounded hc hd, hreplacement]
  have hsearch' : '>' ∉ Text.trimStart (a ++ search ++ b) := by
    intro hmem
    simpa [hnot ha, hnot hb, hmark] using (Text.trimStart_isSuffix _).subset hmem
  have hreplacement' : '>' ∉ Text.trimEnd (c ++ replacement ++ d) := by
    intro hmem
    simpa [hnot hc, hnot hd, hmark'] using (Text.trimEnd_isPrefix _).subset hmem
  rw [← String.toList_ofList (l := a ++ search ++ b ++ '>' :: (c ++ replacement ++ d))] at htrim
  rw [parse_eq_ok (read_single htrim hsearch' hreplacement' (by rwa [hleft])), hleft, hright]

/-- Arrows alone decide what a command that has some is read as, and what is written with an arrow is read back. -/
theorem arrows_decide :
    (∀ input, ReadByArrows input) ∧
      ∀ search replacement a b c d : List Char, (∀ x ∈ a ++ b ++ c ++ d, Text.isBlank x) → search ≠ [] →
        Text.trim search = search → Text.trim replacement = replacement → '>' ∉ search → '>' ∉ replacement →
        parse (String.ofList (a ++ search ++ b ++ '>' :: (c ++ replacement ++ d))) =
          .ok (.replaceText (String.ofList search) (String.ofList replacement)) :=
  ⟨readByArrows, fun _ _ _ _ _ _ => parse_arrow⟩

/-- Quoted text, words and a number beside an arrow do not matter. -/
theorem arrows_decide_quoted :
    parse " \t텍스트 변경 \"1\" >\n너비 300\u3000" = .ok (.replaceText "텍스트 변경 \"1\"" "너비 300") :=
  arrows_decide.2 "텍스트 변경 \"1\"".toList "너비 300".toList [' ', '\t'] [' '] ['\n'] ['\u3000']
    (List.all_eq_true.1 (by decide)) (by decide) (by decide) (by decide) (by decide) (by decide)

end DesignCanvas.Command
