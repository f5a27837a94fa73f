import DesignCanvas.Proofs.Command.Literals
import DesignCanvas.Proofs.Command.Numbers
import Mathlib.Tactic.MkIffOfInductiveProp

/-!
# Canonical commands

A command that is written with the words of a rule and a number, a pair of numbers or a colour is read back: the rule
finds what is written, and the rules before it need letters that are not in the command (`Announces`).
-/

namespace DesignCanvas.Command

open Text (FoundPast IsRun IsSigned)

variable {rule : Rule} {intent : Intent} {input : String} {front marks s : List Char} {n : Nat}

/-- The front of a command announces a rule: it is in lower case, and none of the rules before applies to it with marks
after it. -/
@[mk_iff]
structure Announces (rule : Rule) (front marks : List Char) : Prop where
  nonempty : front ≠ []
  starts : Text.trimStart front = front
  caseless : front.flatMap Text.lowerChar = front
  closed : marks.flatMap Text.lowerChar ⊆ marks
  sigma : 'Σ' ∉ front ++ marks
  apart : ∀ r ∈ rule.before, ∀ words ∈ r.words, ∃ word ∈ words, ¬ word.toList ⊆ front ++ marks

instance (rule : Rule) (front marks : List Char) : Decidable (Announces rule front marks) :=
  decidable_of_iff _ (announces_iff rule front marks).symm

/-- A command is read by the rule that its front announces, if this rule applies. -/
theorem read_of_announces (h : Announces rule front marks) (hinput : input.toList = front ++ s) (hne : s ≠ [])
    (hend : ∀ c ∈ s.getLast?, ¬ Text.isBlank c) (hs : s ⊆ marks)
    (hread : rule.read ⟨front ++ s, front ++ s.flatMap Text.lowerChar⟩ = some (.ok intent)) :
    read input = .ok (rule, intent) := by
  have hmarks : ∀ {t}, t ⊆ marks → front ++ t ⊆ front ++ marks := fun ht =>
    List.append_subset.2 ⟨List.subset_append_left _ _, List.Subset.trans ht (List.subset_append_right _ _)⟩
  have hphrase : Phrase.of input = ⟨front ++ s, front ++ s.flatMap Text.lowerChar⟩ := by
    rw [Phrase.of, hinput, Text.trim_append_eq_self h.nonempty hne (Text.trimStart_eq_self_iff.1 h.starts) hend,
      Text.lower_eq_flatMap fun hmem => h.sigma (hmarks hs hmem), List.flatMap_append, h.caseless]
  have hraw : (Phrase.of input).raw ⊆ front ++ marks := by
    rw [hphrase]
    exact hmarks hs
  refine read_of_first rule (by rwa [hphrase]) fun r hr => read_eq_none hraw h.sigma fun words hwords => ?_
  obtain ⟨word, hword, hnot⟩ := h.apart r hr words hwords
  refine ⟨word, hword, fun hsubset => hnot (List.Subset.trans hsubset ?_)⟩
  rw [List.flatMap_append, h.caseless]
  exact hmarks h.closed

/-! ## Numbers as they are written -/

/-- The characters that numbers are written with. -/
def numberMarks : List Char :=
  Text.plainDigits ++ ['-', ',', ' ', ')', '%']

theorem caseless_numberMarks : ∀ c ∈ numberMarks, Text.lowerChar c = [c] :=
  List.all_iff_forall_prop.1 (by decide +kernel)

theorem read_of_numberMarks (h : Announces rule front numberMarks) (hinput : input.toList = front ++ s) (hne : s ≠ [])
    (hend : ∀ c ∈ s.getLast?, ¬ Text.isBlank c) (hs : s ⊆ numberMarks)
    (hread : rule.read ⟨front ++ s, front ++ s⟩ = some (.ok intent)) : read input = .ok (rule, intent) := by
  refine read_of_announces h hinput hne hend hs ?_
  rwa [List.flatMap_congr fun c hc => caseless_numberMarks c (hs hc), List.flatMap_singleton']

theorem number_toDigits (h : n < numberLimit) : number (Nat.toDigits 10 n) = .ok n := by
  rw [number_eq (Text.isRun_toDigits_nil n), Text.value_toDigits, if_pos ⟨Text.isPlain_toDigits n, h⟩]

theorem percent_toDigits (n : Nat) : percent (Nat.toDigits 10 n) = min n 100 := by
  rw [percent_eq (Text.isRun_toDigits_nil n), Text.value_toDigits, if_pos (Text.isPlain_toDigits n)]

theorem offset_repr (i : Int64) : offset i.toInt.repr.toList = .ok i.toInt := by
  have hlow : -offsetLimit ≤ i.toInt := Int64.le_toInt i
  have hhigh : i.toInt < offsetLimit := Int64.toInt_lt i
  rw [offset_eq (Text.isSigned_repr_nil _), Text.signedValue_repr, if_pos ⟨Text.isPlain_repr _, hlow, hhigh⟩]

theorem toDigits_marks : Nat.toDigits 10 n ⊆ numberMarks :=
  fun c hc => List.mem_append_left _ (Text.mem_plainDigits (Text.isPlainDigit_toDigits c hc))

theorem repr_marks (i : Int) : i.repr.toList ⊆ numberMarks := by
  cases i with
  | ofNat n => exact Nat.toList_repr ▸ toDigits_marks
  | negSucc n =>
    rw [Int.repr, String.toList_append, Nat.toList_repr]
    exact List.append_subset.2 ⟨by decide, toDigits_marks⟩

theorem toDigits_end : ∀ c ∈ (Nat.toDigits 10 n).getLast?, ¬ Text.isBlank c := fun c hc =>
  not_isBlank_of_isDigit (Text.isDigit_of_isPlainDigit (Text.isPlainDigit_toDigits c (List.mem_of_getLast? hc)))

theorem numberPart_toDigits (n : Nat) : NumberPart (' ' :: Nat.toDigits 10 n) (Nat.toDigits 10 n) [] :=
  ⟨[], [' '], by simp, by simp [Text.AtMostOne], List.all_eq_true.1 rfl, Text.isRun_toDigits_nil n⟩

/-! ## Rules for numbers -/

theorem read_canonical_measure (rule : Rule) (word : String) {words : List String} {intent : Nat → Intent}
    (h : rule.measure? = some (words, intent)) (hword : word ∈ words) (hn : n < numberLimit)
    (hinput : input.toList = word.toList ++ [' '] ++ Nat.toDigits 10 n) : read input = .ok (rule, intent n) := by
  have hannounces : ∀ word ∈ words, Announces rule (word.toList ++ [' ']) numberMarks := by
    cases rule with
    | width | height | cornerRadius =>
      obtain ⟨rfl, -⟩ := Prod.mk.inj (Option.some.inj h)
      decide +kernel
    | _ => cases h
  refine read_of_numberMarks (hannounces word hword) hinput Nat.toDigits_ne_nil toDigits_end toDigits_marks ?_
  have hfound : FoundPast (fun _ => True) (NumberAfter words) (word.toList ++ [' '] ++ Nat.toDigits 10 n)
      (Nat.toDigits 10 n) :=
    .here ⟨word, hword, _, [], List.append_assoc _ _ _, numberPart_toDigits n⟩
  rw [(read_measure h).1, readNumber, (measure_iff h).2 hfound, Option.map_some, number_toDigits hn]
  rfl

theorem read_canonical_fontSize (hn : n < numberLimit) (hinput : input.toList = "폰트 크기 ".toList ++ Nat.toDigits 10 n) :
    read input = .ok (.fontSize, .setFontSize n) := by
  have hannounces : Announces .fontSize "폰트 크기 ".toList numberMarks := by decide +kernel
  refine read_of_numberMarks hannounces hinput Nat.toDigits_ne_nil toDigits_end toDigits_marks ?_
  have hfound : FoundPast (fun _ => True) FontSizeAfter ("폰트 크기 ".toList ++ Nat.toDigits 10 n)
      (Nat.toDigits 10 n) :=
    .here ⟨[' '], "크기".toList, _, [], rfl, List.all_eq_true.1 rfl, Or.inr rfl, numberPart_toDigits n⟩
  rw [Rule.read, readFontSize, fontSize_iff.2 hfound]
  exact congrArg (fun reading => some (Except.map Intent.setFontSize reading)) (number_toDigits hn)

theorem not_percentage_of_not_isDigit {c : Char} {t run : List Char} (hc : ¬ Text.isDigit c) :
    ¬ Percentage (c :: t) run := by
  rintro ⟨blanks, rest, hs, hne, hdigits, -⟩
  obtain ⟨d, run, rfl⟩ := List.exists_cons_of_ne_nil hne
  obtain ⟨rfl, -⟩ := List.cons.inj hs
  exact hc (hdigits c List.mem_cons_self)

theorem read_canonical_opacity (hinput : input.toList = "투명도 ".toList ++ (Nat.toDigits 10 n ++ ['%'])) :
    read input = .ok (.opacity, .setOpacity (min n 100)) := by
  have hannounces : Announces .opacity "투명도 ".toList numberMarks := by decide +kernel
  have hmarks : Nat.toDigits 10 n ++ ['%'] ⊆ numberMarks :=
    List.append_subset.2 ⟨toDigits_marks, by decide⟩
  have hend : ∀ c ∈ (Nat.toDigits 10 n ++ ['%']).getLast?, ¬ Text.isBlank c := by
    rw [List.getLast?_concat]
    simp [Text.isBlank]
  refine read_of_numberMarks hannounces hinput (by simp) hend hmarks ?_
  have hrun := Text.isRun_toDigits_nil n
  have hfound : FoundPast (fun _ => True) Percentage ("투명도 ".toList ++ (Nat.toDigits 10 n ++ ['%']))
      (Nat.toDigits 10 n) := by
    refine .append (.here ⟨[], [], rfl, hrun.nonempty, hrun.digits, by simp⟩) fun c hc => ⟨trivial, fun t run => ?_⟩
    have hfront : ∀ c ∈ "투명도 ".toList, ¬ Text.isDigit c := List.all_iff_forall_prop.1 (by decide +kernel)
    exact not_percentage_of_not_isDigit (hfront c hc)
  have hmentions : (Phrase.mk ("투명도 ".toList ++ (Nat.toDigits 10 n ++ ['%']))
      ("투명도 ".toList ++ (Nat.toDigits 10 n ++ ['%']))).mentions [["투명도"], ["opacity"]] :=
    mentions_of_infix ["투명도", "opacity"] List.mem_cons_self (List.prefix_append "투명도".toList _).isInfix
  rw [Rule.read, readOpacity, if_pos hmentions, opacity_iff.2 hfound, Option.map_some, percent_toDigits]

/-- A pair in brackets is not found one blank too early. -/
theorem foundPast_bracketed {dx dy : List Char} (hdx : IsSigned dx []) (hdy : IsSigned dy [')']) :
    FoundPast (· ≠ '\n') SignedPair (" (".toList ++ (dx ++ (", ".toList ++ (dy ++ [')'])))) (dx, dy) := by
  -- a bracket has to come before the blanks, so at the blank there is no pair yet
  have hnone : ∀ t pair, ¬ SignedPair (' ' :: '(' :: t) pair := by
    intro t pair h
    have hpair : pair? (' ' :: '(' :: t) = none := rfl
    rw [pair?_eq_some_iff.2 h] at hpair
    cases hpair
  refine Text.foundPast_cons.2 (Or.inr ⟨by decide, hnone _, .here ?_⟩)
  exact ⟨['('], [], [], [' '], [')'], rfl, by simp [Text.AtMostOne], List.all_eq_true.1 rfl, hdx, hdy⟩

theorem read_canonical_move {dx dy : Int64} (hinput : input.toList =
      "이동 (".toList ++ (dx.toInt.repr.toList ++ (", ".toList ++ (dy.toInt.repr.toList ++ [')'])))) :
    read input = .ok (.move, .move dx.toInt dy.toInt) := by
  have hannounces : Announces .move "이동 (".toList numberMarks := by decide +kernel
  have hmarks : dx.toInt.repr.toList ++ (", ".toList ++ (dy.toInt.repr.toList ++ [')'])) ⊆ numberMarks := by
    have hlast : dy.toInt.repr.toList ++ [')'] ⊆ numberMarks := List.append_subset.2 ⟨repr_marks _, by decide⟩
    exact List.append_subset.2 ⟨repr_marks _, List.append_subset.2 ⟨by decide, hlast⟩⟩
  have hend : ∀ c ∈ (dx.toInt.repr.toList ++ (", ".toList ++ (dy.toInt.repr.toList ++ [')']))).getLast?,
      ¬ Text.isBlank c := by
    rw [← List.append_assoc, ← List.append_assoc, List.getLast?_concat]
    simp [Text.isBlank]
  refine read_of_numberMarks hannounces hinput (by simp) hend hmarks ?_
  have hclose : ∀ c ∈ ([] ++ [')']).head?, ¬ Text.isDigit c := ends_at_mark (by decide) (by simp) []
  have hfound : FoundPast (fun _ => True) OffsetsAfter
      ("이동 (".toList ++ (dx.toInt.repr.toList ++ (", ".toList ++ (dy.toInt.repr.toList ++ [')']))))
      (dx.toInt.repr.toList, dy.toInt.repr.toList) :=
    .here ⟨"이동", List.mem_cons_self, _, rfl,
      foundPast_bracketed (Text.isSigned_repr_nil _) (Text.isSigned_repr _ hclose)⟩
  rw [Rule.read, readMove, move_iff.2 hfound, Option.map_some]
  dsimp only
  rw [offset_repr, offset_repr]
  rfl

/-! ## Colours -/

theorem read_canonical_color (hlength : s.length = 3 ∨ s.length = 6) (hs : ∀ c ∈ s, Text.isHexDigit c)
    (hinput : input.toList = "색상 변경 ".toList ++ '#' :: s) :
    ∃ color, Color.ofChars? ('#' :: s) = some color ∧
      read input = .ok (.color, .setColor (String.ofList ('#' :: s)) color) := by
  have hannounces : Announces .color "색상 변경 ".toList ('#' :: hexDigits) := by decide +kernel
  have hend : ∀ c ∈ ('#' :: s).getLast?, ¬ Text.isBlank c := fun c hc =>
    not_isBlank_literal hs c (List.mem_of_getLast? hc)
  have hliteral := hexLiteral_whole hlength hs
  obtain ⟨color, hcolor⟩ := hliteral.exists_ofChars?
  have hne : '#' :: s ≠ [] := List.cons_ne_nil _ _
  refine ⟨color, hcolor, read_of_announces hannounces hinput hne hend (literal_marks hs) ?_⟩
  have hfound : Text.firstMatch hexLiteral? ("색상 변경 ".toList ++ '#' :: s) = some ('#' :: s) := by
    refine (Text.firstMatch_eq_some_iff fun _ _ => hexLiteral?_eq_some_iff).2 (.append (.here hliteral) fun c hc => ?_)
    refine ⟨trivial, ?_⟩
    rintro t hex ⟨digits, rest, heq, -⟩
    have hnot : '#' ∉ "색상 변경 ".toList := by decide
    obtain rfl := (List.cons.inj heq).1
    exact hnot hc
  have hmentions : (Phrase.mk ("색상 변경 ".toList ++ '#' :: s)
      ("색상 변경 ".toList ++ ('#' :: s).flatMap Text.lowerChar)).mentions [["색", "변경"], ["color"]] := by
    have hwords : ∀ word ∈ ["색", "변경"], word.toList <:+: "색상 변경 ".toList := by decide
    refine mentions_iff.2 ⟨["색", "변경"], List.mem_cons_self, fun word hword => ?_⟩
    exact (hwords word hword).trans (List.prefix_append _ _).isInfix
  rw [Rule.read, readColor, if_pos hmentions, hfound, Option.bind_some, hcolor]
  rfl

/-! ## All canonical commands -/

/-- Canonical commands are read back. -/
theorem parse_canonical :
    (∀ n : UInt32, parse s!"너비 {n}" = .ok (.resizeWidth n.toNat) ∧ parse s!"높이 {n}" = .ok (.resizeHeight n.toNat) ∧
      parse s!"폰트 크기 {n}" = .ok (.setFontSize n.toNat) ∧ parse s!"모서리 {n}" = .ok (.setCornerRadius n.toNat)) ∧
    (∀ n : Nat, parse s!"투명도 {n}%" = .ok (.setOpacity (min n 100))) ∧
    (∀ dx dy : Int64, parse s!"이동 ({dx}, {dy})" = .ok (.move dx.toInt dy.toInt)) ∧
    ∀ (hex : String) (digits : List Char), hex.toList = '#' :: digits → (digits.length = 3 ∨ digits.length = 6) →
      (∀ c ∈ digits, Text.isHexDigit c) →
      ∃ color, Color.ofHex? hex = some color ∧ parse s!"색상 변경 {hex}" = .ok (.setColor hex color) := by
  have hnumber : ∀ (front : String) (n : Nat), (front ++ n.repr).toList = front.toList ++ Nat.toDigits 10 n := by
    intro front n
    rw [String.toList_append, Nat.toList_repr]
  refine ⟨fun n => ⟨?_, ?_, ?_, ?_⟩, fun n => ?_, fun dx dy => ?_, fun hex digits hhex hlength hdigits => ?_⟩
  · exact parse_eq_ok (read_canonical_measure .width "너비" rfl (by simp) n.toNat_lt (hnumber "너비 " _))
  · exact parse_eq_ok (read_canonical_measure .height "높이" rfl (by simp) n.toNat_lt (hnumber "높이 " _))
  · exact parse_eq_ok (read_canonical_fontSize n.toNat_lt (hnumber "폰트 크기 " _))
  · exact parse_eq_ok (read_canonical_measure .cornerRadius "모서리" rfl (by simp) n.toNat_lt (hnumber "모서리 " _))
  · refine parse_eq_ok (read_canonical_opacity ?_)
    rw [String.toList_append, ← List.append_assoc]
    exact congrArg (· ++ ['%']) (hnumber "투명도 " n)
  · refine parse_eq_ok (read_canonical_move ?_)
    simp only [String.toList_append, List.append_assoc]
    rfl
  · have hinput : (s!"색상 변경 {hex}").toList = "색상 변경 ".toList ++ '#' :: digits := by
      rw [String.toList_append, ← hhex]
      rfl
    obtain ⟨color, hcolor, hread⟩ := read_canonical_color hlength hdigits hinput
    rw [← hhex] at hcolor hread
    rw [String.ofList_toList] at hread
    exact ⟨color, hcolor, parse_eq_ok hread⟩

/-- The smallest and the largest offset are among the ones that are read back. -/
theorem parse_canonical_extremes :
    parse "이동 (-9223372036854775808, 9223372036854775807)" =
        .ok (.move (-9223372036854775808) 9223372036854775807) ∧
      ∃ color, Color.ofHex? "#aBc" = some color ∧ parse "색상 변경 #aBc" = .ok (.setColor "#aBc" color) :=
  ⟨parse_canonical.2.2.1 Int64.minValue Int64.maxValue,
    parse_canonical.2.2.2 "#aBc" ['a', 'B', 'c'] (by decide) (by decide) (List.all_eq_true.1 rfl)⟩

end DesignCanvas.Command
