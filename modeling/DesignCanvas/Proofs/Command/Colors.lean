import DesignCanvas.Proofs.Command.Decision
import DesignCanvas.Proofs.Command.Literals

/-!
# Whole literals of colours

The literal that a command for colours is read with stands at the first number sign with at least three hexadecimal
digits after it (`firstMatch_hexLiteral?_iff`). Of these digits it takes six, or else three, and does not ask whether
they go on. So a colour is written as it is read just if there are three or six of them (`takesWholeColor_iff`): of five
digits the first three become a colour that nobody wrote (`not_takesWholeColor_five`).
-/

namespace DesignCanvas.Command

variable {input : String} {s hex before before' digits digits' after after' : List Char}

/-- A number sign in a text, and the hexadecimal digits after it as far as they go. -/
structure SignAt (s before digits after : List Char) : Prop where
  text : s = before ++ '#' :: (digits ++ after)
  hex : ∀ c ∈ digits, Text.isHexDigit c
  ends : ∀ c ∈ after.head?, ¬ Text.isHexDigit c

/-- The first number sign in a text that has enough digits after it for a literal. -/
structure FirstSign (s before digits after : List Char) : Prop extends SignAt s before digits after where
  enough : 3 ≤ digits.length
  first : ∀ before' digits' after', SignAt s before' digits' after' → before'.length < before.length →
    digits'.length < 3

/-- The digits of a whole literal. -/
def IsWhole (digits : List Char) : Prop :=
  digits.length = 3 ∨ digits.length = 6

instance (digits : List Char) : Decidable (IsWhole digits) :=
  inferInstanceAs (Decidable (_ ∨ _))

/-- A command that the rule for colours decides is read with a whole literal, and is refused if there is none in it. -/
structure TakesWholeColor (input : String) : Prop where
  whole : ∀ hex color, read input = .ok (.color, .setColor hex color) →
    ∃ before digits after, FirstSign (Phrase.of input).raw before digits after ∧ hex.toList = '#' :: digits ∧
      IsWhole digits
  refused : DecidedBy input .color →
    (∀ before digits after, SignAt (Phrase.of input).raw before digits after → ¬ IsWhole digits) →
      read input = .error (.invalid .color .noColor)

/-! ## Number signs -/

theorem SignAt.takeWhile_eq (h : SignAt s before digits after) :
    (digits ++ after).takeWhile Text.isHexDigit = digits := by
  have hrest : after.takeWhile Text.isHexDigit = [] := by
    cases hafter : after with
    | nil => rfl
    | cons c rest => exact List.takeWhile_cons_of_neg (h.ends c (by rw [hafter]; rfl))
  rw [List.takeWhile_append_of_pos h.hex, hrest, List.append_nil]

theorem signAt_takeWhile (h : s = before ++ '#' :: after) :
    SignAt s before (after.takeWhile Text.isHexDigit) (after.dropWhile Text.isHexDigit) := by
  obtain ⟨-, -, -, hends⟩ := Text.dropWhile_eq_iff.1 (rfl : after.dropWhile Text.isHexDigit = _)
  exact ⟨by rw [List.takeWhile_append_dropWhile, h], fun c => List.mem_takeWhile_imp, hends⟩

theorem FirstSign.digits_eq (h : FirstSign s before digits after) (h' : FirstSign s before' digits' after') :
    digits' = digits := by
  have hlength : before'.length = before.length := by
    rcases Nat.lt_trichotomy before'.length before.length with hlt | heq | hlt
    · exact absurd h'.enough (Nat.not_le.2 (h.first _ _ _ h'.toSignAt hlt))
    · exact heq
    · exact absurd h.enough (Nat.not_le.2 (h'.first _ _ _ h.toSignAt hlt))
  obtain ⟨-, hrest⟩ := List.append_inj (h'.text.symm.trans h.text) hlength
  rw [← h'.takeWhile_eq, (List.cons.inj hrest).2, h.takeWhile_eq]

/-! ## What is taken -/

/-- The digits that a literal takes of those that there are. -/
def taken (digits : List Char) : List Char :=
  digits.take (if 6 ≤ digits.length then 6 else 3)

theorem taken_of_isWhole (h : IsWhole digits) : taken digits = digits := by
  rcases h with h | h <;> simp [taken, h, List.take_of_length_le]

theorem hexLiteral?_sign (h : SignAt s before digits after) : hexLiteral? ('#' :: (digits ++ after)) =
    if 3 ≤ digits.length then some ('#' :: taken digits) else none := by
  rw [hexLiteral?, h.takeWhile_eq, taken]
  by_cases hsix : 6 ≤ digits.length
  · rw [if_pos hsix, if_pos (by omega), if_pos hsix, List.take_append_of_le_length hsix]
  · rw [if_neg hsix, if_neg hsix]
    by_cases hthree : 3 ≤ digits.length
    · rw [if_pos hthree, if_pos hthree, List.take_append_of_le_length hthree]
    · rw [if_neg hthree, if_neg hthree]

theorem SignAt.firstSign (h : SignAt s before digits after) (henough : 3 ≤ digits.length)
    (hnone : ∀ n < before.length, hexLiteral? (s.drop n) = none) : FirstSign s before digits after := by
  refine ⟨h, henough, fun before' digits' after' h' hlt => ?_⟩
  have hdrop : s.drop before'.length = '#' :: (digits' ++ after') := by rw [h'.text, List.drop_left]
  have hliteral := hnone before'.length hlt
  rw [hdrop, hexLiteral?_sign h'] at hliteral
  by_contra hmany
  rw [if_pos (Nat.not_lt.1 hmany)] at hliteral
  cases hliteral

theorem eq_sign_of_hexLiteral? (h : hexLiteral? s = some hex) : ∃ rest, s = '#' :: rest := by
  obtain ⟨digits, rest, rfl, -⟩ := hexLiteral?_eq_some_iff.1 h
  exact ⟨_, rfl⟩

/-- The literal of a text is taken of the digits after the first number sign that has enough. -/
theorem firstMatch_hexLiteral?_iff : Text.firstMatch hexLiteral? s = some hex ↔
    ∃ before digits after, FirstSign s before digits after ∧ hex = '#' :: taken digits := by
  rw [Text.firstMatch_eq_some_iff fun _ _ => Iff.rfl]
  constructor
  · rintro ⟨before, rest, hs, -, hhex, hnone⟩
    obtain ⟨rest, rfl⟩ := eq_sign_of_hexLiteral? hhex
    have hsign := signAt_takeWhile hs
    rw [← List.takeWhile_append_dropWhile (p := Text.isHexDigit) (l := rest), hexLiteral?_sign hsign] at hhex
    obtain ⟨henough, heq⟩ := Option.ite_none_right_eq_some.1 hhex
    refine ⟨before, _, _, hsign.firstSign henough fun n hn => ?_, (Option.some.inj heq).symm⟩
    exact Option.eq_none_iff_forall_ne_some.2 (hnone n hn)
  · rintro ⟨before, digits, after, hsign, rfl⟩
    refine ⟨before, _, hsign.text, fun _ _ => trivial, ?_, fun n hn hex hhex => ?_⟩
    · exact (hexLiteral?_sign hsign.toSignAt).trans (if_pos hsign.enough)
    · obtain ⟨rest, hrest⟩ := eq_sign_of_hexLiteral? hhex
      have hs : s = s.take n ++ '#' :: rest := by rw [← hrest, List.take_append_drop]
      have hsign' := signAt_takeWhile hs
      have hlength : (s.take n).length < before.length := by
        rw [List.length_take]
        omega
      have hfew := hsign.first _ _ _ hsign' hlength
      rw [hrest, ← List.takeWhile_append_dropWhile (p := Text.isHexDigit) (l := rest), hexLiteral?_sign hsign',
        if_neg (Nat.not_le.2 hfew)] at hhex
      cases hhex

/-! ## Commands -/

/-- A command that the rule for colours decides is read with its first literal, or refused for having none. -/
theorem read_color (h : DecidedBy input .color) :
    (∀ hex, Text.firstMatch hexLiteral? (Phrase.of input).raw = some hex →
      ∃ color, read input = .ok (.color, .setColor (String.ofList hex) color)) ∧
    (Text.firstMatch hexLiteral? (Phrase.of input).raw = none → read input = .error (.invalid .color .noColor)) := by
  obtain ⟨reading, hanswer⟩ := h
  have hread := (read_eq_answer_iff.1 hanswer).1
  obtain ⟨-, hread⟩ := Option.ite_none_right_eq_some.1 hread
  rw [hanswer]
  refine ⟨fun hex hhex => ?_, fun hnone => ?_⟩
  · obtain ⟨t, -, hliteral⟩ := Text.exists_suffix_of_firstMatch hhex
    obtain ⟨color, hcolor⟩ := (hexLiteral?_eq_some_iff.1 hliteral).exists_ofChars?
    rw [hhex, Option.bind_some, hcolor] at hread
    obtain rfl := Option.some.inj hread
    exact ⟨color, rfl⟩
  · rw [hnone] at hread
    obtain rfl := Option.some.inj hread
    rfl

/-- A command takes whole literals only just if, should the rule for colours decide it, the first number sign with
enough digits for a literal has three or six of them. -/
theorem takesWholeColor_iff (input : String) :
    TakesWholeColor input ↔ (DecidedBy input .color →
      ∀ before digits after, FirstSign (Phrase.of input).raw before digits after → IsWhole digits) := by
  constructor
  · intro h hdecided before digits after hsign
    obtain ⟨color, hread⟩ := (read_color hdecided).1 _ (firstMatch_hexLiteral?_iff.2 ⟨_, _, _, hsign, rfl⟩)
    obtain ⟨before', digits', after', hsign', -, hwhole⟩ := h.whole _ _ hread
    rwa [← hsign.digits_eq hsign']
  · refine fun h => ⟨fun hex color hread => ?_, fun hdecided hnone => (read_color hdecided).2 ?_⟩
    · have hdecided : DecidedBy input .color := ⟨.ok (.setColor hex color), hread⟩
      cases hfound : Text.firstMatch hexLiteral? (Phrase.of input).raw with
      | none =>
        rw [(read_color hdecided).2 hfound] at hread
        cases hread
      | some found =>
        obtain ⟨before, digits, after, hsign, rfl⟩ := firstMatch_hexLiteral?_iff.1 hfound
        obtain ⟨color', hread'⟩ := (read_color hdecided).1 _ hfound
        have hwhole := h hdecided _ _ _ hsign
        have hhex : String.ofList ('#' :: taken digits) = hex := by
          rw [hread] at hread'
          cases hread'
          rfl
        exact ⟨before, digits, after, hsign, by rw [← hhex, String.toList_ofList, taken_of_isWhole hwhole], hwhole⟩
    · cases hfound : Text.firstMatch hexLiteral? (Phrase.of input).raw with
      | none => rfl
      | some found =>
        obtain ⟨before, digits, after, hsign, -⟩ := firstMatch_hexLiteral?_iff.1 hfound
        exact absurd (h hdecided _ _ _ hsign) (hnone _ _ _ hsign.toSignAt)

/-- Among other number signs a literal of three digits is taken whole. -/
theorem takesWholeColor_among :
    read "색상 변경 #1 ##f0a-#aabbccdd" =
        .ok (.color, .setColor "#f0a" ⟨Color.channel 0xFF, Color.channel 0x00, Color.channel 0xAA⟩) ∧
      TakesWholeColor "색상 변경 #1 ##f0a-#aabbccdd" := by
  have hsign : SignAt (Phrase.of "색상 변경 #1 ##f0a-#aabbccdd").raw "색상 변경 #1 #".toList "f0a".toList
      "-#aabbccdd".toList := by
    refine ⟨by decide, List.all_eq_true.1 (by decide), ?_⟩
    rintro _ ⟨⟩
    decide
  have hfirst := hsign.firstSign (by decide) (by decide)
  refine ⟨by decide +kernel, (takesWholeColor_iff _).2 fun _ before digits after h => ?_⟩
  rw [hfirst.digits_eq h]
  decide

/-- Of five digits the first three are taken for a colour. -/
theorem not_takesWholeColor_five :
    FirstSign (Phrase.of "color #12345").raw "color ".toList "12345".toList [] ∧
      read "color #12345" =
        .ok (.color, .setColor "#123" ⟨Color.channel 0x11, Color.channel 0x22, Color.channel 0x33⟩) ∧
      ¬ TakesWholeColor "color #12345" := by
  have hsign : SignAt (Phrase.of "color #12345").raw "color ".toList "12345".toList [] :=
    ⟨by decide, List.all_eq_true.1 (by decide), nofun⟩
  have hfirst := hsign.firstSign (by decide) (by decide)
  have hread : read "color #12345" =
      .ok (.color, .setColor "#123" ⟨Color.channel 0x11, Color.channel 0x22, Color.channel 0x33⟩) := by decide +kernel
  refine ⟨hfirst, hread, fun h => ?_⟩
  obtain ⟨before, digits, after, hsign', -, hwhole⟩ := h.whole _ _ hread
  rw [hfirst.digits_eq hsign'] at hwhole
  exact absurd hwhole (by decide)

end DesignCanvas.Command
