import DesignCanvas.Command.Reading
import DesignCanvas.Proofs.Text.Numerals

/-!
# Literals of colours

What the literal of a colour is in a text (`hexLiteral?_eq_some_iff`). Every literal is the literal of some colour
(`HexLiteral.exists_ofChars?`).
-/

namespace DesignCanvas.Command

variable {s hex digits : List Char}

/-- A number sign with six hexadecimal digits, or with three that do not go on to be six. -/
def HexLiteral (s hex : List Char) : Prop :=
  ∃ digits rest, s = '#' :: (digits ++ rest) ∧ hex = '#' :: digits ∧ (∀ c ∈ digits, Text.isHexDigit c) ∧
    (digits.length = 6 ∨ digits.length = 3 ∧ (rest.takeWhile Text.isHexDigit).length < 3)

theorem takeWhile_eq_take_append {q : Char → Bool} {n : Nat} (h : n ≤ (s.takeWhile q).length) :
    s.takeWhile q = s.take n ++ (s.drop n).takeWhile q ∧ (s.take n).length = n ∧ ∀ c ∈ s.take n, q c := by
  have htake : s.take n = (s.takeWhile q).take n := by
    conv_lhs => rw [← List.takeWhile_append_dropWhile (p := q) (l := s)]
    exact List.take_append_of_le_length h
  have hall : ∀ c ∈ s.take n, q c := fun c hc => List.mem_takeWhile_imp (List.mem_of_mem_take (htake ▸ hc))
  refine ⟨?_, htake ▸ List.length_take_of_le h, hall⟩
  conv_lhs => rw [← List.take_append_drop n s]
  exact List.takeWhile_append_of_pos hall

theorem hexLiteral?_eq_some_iff : hexLiteral? s = some hex ↔ HexLiteral s hex := by
  constructor
  · intro h
    unfold hexLiteral? at h
    split at h
    · next s =>
      split at h
      · next hsix =>
        obtain rfl := Option.some.inj h
        obtain ⟨-, hlength, hall⟩ := takeWhile_eq_take_append hsix
        exact ⟨_, _, by rw [List.take_append_drop], rfl, hall, Or.inl hlength⟩
      · next hsix =>
        obtain ⟨hthree, heq⟩ := Option.ite_none_right_eq_some.1 h
        obtain rfl := Option.some.inj heq
        obtain ⟨hsplit, hlength, hall⟩ := takeWhile_eq_take_append hthree
        rw [hsplit, List.length_append] at hsix
        exact ⟨_, _, by rw [List.take_append_drop], rfl, hall, Or.inr ⟨hlength, by omega⟩⟩
    · cases h
  · rintro ⟨digits, rest, rfl, rfl, hall, hlength⟩
    rw [hexLiteral?, List.takeWhile_append_of_pos hall, List.length_append]
    rcases hlength with hlength | ⟨hlength, hrest⟩
    · rw [if_pos (by omega), List.take_left' hlength]
    · rw [if_neg (by omega), if_pos (by omega), List.take_left' hlength]

theorem HexLiteral.begins (h : HexLiteral s hex) : hex <+: s := by
  obtain ⟨digits, rest, rfl, rfl, -⟩ := h
  exact List.cons_prefix_cons.2 ⟨rfl, List.prefix_append _ _⟩

theorem HexLiteral.exists_digits (h : HexLiteral s hex) :
    ∃ digits, hex = '#' :: digits ∧ (digits.length = 3 ∨ digits.length = 6) ∧ ∀ c ∈ digits, Text.isHexDigit c := by
  obtain ⟨digits, rest, -, rfl, hall, hlength⟩ := h
  exact ⟨digits, rfl, hlength.symm.imp_left And.left, hall⟩

theorem hexLiteral_whole (hlength : digits.length = 3 ∨ digits.length = 6) (hall : ∀ c ∈ digits, Text.isHexDigit c) :
    HexLiteral ('#' :: digits) ('#' :: digits) :=
  ⟨digits, [], by rw [List.append_nil], rfl, hall, hlength.symm.imp_right fun h => ⟨h, by decide⟩⟩

/-! ## The colour of a literal -/

def hexDigits : List Char :=
  Text.plainDigits ++ "abcdefABCDEF".toList

theorem mem_hexDigits {c : Char} (h : Text.isHexDigit c) : c ∈ hexDigits := by
  have hall : ∀ n < 103, Text.isHexDigit (Char.ofNat n) → Char.ofNat n ∈ hexDigits := by decide
  have hlt : c.toNat < 103 := by
    simp only [Text.isHexDigit, Text.isPlainDigit, Bool.or_eq_true, Bool.and_eq_true, decide_eq_true_eq] at h
    rcases h with (⟨-, h⟩ | ⟨-, h⟩) | ⟨-, h⟩ <;>
    · have hle := UInt32.le_iff_toNat_le.1 h
      exact Nat.lt_of_le_of_lt hle (by decide)
  have hmem := hall c.toNat hlt
  rw [Char.ofNat_toNat] at hmem
  exact hmem h

theorem literal_marks (hdigits : ∀ c ∈ digits, Text.isHexDigit c) : '#' :: digits ⊆ '#' :: hexDigits :=
  List.cons_subset_cons _ fun _ hc => mem_hexDigits (hdigits _ hc)

theorem not_isBlank_literal (hdigits : ∀ c ∈ digits, Text.isHexDigit c) : ∀ c ∈ '#' :: digits, ¬ Text.isBlank c := by
  have hmarks : ∀ c ∈ '#' :: hexDigits, ¬ Text.isBlank c := List.all_iff_forall_prop.1 (by decide)
  exact fun c hc => hmarks c (literal_marks hdigits hc)

theorem hexPart_literal (hdigits : ∀ c ∈ digits, Text.isHexDigit c) : Color.hexPart ('#' :: digits) = digits := by
  have hblank := not_isBlank_literal hdigits
  have htrim : Text.trim ('#' :: digits) = '#' :: digits :=
    Text.trim_eq_self_iff.2
      ⟨fun c hc => hblank c (List.mem_of_head? hc), fun c hc => hblank c (List.mem_of_getLast? hc)⟩
  rw [Color.hexPart, htrim]
  refine Text.dropWhile_eq_iff.2 ⟨['#'], rfl, by simp, fun c hc heq => ?_⟩
  have hhex := hdigits c (List.mem_of_head? hc)
  rw [of_decide_eq_true heq] at hhex
  exact absurd hhex (by decide)

theorem exists_ofDigits? (h : digits.length = 3 ∨ digits.length = 6) :
    ∃ color, Color.ofDigits? digits = some color := by
  rcases h with h | h
  · obtain ⟨r, g, b, rfl⟩ := List.length_eq_three.1 h
    exact ⟨_, rfl⟩
  · match digits, h with
    | [r, r', g, g', b, b'], _ => exact ⟨_, rfl⟩

theorem HexLiteral.exists_ofChars? (h : HexLiteral s hex) : ∃ color, Color.ofChars? hex = some color := by
  obtain ⟨digits, rfl, hlength, hdigits⟩ := h.exists_digits
  obtain ⟨color, hcolor⟩ := exists_ofDigits? hlength
  refine ⟨color, ?_⟩
  rw [Color.ofChars?, hexPart_literal hdigits, if_pos (List.all_eq_true.2 hdigits), hcolor]

end DesignCanvas.Command
