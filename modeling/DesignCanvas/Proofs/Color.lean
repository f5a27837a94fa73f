import DesignCanvas.Proofs.Command.Caseless
import DesignCanvas.Proofs.Command.Literals

/-!
# Texts of colours

A text is a colour if three or six hexadecimal digits are left without the blanks around it and the number signs in
front. Such digits have one byte each, so they can be cut at their bytes (`Color.cut?_eq`). The text of a colour has the
six digits in lower case, for a channel keeps its eight bits (`Color.byte_channel`); so it is read as the same colour
(`Color.ofHex?_codec`).
-/

namespace DesignCanvas

open Command (hexDigits mem_hexDigits hexPart_literal exists_ofDigits?)

namespace Text

variable {s : List Char} {c : Char}

/-! ## Cutting at bytes -/

/-- The part of a text between two offsets in bytes, both of which have to be between characters. -/
def slice? (s : String) (first last : Nat) : Option String := do
  let i ← s.pos? ⟨first⟩
  let j ← s.pos? ⟨last⟩
  (s.slice? i j).map String.Slice.copy

example : slice? "añb" 1 3 = some "ñ" ∧ slice? "añb" 1 2 = none ∧ slice? "añb" 3 5 = none := by decide

theorem exists_pos? {s t u : String} (h : s = t ++ u) : ∃ p : s.Pos, s.pos? ⟨t.utf8ByteSize⟩ = some p ∧ p.Splits t u := by
  have hvalid : (⟨t.utf8ByteSize⟩ : String.Pos.Raw).IsValid s :=
    String.Pos.Raw.isValid_iff_exists_append.2 ⟨t, u, h, rfl⟩
  have hslice : (⟨t.utf8ByteSize⟩ : String.Pos.Raw).isValidForSlice s.toSlice := by simpa using hvalid
  refine ⟨⟨_, hvalid⟩, ?_, ⟨h, rfl⟩⟩
  simp only [String.pos?, String.Slice.pos?, hslice, dif_pos, Option.map_some]
  rfl

theorem slice?_append (t s u : String) :
    slice? (t ++ s ++ u) t.utf8ByteSize (t.utf8ByteSize + s.utf8ByteSize) = some s := by
  obtain ⟨i, hi, hbefore⟩ := exists_pos? (String.append_assoc : t ++ s ++ u = t ++ (s ++ u))
  obtain ⟨j, hj, hafter⟩ := exists_pos? (rfl : t ++ s ++ u = t ++ s ++ u)
  obtain ⟨hle, hcopy⟩ := String.copy_slice_eq_iff_splits.2 ⟨t, u, hbefore, hafter⟩
  rw [String.utf8ByteSize_append] at hj
  rw [slice?, hi, hj]
  change Option.map String.Slice.copy (String.slice? _ i j) = some s
  rw [String.slice?, dif_pos hle, Option.map_some, hcopy]

/-! ## Hexadecimal digits -/

/-- The place of a hexadecimal digit among the sixteen of them. -/
def hexRank (c : Char) : Nat :=
  "0123456789abcdef".toList.idxOf c.toLower

/-- The number that hexadecimal digits write, if it has no more than eight bits. -/
def hexNumber? (s : String) : Option Nat :=
  let n := s.toList.foldl (fun n c => 16 * n + hexValue c) 0
  if s ≠ "" ∧ s.toList.all isHexDigit ∧ n < 256 then some n else none

theorem isHexDigit_iff : isHexDigit c ↔ c ∈ hexDigits := by
  have hall : hexDigits.all isHexDigit := by decide
  exact ⟨mem_hexDigits, List.all_eq_true.1 hall c⟩

theorem hexValue_of_isHexDigit (h : isHexDigit c) : hexValue c = hexRank c ∧ hexValue c < 16 := by
  have hall : hexDigits.all fun c => hexValue c = hexRank c ∧ hexValue c < 16 := by decide
  exact of_decide_eq_true (List.all_eq_true.1 hall c (mem_hexDigits h))

theorem hexDigit_hexValue (h : isHexDigit c) : hexDigit (hexValue c) = c.toLower := by
  have hall : hexDigits.all fun c => hexDigit (hexValue c) = c.toLower := by decide
  exact of_decide_eq_true (List.all_eq_true.1 hall c (mem_hexDigits h))

theorem utf8ByteSize_ofList_hex (hs : ∀ c ∈ s, isHexDigit c) : (String.ofList s).utf8ByteSize = s.length := by
  have hall : hexDigits.all fun c => c.utf8Size = 1 := by decide
  induction s with
  | nil => rfl
  | cons c s ih =>
    obtain ⟨hc, hs⟩ := List.forall_mem_cons.1 hs
    rw [← List.singleton_append, String.ofList_append, String.utf8ByteSize_append, ih hs, ← String.singleton_eq_ofList,
      String.utf8ByteSize_singleton, of_decide_eq_true (List.all_eq_true.1 hall c (mem_hexDigits hc)),
      List.length_append, List.length_singleton]

theorem slice?_hex {before part after : List Char} (hs : ∀ c ∈ before ++ part ++ after, isHexDigit c) :
    slice? (String.ofList (before ++ part ++ after)) before.length (before.length + part.length) =
      some (String.ofList part) := by
  rw [List.forall_mem_append, List.forall_mem_append] at hs
  have hslice := slice?_append (String.ofList before) (String.ofList part) (String.ofList after)
  rwa [utf8ByteSize_ofList_hex hs.1.1, utf8ByteSize_ofList_hex hs.1.2, ← String.ofList_append,
    ← String.ofList_append] at hslice

end Text

namespace Color

open Text (isHexDigit hexRank slice? hexNumber? lowerPlain)

variable {s : String} {digits : List Char} {c : Color} {h l : Char}

/-! ## Colours that are cut at bytes -/

/-- The channel that two digits from an offset in bytes on write. Without a result, they could not be cut out; it is
`none` if they are no digits. -/
def channelAt (digits : String) (first : Nat) : OptionT Option Float :=
  (slice? digits first (first + 2)).map fun pair => (hexNumber? pair).map channel

/-- Six digits; each digit of three stands for two. -/
def sixDigits (digits : List Char) : List Char :=
  if digits.length = 3 then digits.flatMap fun d => [d, d] else digits

/-- Reads a colour by its bytes. Without a result, something could not be cut out; it is `none` if the text is no
colour. -/
def cut? (s : String) : OptionT Option Color :=
  let digits := hexPart s.toList
  let size := (String.ofList digits).utf8ByteSize
  if digits.all isHexDigit ∧ (size = 3 ∨ size = 6) then do
    let six := String.ofList (sixDigits digits)
    return ⟨← channelAt six 0, ← channelAt six 2, ← channelAt six 4⟩
  else failure

theorem pairValue_lt (hh : isHexDigit h) (hl : isHexDigit l) : pairValue h l < 256 := by
  have hhigh := (Text.hexValue_of_isHexDigit hh).2
  have hlow := (Text.hexValue_of_isHexDigit hl).2
  rw [pairValue]
  omega

theorem hexNumber?_pair (hh : isHexDigit h) (hl : isHexDigit l) :
    hexNumber? (String.ofList [h, l]) = some (pairValue h l) := by
  have hlt := pairValue_lt hh hl
  rw [pairValue] at hlt
  simp [hexNumber?, pairValue, hh, hl, hlt]

theorem channelAt_eq (before after : List Char) (hdigits : ∀ c ∈ before ++ [h, l] ++ after, isHexDigit c) :
    channelAt (String.ofList (before ++ [h, l] ++ after)) before.length = pure (channel (pairValue h l)) := by
  have hslice := Text.slice?_hex hdigits
  have hh : isHexDigit h := hdigits h (by simp)
  have hl : isHexDigit l := hdigits l (by simp)
  have htwo : before.length + [h, l].length = before.length + 2 := rfl
  rw [channelAt, ← htwo, hslice, Option.map_some, hexNumber?_pair hh hl]
  rfl

theorem exists_of_length_six (hlength : digits.length = 6) :
    ∃ r r' g g' b b', digits = [r, r', g, g', b, b'] := by
  match digits, hlength with
  | [r, r', g, g', b, b'], _ => exact ⟨r, r', g, g', b, b', rfl⟩

theorem sixDigits_spec (hlength : digits.length = 3 ∨ digits.length = 6) :
    (sixDigits digits).length = 6 ∧ ofDigits? (sixDigits digits) = ofDigits? digits ∧ sixDigits digits ⊆ digits := by
  rcases hlength with hlength | hlength
  · obtain ⟨r, g, b, rfl⟩ := List.length_eq_three.1 hlength
    exact ⟨rfl, rfl, by simp [sixDigits]⟩
  · rw [sixDigits, if_neg (by omega)]
    exact ⟨hlength, rfl, List.Subset.refl _⟩

theorem ofDigits?_isSome : (ofDigits? digits).isSome ↔ digits.length = 3 ∨ digits.length = 6 := by
  refine ⟨fun hsome => ?_, fun hlength => ?_⟩
  · unfold ofDigits? at hsome
    split at hsome
    · exact .inl rfl
    · exact .inr rfl
    · cases hsome
  · obtain ⟨c, hc⟩ := exists_ofDigits? hlength
    rw [hc]
    rfl

theorem ofDigits?_eq (hlength : digits.length = 3 ∨ digits.length = 6) :
    ∃ r r' g g' b b', sixDigits digits = [r, r', g, g', b, b'] ∧
      ofDigits? digits = some ⟨channel (pairValue r r'), channel (pairValue g g'), channel (pairValue b b')⟩ := by
  obtain ⟨hsix, hsame, -⟩ := sixDigits_spec hlength
  obtain ⟨r, r', g, g', b, b', heq⟩ := exists_of_length_six hsix
  refine ⟨r, r', g, g', b, b', heq, ?_⟩
  rw [← hsame, heq]
  rfl

/-- To cut digits at their bytes never fails, and gives the colour that they are read as. -/
theorem cut?_eq (s : String) : (cut? s).run = some (ofHex? s) := by
  by_cases hall : (hexPart s.toList).all isHexDigit
  · have hdigits := List.all_eq_true.1 hall
    rw [cut?, ofHex?, ofChars?]
    dsimp only
    rw [Text.utf8ByteSize_ofList_hex hdigits, if_pos hall]
    by_cases hlength : (hexPart s.toList).length = 3 ∨ (hexPart s.toList).length = 6
    · rw [if_pos ⟨hall, hlength⟩]
      obtain ⟨r, r', g, g', b, b', hsix, hcolor⟩ := ofDigits?_eq hlength
      have hhex : ∀ d ∈ [r, r', g, g', b, b'], isHexDigit d := by
        intro d hd
        exact hdigits d ((sixDigits_spec hlength).2.2 (hsix ▸ hd))
      have hr : channelAt (String.ofList [r, r', g, g', b, b']) 0 = pure (channel (pairValue r r')) :=
        channelAt_eq [] [g, g', b, b'] hhex
      have hg : channelAt (String.ofList [r, r', g, g', b, b']) 2 = pure (channel (pairValue g g')) :=
        channelAt_eq [r, r'] [b, b'] hhex
      have hb : channelAt (String.ofList [r, r', g, g', b, b']) 4 = pure (channel (pairValue b b')) :=
        channelAt_eq [r, r', g, g'] [] hhex
      rw [hsix, hcolor, hr, hg, hb]
      rfl
    · have hnone : ofDigits? (hexPart s.toList) = none :=
        Option.not_isSome_iff_eq_none.1 (mt ofDigits?_isSome.1 hlength)
      rw [if_neg fun h => hlength h.2, hnone]
      rfl
  · rw [cut?, ofHex?, ofChars?]
    dsimp only
    rw [if_neg hall, if_neg fun h => hall h.1]
    rfl

/-! ## The text of a colour -/

theorem byte_channel {n : Nat} (hn : n < 256) : byte (channel n) = n := by
  have hall : ∀ n < 256, byte (channel n) = n := by decide +kernel
  exact hall n hn

theorem hexByte_channel (hh : isHexDigit h) (hl : isHexDigit l) :
    Text.hexByte (byte (channel (pairValue h l))) = [h.toLower, l.toLower] := by
  have hlow := (Text.hexValue_of_isHexDigit hl).2
  have hdiv : pairValue h l / 16 = Text.hexValue h := by
    rw [pairValue]
    omega
  have hmod : pairValue h l % 16 = Text.hexValue l := by
    rw [pairValue]
    omega
  rw [byte_channel (pairValue_lt hh hl), Text.hexByte, hdiv, hmod, Text.hexDigit_hexValue hh, Text.hexDigit_hexValue hl]

theorem pairValue_eq (hh : isHexDigit h) (hl : isHexDigit l) : pairValue h l = 16 * hexRank h + hexRank l := by
  rw [pairValue, (Text.hexValue_of_isHexDigit hh).1, (Text.hexValue_of_isHexDigit hl).1]

theorem ofHex?_eq_some : ofHex? s = some c ↔
    (∀ d ∈ hexPart s.toList, isHexDigit d) ∧ ofDigits? (hexPart s.toList) = some c := by
  rw [ofHex?, ofChars?, Option.ite_none_right_eq_some, List.all_eq_true]

/-- What the text of a colour says about it: the digits of its channels, and how it is written. -/
structure Written (digits : List Char) (c : Color) : Prop where
  /-- Each channel is the value of its two digits out of 255. -/
  channels : ∃ r r' g g' b b', sixDigits digits = [r, r', g, g', b, b'] ∧
    c = ⟨channel (16 * hexRank r + hexRank r'), channel (16 * hexRank g + hexRank g'),
      channel (16 * hexRank b + hexRank b')⟩
  /-- The text of the colour has the six digits, in lower case. -/
  text : c.toHex = String.ofList ('#' :: (sixDigits digits).map Char.toLower)
  /-- It is read as the colour. -/
  readBack : ofHex? c.toHex = some c

theorem written_of_ofHex? (h : ofHex? s = some c) : Written (hexPart s.toList) c := by
  obtain ⟨hdigits, hcolor⟩ := ofHex?_eq_some.1 h
  have hlength := ofDigits?_isSome.1 (Option.isSome_of_eq_some hcolor)
  obtain ⟨r, r', g, g', b, b', hsix, heq⟩ := ofDigits?_eq hlength
  obtain rfl := Option.some.inj (heq.symm.trans hcolor)
  obtain ⟨-, hsame, hsub⟩ := sixDigits_spec hlength
  have hhex : ∀ d ∈ [r, r', g, g', b, b'], isHexDigit d := fun d hd => hdigits d (hsub (hsix ▸ hd))
  simp only [List.forall_mem_cons] at hhex
  obtain ⟨hr, hr', hg, hg', hb, hb', -⟩ := hhex
  have htext : Color.toHex ⟨channel (pairValue r r'), channel (pairValue g g'), channel (pairValue b b')⟩ =
      String.ofList ('#' :: lowerPlain (sixDigits (hexPart s.toList))) := by
    rw [toHex, Color.digits, hexByte_channel hr hr', hexByte_channel hg hg', hexByte_channel hb hb', hsix]
    rfl
  refine ⟨⟨r, r', g, g', b, b', hsix, ?_⟩, htext, ?_⟩
  · rw [pairValue_eq hr hr', pairValue_eq hg hg', pairValue_eq hb hb']
  · have hlower : ∀ d ∈ lowerPlain (sixDigits (hexPart s.toList)), isHexDigit d := by
      intro d hd
      obtain ⟨upper, hupper, rfl⟩ := List.mem_map.1 hd
      rw [Text.caseless_isHexDigit]
      exact hdigits upper (hsub hupper)
    rw [htext, ofHex?_eq_some, String.toList_ofList, hexPart_literal hlower, ofDigits?_lowerPlain, hsame]
    exact ⟨hlower, hcolor⟩

/-- To read a colour never fails at a cut. It succeeds just if three or six hexadecimal digits are left without the
blanks around the text and the number signs in front, and then the colour is that of the digits. -/
theorem ofHex?_codec (s : String) :
    (cut? s).run = some (ofHex? s) ∧
      ((ofHex? s).isSome ↔ ((hexPart s.toList).length = 3 ∨ (hexPart s.toList).length = 6) ∧
        ∀ d ∈ hexPart s.toList, d ∈ hexDigits) ∧
      ∀ c, ofHex? s = some c → Written (hexPart s.toList) c := by
  refine ⟨cut?_eq s, ?_, fun c => written_of_ofHex?⟩
  rw [Option.isSome_iff_exists]
  simp only [ofHex?_eq_some, Text.isHexDigit_iff]
  rw [exists_and_left, ← Option.isSome_iff_exists, ofDigits?_isSome, and_comm]

/-- Three digits after two number signs, between blanks. -/
theorem ofHex?_codec_short :
    let s := "\t ##0aF "
    ∃ c, ofHex? s = some c ∧ Written (hexPart s.toList) c ∧ c.toHex = "#00aaff" := by
  intro s
  obtain ⟨-, hsome, hwritten⟩ := ofHex?_codec s
  have hdigits : (hexPart s.toList).all (· ∈ hexDigits) := by decide
  have hshort : ∀ d ∈ hexPart s.toList, d ∈ hexDigits := fun d hd => of_decide_eq_true (List.all_eq_true.1 hdigits d hd)
  obtain ⟨c, hc⟩ := Option.isSome_iff_exists.1 (hsome.2 ⟨by decide, hshort⟩)
  have hsix : String.ofList ('#' :: (sixDigits (hexPart s.toList)).map Char.toLower) = "#00aaff" := by decide
  exact ⟨c, hc, hwritten c hc, (hwritten c hc).text.trans hsix⟩

end Color

end DesignCanvas
