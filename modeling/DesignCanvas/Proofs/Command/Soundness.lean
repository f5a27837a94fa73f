import DesignCanvas.Proofs.Command.Arrows
import DesignCanvas.Proofs.Command.Literals

/-!
# Sound intents

What the intent of a command can be relied on for without another look at the command (`read_sound`): texts to search
for are not empty, literals of colours are in the command and are read as the colour, numbers are within their limits.
-/

namespace DesignCanvas.Command

variable {input : String} {rule : Rule} {intent : Intent} {p : Phrase} {s hex run : List Char}

/-- What holds of an intent that a rule reads from a command. -/
def Sound (input : String) (rule : Rule) : Intent → Prop
  | .replaceText search replacement =>
    rule = .searchReplace ∧ search ≠ "" ∧ Text.trimmed search = search ∧ '>' ∉ search.toList ∧
      Text.trimmed replacement = replacement ∧ '>' ∉ replacement.toList
  | .replaceAllText text =>
    (rule = .quotedText ∧ text ≠ "" ∧ '\n' ∉ text.toList) ∨ (rule = .replaceAll ∧ Text.trimmed text = text)
  | .setColor hex color =>
    (∃ digits, hex.toList = '#' :: digits ∧ (digits.length = 3 ∨ digits.length = 6) ∧
      ∀ c ∈ digits, Text.isHexDigit c) ∧ hex.toList <:+: input.toList ∧ Color.ofHex? hex = some color
  | .setOpacity percent => percent ≤ 100
  | .rename name => name ≠ "" ∧ '\n' ∉ name.toList
  | .resizeWidth n | .resizeHeight n | .setFontSize n | .setCornerRadius n => n < numberLimit
  | .move dx dy => (-offsetLimit ≤ dx ∧ dx < offsetLimit) ∧ -offsetLimit ≤ dy ∧ dy < offsetLimit
  | .duplicate | .delete | .reveal | .hide => True

/-! ## Texts -/

theorem ofList_ne_empty (h : s ≠ []) : String.ofList s ≠ "" := by
  rw [Ne, String.ofList_eq_empty_iff]
  exact h

theorem trimmed_ofList_trim (s : List Char) :
    Text.trimmed (String.ofList (Text.trim s)) = String.ofList (Text.trim s) := by
  rw [Text.trimmed, String.toList_ofList, Text.trim_trim]

theorem notMem_ofList_trim {c : Char} (h : c ∉ s) : c ∉ (String.ofList (Text.trim s)).toList := by
  rw [String.toList_ofList]
  exact fun hmem => h ((Text.trim_isInfix s).subset hmem)

theorem newName?_spec {name : List Char} (h : newName? s = some name) : name ≠ [] ∧ '\n' ∉ name := by
  unfold newName? at h
  split at h
  · cases h
  · exact Text.quoted?_spec h

/-! ## Numbers -/

theorem number_lt {n : Nat} (h : number run = .ok n) : n < numberLimit := by
  unfold number at h
  split at h
  · split at h
    · next hlt =>
      obtain rfl := Except.ok.inj h
      exact hlt
    · cases h
  · cases h

theorem offset_bounds {n : Int} (h : offset run = .ok n) : -offsetLimit ≤ n ∧ n < offsetLimit := by
  unfold offset at h
  split at h
  · split at h
    · next hbounds =>
      obtain rfl := Except.ok.inj h
      exact hbounds
    · cases h
  · cases h

theorem percent_le (run : List Char) : percent run ≤ 100 := by
  unfold percent
  cases Text.plainNat? run with
  | none => exact Nat.le_refl _
  | some n => exact Nat.min_le_left _ _

theorem exists_of_map_number {f : Nat → Intent} (h : (number run).map f = .ok intent) :
    ∃ n < numberLimit, f n = intent := by
  cases hnumber : number run with
  | error fault =>
    rw [hnumber] at h
    cases h
  | ok n =>
    rw [hnumber] at h
    exact ⟨n, number_lt hnumber, Except.ok.inj h⟩

theorem exists_of_readNumber {words : List String} {f : Nat → Intent}
    (h : readNumber words f p = some (.ok intent)) : ∃ n < numberLimit, f n = intent := by
  obtain ⟨run, -, hnumber⟩ := Option.map_eq_some_iff.1 h
  exact exists_of_map_number hnumber

theorem exists_of_readFontSize (h : readFontSize p = some (.ok intent)) :
    ∃ n < numberLimit, .setFontSize n = intent := by
  unfold readFontSize at h
  split at h
  · exact exists_of_map_number (Option.some.inj h)
  · obtain ⟨-, h⟩ := Option.ite_none_right_eq_some.1 h
    split at h
    · exact exists_of_map_number (Option.some.inj h)
    · cases h

theorem exists_of_readMove (h : readMove p = some (.ok intent)) :
    ∃ dx dy, (-offsetLimit ≤ dx ∧ dx < offsetLimit) ∧ (-offsetLimit ≤ dy ∧ dy < offsetLimit) ∧
      .move dx dy = intent := by
  obtain ⟨⟨run, run'⟩, -, h⟩ := Option.map_eq_some_iff.1 h
  dsimp only at h
  cases hdx : offset run with
  | error fault =>
    rw [hdx] at h
    cases h
  | ok dx =>
    cases hdy : offset run' with
    | error fault =>
      rw [hdx, hdy] at h
      cases h
    | ok dy =>
      rw [hdx, hdy] at h
      exact ⟨dx, dy, offset_bounds hdx, offset_bounds hdy, Except.ok.inj h⟩

/-! ## All rules -/

theorem readSearchReplace_sound (h : readSearchReplace (.of input) = some (.ok intent)) :
    Sound input .searchReplace intent := by
  have hcases := readSearchReplace_cases (Text.trim_trim _) h
  obtain h | ⟨search, replacement, hsearch, hreplacement, hne, h⟩ := hcases
  · cases h
  · obtain rfl := Except.ok.inj h
    exact ⟨rfl, ofList_ne_empty hne, trimmed_ofList_trim _, notMem_ofList_trim hsearch, trimmed_ofList_trim _,
      notMem_ofList_trim hreplacement⟩

theorem readReplaceAll_sound (h : readReplaceAll p = some (.ok intent)) : Sound input .replaceAll intent := by
  unfold readReplaceAll at h
  split at h
  · obtain rfl := Except.ok.inj (Option.some.inj h)
    exact Or.inr ⟨rfl, trimmed_ofList_trim _⟩
  · cases h

theorem readQuotedText_sound (h : readQuotedText p = some (.ok intent)) : Sound input .quotedText intent := by
  obtain ⟨-, h⟩ := Option.ite_none_right_eq_some.1 h
  split at h
  · next text htext =>
    obtain rfl := Except.ok.inj (Option.some.inj h)
    obtain ⟨t, -, hquoted⟩ := Text.exists_suffix_of_firstMatch htext
    obtain ⟨hne, hline⟩ := Text.quoted?_spec hquoted
    exact Or.inl ⟨rfl, ofList_ne_empty hne, by rwa [String.toList_ofList]⟩
  · cases h

theorem readColor_sound (h : readColor (.of input) = some (.ok intent)) : Sound input .color intent := by
  obtain ⟨-, h⟩ := Option.ite_none_right_eq_some.1 h
  split at h
  · next hex color hfound =>
    obtain rfl := Except.ok.inj (Option.some.inj h)
    obtain ⟨hex, hliteral, hpair⟩ := Option.bind_eq_some_iff.1 hfound
    obtain ⟨color, hcolor, heq⟩ := Option.map_eq_some_iff.1 hpair
    obtain ⟨rfl, rfl⟩ := Prod.mk.inj heq
    obtain ⟨t, ht, hliteral⟩ := Text.exists_suffix_of_firstMatch hliteral
    have hliteral := hexLiteral?_eq_some_iff.1 hliteral
    have hdigits := hliteral.exists_digits
    have hwithin := (hliteral.begins.isInfix.trans ht.isInfix).trans (Text.trim_isInfix input.toList)
    have hlist : (String.ofList hex).toList = hex := String.toList_ofList
    rw [← hlist] at hdigits hwithin hcolor
    exact ⟨hdigits, hwithin, hcolor⟩
  · cases h

theorem readOpacity_sound (h : readOpacity p = some (.ok intent)) : Sound input .opacity intent := by
  obtain ⟨-, h⟩ := Option.ite_none_right_eq_some.1 h
  obtain ⟨run, -, h⟩ := Option.map_eq_some_iff.1 h
  obtain rfl := Except.ok.inj h
  exact percent_le run

theorem readRename_sound (h : readRename p = some (.ok intent)) : Sound input .rename intent := by
  obtain ⟨name, hname, h⟩ := Option.map_eq_some_iff.1 h
  obtain rfl := Except.ok.inj h
  obtain ⟨t, -, hname⟩ := Text.exists_suffix_of_firstMatch hname
  obtain ⟨hne, hline⟩ := newName?_spec hname
  exact ⟨ofList_ne_empty hne, by rwa [String.toList_ofList]⟩

/-- What an intent is read from vouches for it. -/
theorem read_sound (h : read input = .ok (rule, intent)) : Sound input rule intent := by
  have hread := read_of_ok h
  cases rule with
  | searchReplace => exact readSearchReplace_sound hread
  | replaceAll => exact readReplaceAll_sound hread
  | quotedText => exact readQuotedText_sound hread
  | color => exact readColor_sound hread
  | width | height | cornerRadius =>
    obtain ⟨n, hn, rfl⟩ := exists_of_readNumber hread
    exact hn
  | fontSize =>
    obtain ⟨n, hn, rfl⟩ := exists_of_readFontSize hread
    exact hn
  | opacity => exact readOpacity_sound hread
  | move =>
    obtain ⟨dx, dy, hdx, hdy, rfl⟩ := exists_of_readMove hread
    exact ⟨hdx, hdy⟩
  | rename => exact readRename_sound hread
  | duplicate | delete | reveal | hide =>
    obtain ⟨-, hread⟩ := Option.ite_none_right_eq_some.1 hread
    obtain rfl := Except.ok.inj (Option.some.inj hread)
    trivial

/-- Of eight digits the first six are the colour. -/
theorem read_sound_color :
    read "색상 변경 #aBc12345" =
        .ok (.color, .setColor "#aBc123" ⟨Color.channel 0xAB, Color.channel 0xC1, Color.channel 0x23⟩) ∧
      Sound "색상 변경 #aBc12345" .color
        (.setColor "#aBc123" ⟨Color.channel 0xAB, Color.channel 0xC1, Color.channel 0x23⟩) := by
  have hread : read "색상 변경 #aBc12345" =
      .ok (.color, .setColor "#aBc123" ⟨Color.channel 0xAB, Color.channel 0xC1, Color.channel 0x23⟩) := by
    decide +kernel
  exact ⟨hread, read_sound hread⟩

end DesignCanvas.Command
