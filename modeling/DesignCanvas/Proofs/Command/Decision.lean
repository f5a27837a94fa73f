import DesignCanvas.Command.Reading
import DesignCanvas.Proofs.Text.Caseless
import DesignCanvas.Proofs.Text.Pattern
import DesignCanvas.Proofs.Text.Search

/-!
# Which rule decides

A command is decided by a rule if the rule applies to it and none of the rules before it does (`read_eq_answer_iff`).
A rule applies only to a command that has the words of the rule in it (`mentions_of_read`), so a command that leaves out
a letter of them is none of its business (`read_eq_none`).
-/

namespace DesignCanvas

/-! ## Words whatever the case -/

namespace Text

variable {c : Char} {s u word : List Char}

theorem lowerChar_ascii : ∀ n < 128, lowerChar (Char.ofNat n) = [(Char.ofNat n).toLower] := by
  decide +kernel

theorem lowerChar_of_toLower (h : lowerChar c.toLower = [c.toLower]) : lowerChar c = [c.toLower] := by
  by_cases hc : c.toNat < 128
  · have hascii := lowerChar_ascii c.toNat hc
    rwa [Char.ofNat_toNat] at hascii
  · rwa [toLower_eq_self (Nat.le_of_not_lt hc)] at h ⊢

/-- A word that stands in a text in any case of its plain letters stands in the lower case of the text. -/
theorem infix_lower_of_lowerPlain (hword : ∀ d ∈ word, lowerChar d = [d]) (hu : lowerPlain u = word)
    (h : u <:+: s) : word <:+: lower s := by
  have hlower : ∀ c ∈ u, lowerChar c = [c.toLower] := by
    intro c hc
    exact lowerChar_of_toLower (hword _ (hu ▸ List.mem_map_of_mem hc))
  have hsigma : 'Σ' ∉ u := fun hmem => absurd (hlower _ hmem) (by decide +kernel)
  have hflat : u.flatMap lowerChar = word := by
    rw [List.flatMap_congr hlower, ← List.map_eq_flatMap, ← hu]
    rfl
  exact hflat ▸ flatMap_lowerChar_infix hsigma h

end Text

namespace Command

variable {input : String} {p : Phrase} {rule : Rule} {reading : Reading}

/-! ## The first rule that applies -/

/-- What a command is answered that a rule decides. -/
def answer (rule : Rule) : Reading → Except CommandError (Rule × Intent)
  | .ok intent => .ok (rule, intent)
  | .error fault => .error (.invalid rule fault)

/-- A rule decides a command: it gives the intent or refuses the command. -/
def DecidedBy (input : String) (rule : Rule) : Prop :=
  ∃ reading, read input = answer rule reading

/-- The rules that are tried before a rule. -/
def Rule.before (rule : Rule) : List Rule :=
  Rule.all.takeWhile (· ≠ rule)

theorem decide?_eq_some_iff :
    p.decide? = some (rule, reading) ↔ rule.read p = some reading ∧ ∀ r ∈ rule.before, r.read p = none := by
  have hsplit : ∀ rule : Rule, ∃ after, Rule.all = rule.before ++ rule :: after := by
    intro rule
    cases rule <;> exact ⟨_, rfl⟩
  have hnodup : Rule.all.Nodup := by decide
  unfold Phrase.decide?
  rw [List.findSome?_eq_some_iff]
  constructor
  · rintro ⟨earlier, r, later, hall, hr, hnone⟩
    obtain ⟨_, hread, heq⟩ := Option.map_eq_some_iff.1 hr
    obtain ⟨rfl, rfl⟩ := Prod.mk.inj heq
    -- no rule is listed twice, so the rules before `r` are those up to its only place
    have hbefore : r.before = earlier := by
      have hnot : ∀ q ∈ earlier, q ≠ r := by
        rintro q hq rfl
        exact (List.nodup_append.1 (hall ▸ hnodup)).2.2 q hq q List.mem_cons_self rfl
      rw [Rule.before, hall, List.takeWhile_append_of_pos fun q hq => decide_eq_true (hnot q hq)]
      simp
    exact ⟨hread, fun q hq => Option.map_eq_none_iff.1 (hnone q (hbefore ▸ hq))⟩
  · rintro ⟨hread, hnone⟩
    obtain ⟨after, hafter⟩ := hsplit rule
    exact ⟨rule.before, rule, after, hafter, by rw [hread]; rfl, fun q hq => by rw [hnone q hq]; rfl⟩

theorem decide?_nil : (⟨[], []⟩ : Phrase).decide? = none :=
  rfl

theorem read_eq_answer_iff : read input = answer rule reading ↔
    rule.read (.of input) = some reading ∧ ∀ r ∈ rule.before, r.read (.of input) = none := by
  rw [← decide?_eq_some_iff, read]
  by_cases hraw : (Phrase.of input).raw.isEmpty
  · have hnil : Phrase.of input = ⟨[], []⟩ := by
      have htrim : Text.trim input.toList = [] := List.isEmpty_iff.1 hraw
      rw [Phrase.of, htrim]
      rfl
    rw [if_pos hraw, hnil, decide?_nil]
    cases reading <;> simp [answer]
  · rw [if_neg hraw]
    cases hdecide : (Phrase.of input).decide? with
    | none => cases reading <;> simp [answer]
    | some found =>
      obtain ⟨r, _ | _⟩ := found <;> cases reading <;> simp [answer]

theorem read_of_first (rule : Rule) (h : rule.read (.of input) = some reading)
    (hbefore : ∀ r ∈ rule.before, r.read (.of input) = none) : read input = answer rule reading :=
  read_eq_answer_iff.2 ⟨h, hbefore⟩

theorem parse_eq_ok {intent : Intent} (h : read input = .ok (rule, intent)) : parse input = .ok intent := by
  rw [parse, h]
  rfl

theorem read_of_ok {intent : Intent} (h : read input = .ok (rule, intent)) :
    rule.read (.of input) = some (.ok intent) := by
  have hanswer : read input = answer rule (.ok intent) := h
  exact (read_eq_answer_iff.1 hanswer).1

/-! ## The words of a rule -/

/-- The words of a rule, in groups. To apply to a command a rule needs all words of one group in it. -/
def Rule.words : Rule → List (List String)
  | searchReplace | replaceAll => [[">"]]
  | quotedText => [["텍스트", "변경"], ["text"]]
  | color => [["색", "변경"], ["color"]]
  | width => [["너비"], ["width"]]
  | height => [["높이"], ["height"]]
  | opacity => [["투명도"], ["opacity"]]
  | duplicate => [["복제"], ["복사"], ["duplicate"]]
  | delete => [["삭제"], ["delete"], ["remove"]]
  | fontSize => [["폰트"], ["font", "size"]]
  | move => [["이동"], ["움직"], ["move"]]
  | reveal => [["보이"], ["show"], ["표시"]]
  | hide => [["숨기"], ["hide"]]
  | rename => [["이름"], ["rename"]]
  | cornerRadius => [["모서리"], ["라운드"], ["radius"], ["corner"]]

theorem mentions_iff {groups : List (List String)} :
    p.mentions groups ↔ ∃ words ∈ groups, ∀ word ∈ words, word.toList <:+: p.lower := by
  simp only [Phrase.mentions, List.any_eq_true, List.all_eq_true, Text.contains_iff]

theorem mentions_of_infix (words : List String) {word : String} (hword : word ∈ words)
    (h : word.toList <:+: p.lower) : p.mentions (words.map fun w => [w]) :=
  mentions_iff.2 ⟨[word], List.mem_map_of_mem hword, by simpa using h⟩

theorem mentions_of_afterAny? {words : List String} {s t : List Char} (h : Text.afterAny? words t = some s)
    (ht : t <:+ p.lower) : p.mentions (words.map fun w => [w]) := by
  obtain ⟨word, hword, rfl⟩ := Text.mem_of_afterAny? h
  exact mentions_of_infix words hword ((List.prefix_append _ _).isInfix.trans ht.isInfix)

theorem mentions_of_numberAfter? {words : List String} {run : List Char}
    (h : Text.firstMatch (numberAfter? words) p.lower = some run) : p.mentions (words.map fun w => [w]) := by
  obtain ⟨t, ht, hnumber⟩ := Text.exists_suffix_of_firstMatch h
  obtain ⟨s, hword, -⟩ := Option.bind_eq_some_iff.1 hnumber
  exact mentions_of_afterAny? hword ht

theorem mentions_of_fontSizeAfter? {run : List Char} (h : Text.firstMatch fontSizeAfter? p.lower = some run) :
    p.mentions [["폰트"], ["font", "size"]] := by
  obtain ⟨t, ht, hsize⟩ := Text.exists_suffix_of_firstMatch h
  obtain ⟨s, hword, -⟩ := Option.bind_eq_some_iff.1 hsize
  obtain rfl := Text.afterWord?_eq_some_iff.1 hword
  refine mentions_iff.2 ⟨["폰트"], by simp, ?_⟩
  simpa using (List.prefix_append _ _).isInfix.trans ht.isInfix

theorem mentions_of_offsets? {offsets : List Char × List Char} (h : Text.firstMatch offsets? p.lower = some offsets) :
    p.mentions Rule.move.words := by
  obtain ⟨t, ht, hoffsets⟩ := Text.exists_suffix_of_firstMatch h
  obtain ⟨s, hword, -⟩ := Option.bind_eq_some_iff.1 hoffsets
  exact mentions_of_afterAny? hword ht

theorem mentions_arrow (h : '>' ∈ (Phrase.of input).raw) : (Phrase.of input).mentions [[">"]] := by
  refine mentions_of_infix [">"] (List.mem_singleton.2 rfl) ?_
  have hplain : ∀ d ∈ ">".toList, Text.lowerChar d = [d] := List.all_iff_forall_prop.1 (by decide +kernel)
  exact Text.infix_lower_of_lowerPlain hplain rfl ((List.singleton_infix_iff _ _).2 h)

theorem mentions_of_newName? {name : List Char} (h : Text.firstMatch newName? (Phrase.of input).raw = some name) :
    (Phrase.of input).mentions Rule.rename.words := by
  obtain ⟨t, ht, hname⟩ := Text.exists_suffix_of_firstMatch h
  unfold newName? at hname
  split at hname
  · cases hname
  · next s hword =>
    obtain ⟨word, hmem, hword⟩ := List.exists_of_findSome?_eq_some hword
    obtain ⟨hlower, -⟩ := Option.ite_none_right_eq_some.1 hword
    refine mentions_of_infix ["이름", "rename"] hmem ?_
    refine Text.infix_lower_of_lowerPlain ?_ hlower ((List.take_prefix _ _).isInfix.trans ht.isInfix)
    have hplain : ∀ word ∈ ["이름", "rename"], word.toList.all fun d => Text.lowerChar d = [d] := by decide +kernel
    exact List.all_iff_forall_prop.1 (hplain word hmem)

theorem mentions_of_read (h : rule.read (.of input) = some reading) : (Phrase.of input).mentions rule.words := by
  cases rule with
  | searchReplace =>
    refine mentions_arrow ?_
    have hguard := (Option.ite_none_left_eq_some.1 h).1
    simp only [Bool.or_eq_true, not_or, Bool.not_eq_true', Bool.not_eq_false] at hguard
    simpa using hguard.1
  | replaceAll =>
    refine mentions_arrow ?_
    simp only [Rule.read, readReplaceAll] at h
    split at h
    · next s hraw => exact hraw ▸ List.mem_cons_self
    · cases h
  | quotedText | color | opacity => exact (Option.ite_none_right_eq_some.1 h).1
  | width | height | cornerRadius =>
    obtain ⟨run, hrun, -⟩ := Option.map_eq_some_iff.1 h
    exact mentions_of_numberAfter? hrun
  | duplicate | delete | reveal | hide => exact (Option.ite_none_right_eq_some.1 h).1
  | fontSize =>
    simp only [Rule.read, readFontSize] at h
    split at h
    · next run hrun => exact mentions_of_fontSizeAfter? hrun
    · obtain ⟨hwords, -⟩ := Option.ite_none_right_eq_some.1 h
      obtain ⟨words, hmem, hwords⟩ := mentions_iff.1 hwords
      exact mentions_iff.2 ⟨words, List.mem_cons_of_mem _ hmem, hwords⟩
  | move =>
    obtain ⟨offsets, hoffsets, -⟩ := Option.map_eq_some_iff.1 h
    exact mentions_of_offsets? hoffsets
  | rename =>
    obtain ⟨name, hname, -⟩ := Option.map_eq_some_iff.1 h
    exact mentions_of_newName? hname

/-- A rule does not apply to a command over an alphabet that lacks a letter of each of its groups of words. -/
theorem read_eq_none {alphabet : List Char} (hraw : (Phrase.of input).raw ⊆ alphabet) (hsigma : 'Σ' ∉ alphabet)
    (hrule : ∀ words ∈ rule.words, ∃ word ∈ words, ¬ word.toList ⊆ alphabet.flatMap Text.lowerChar) :
    rule.read (.of input) = none := by
  cases hread : rule.read (.of input) with
  | none => rfl
  | some reading =>
    obtain ⟨words, hwords, hwithin⟩ := mentions_iff.1 (mentions_of_read hread)
    obtain ⟨word, hword, hnot⟩ := hrule words hwords
    refine absurd (fun c hc => ?_) hnot
    have hlower : c ∈ (Phrase.of input).raw.flatMap Text.lowerChar := by
      rw [← Text.lower_eq_flatMap fun hmem => hsigma (hraw hmem)]
      exact (hwithin word hword).subset hc
    obtain ⟨u, hu, hcu⟩ := List.mem_flatMap.1 hlower
    exact List.mem_flatMap.2 ⟨u, hraw hu, hcu⟩

end Command

end DesignCanvas
