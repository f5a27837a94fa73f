import DesignCanvas.Text.Pattern
import DesignCanvas.Proofs.Text.Reading
import Mathlib.Data.Bool.AllAny
import Mathlib.Data.List.TakeWhile

/-!
# What patterns find

The readers that patterns are made of, told by the parts that they cut a text into: a word, a single character, blanks,
a run of digits, a quoted text. What is found in a whole text is found at the first place where anything is
(`firstMatch_eq_some_iff`, `onLine?_eq_some_iff`).
-/

namespace DesignCanvas.Text

variable {α : Type} {p : Char → Bool} {s t front run rest text : List Char} {c : Char}

/-! ## The first place -/

/-- What is found in a text after characters that may be passed over, where nothing is found at an earlier place. -/
def FoundPast (passed : Char → Prop) (P : List Char → α → Prop) (s : List Char) (a : α) : Prop :=
  ∃ before rest, s = before ++ rest ∧ (∀ c ∈ before, passed c) ∧ P rest a ∧
    ∀ n < before.length, ∀ b, ¬ P (s.drop n) b

variable {passed : Char → Prop} {P : List Char → α → Prop} {pattern : List Char → Option α} {a : α}

theorem FoundPast.here (h : P s a) : FoundPast passed P s a :=
  ⟨[], s, rfl, by simp, h, by simp⟩

theorem foundPast_nil : FoundPast passed P [] a ↔ P [] a := by
  constructor
  · rintro ⟨before, rest, hs, -, h, -⟩
    obtain ⟨-, rfl⟩ := List.append_eq_nil_iff.1 hs.symm
    exact h
  · exact FoundPast.here

theorem foundPast_cons : FoundPast passed P (c :: s) a ↔
    P (c :: s) a ∨ passed c ∧ (∀ b, ¬ P (c :: s) b) ∧ FoundPast passed P s a := by
  constructor
  · rintro ⟨before, rest, hs, hpassed, h, hnone⟩
    cases before with
    | nil =>
      obtain rfl : c :: s = rest := hs
      exact Or.inl h
    | cons d before =>
      obtain ⟨rfl, rfl⟩ := List.cons.inj hs
      obtain ⟨hd, hpassed⟩ := List.forall_mem_cons.1 hpassed
      refine Or.inr ⟨hd, hnone 0 (by simp), before, rest, rfl, hpassed, h, fun n hn => ?_⟩
      exact hnone (n + 1) (by simpa using hn)
  · rintro (h | ⟨hc, hhere, before, rest, rfl, hpassed, h, hnone⟩)
    · exact FoundPast.here h
    · refine ⟨c :: before, rest, rfl, List.forall_mem_cons.2 ⟨hc, hpassed⟩, h, fun n hn => ?_⟩
      cases n with
      | zero => exact hhere
      | succ n => exact hnone n (by simpa using hn)

theorem firstMatch_eq_some_iff (hP : ∀ t b, pattern t = some b ↔ P t b) :
    firstMatch pattern s = some a ↔ FoundPast (fun _ => True) P s a := by
  induction s with
  | nil => rw [firstMatch, hP, foundPast_nil]
  | cons c s ih =>
    rw [firstMatch, foundPast_cons, ← ih]
    simp only [← hP]
    cases pattern (c :: s) <;> simp

theorem onLine?_eq_some_iff (hP : ∀ t b, pattern t = some b ↔ P t b) :
    onLine? pattern s = some a ↔ FoundPast (· ≠ '\n') P s a := by
  induction s with
  | nil => rw [onLine?, hP, foundPast_nil]
  | cons c s ih =>
    rw [onLine?, foundPast_cons, ← ih]
    simp only [← hP]
    by_cases hc : c = '\n' <;> cases pattern (c :: s) <;> simp [hc]

theorem FoundPast.exists_place (h : FoundPast passed P s a) : ∃ t, P t a := by
  obtain ⟨-, t, -, -, h, -⟩ := h
  exact ⟨t, h⟩

theorem FoundPast.append (h : FoundPast passed P s a) (hfront : ∀ c ∈ front, passed c ∧ ∀ t b, ¬ P (c :: t) b) :
    FoundPast passed P (front ++ s) a := by
  induction front with
  | nil => exact h
  | cons c front ih =>
    obtain ⟨⟨hc, hnone⟩, hfront⟩ := List.forall_mem_cons.1 hfront
    exact foundPast_cons.2 (Or.inr ⟨hc, hnone _, ih hfront⟩)

theorem exists_suffix_of_firstMatch (h : firstMatch pattern s = some a) : ∃ t, t <:+ s ∧ pattern t = some a := by
  obtain ⟨before, rest, rfl, -, h, -⟩ := (firstMatch_eq_some_iff fun _ _ => Iff.rfl).1 h
  exact ⟨rest, List.suffix_append _ _, h⟩

/-! ## Words and single characters -/

theorem afterWord?_eq_some_iff {word : String} : afterWord? word s = some t ↔ s = word.toList ++ t := by
  rw [afterWord?, Option.ite_none_right_eq_some, List.isPrefixOf_iff_prefix, Option.some_inj]
  constructor
  · rintro ⟨⟨t, rfl⟩, rfl⟩
    rw [List.drop_left]
  · rintro rfl
    exact ⟨List.prefix_append _ _, List.drop_left⟩

/-- Words of which none begins with another one. -/
def Apart (words : List String) : Prop :=
  ∀ v ∈ words, ∀ w ∈ words, v.toList <+: w.toList → v = w

instance (words : List String) : Decidable (Apart words) :=
  inferInstanceAs (Decidable (∀ v ∈ words, ∀ w ∈ words, v.toList <+: w.toList → v = w))

theorem mem_of_afterAny? {words : List String} (h : afterAny? words s = some t) :
    ∃ word ∈ words, s = word.toList ++ t := by
  obtain ⟨word, hword, h⟩ := List.exists_of_findSome?_eq_some h
  exact ⟨word, hword, afterWord?_eq_some_iff.1 h⟩

theorem afterAny?_eq_some_iff {words : List String} (hwords : Apart words) :
    afterAny? words s = some t ↔ ∃ word ∈ words, s = word.toList ++ t := by
  refine ⟨mem_of_afterAny?, ?_⟩
  rintro ⟨word, hword, rfl⟩
  cases hfound : afterAny? words (word.toList ++ t) with
  | none =>
    have hnone := List.findSome?_eq_none_iff.1 hfound word hword
    rw [afterWord?_eq_some_iff.2 rfl] at hnone
    cases hnone
  | some u =>
    obtain ⟨other, hother, heq⟩ := mem_of_afterAny? hfound
    have hsame : other = word := by
      rcases List.prefix_or_prefix_of_prefix ⟨u, heq.symm⟩ (List.prefix_append word.toList t) with h | h
      · exact hwords other hother word hword h
      · exact (hwords word hword other hother h).symm
    rw [hsame, List.append_cancel_left_eq] at heq
    rw [heq]

/-- No more than one character, with a property. -/
def AtMostOne (p : Char → Bool) (front : List Char) : Prop :=
  front.length ≤ 1 ∧ ∀ c ∈ front, p c

theorem exists_skipOne (p : Char → Bool) (s : List Char) : ∃ front, s = front ++ skipOne p s ∧ AtMostOne p front := by
  cases s with
  | nil => exact ⟨[], rfl, by simp [AtMostOne]⟩
  | cons c s =>
    by_cases hc : p c
    · exact ⟨[c], by simp [skipOne, hc], by simp [AtMostOne, hc]⟩
    · exact ⟨[], by simp [skipOne, hc], by simp [AtMostOne]⟩

theorem skipOne_append (hfront : AtMostOne p front) (ht : ∀ c ∈ t.head?, ¬ p c) : skipOne p (front ++ t) = t := by
  obtain ⟨hlength, hfront⟩ := hfront
  match front with
  | [] =>
    cases t with
    | nil => rfl
    | cons c t => exact if_neg (ht c rfl)
  | [c] => exact if_pos (hfront c List.mem_cons_self)

theorem exists_skipWord (word : String) (s : List Char) :
    ∃ front, s = front ++ skipWord word s ∧ (front = [] ∨ front = word.toList) := by
  cases h : afterWord? word s with
  | none => exact ⟨[], by simp [skipWord, h], Or.inl rfl⟩
  | some t => exact ⟨word.toList, by rw [skipWord, h, Option.getD_some, afterWord?_eq_some_iff.1 h], Or.inr rfl⟩

theorem skipWord_append {word : String} (hfront : front = [] ∨ front = word.toList) (ht : ¬ word.toList <+: t) :
    skipWord word (front ++ t) = t := by
  rcases hfront with rfl | rfl
  · have hnone : afterWord? word t = none := if_neg (by rwa [List.isPrefixOf_iff_prefix])
    rw [List.nil_append, skipWord, hnone]
    rfl
  · rw [skipWord, afterWord?_eq_some_iff.2 rfl]
    rfl

/-! ## Blanks and digits -/

theorem dropWhile_eq_iff : s.dropWhile p = t ↔
    ∃ front, s = front ++ t ∧ (∀ c ∈ front, p c) ∧ ∀ c ∈ t.head?, ¬ p c := by
  constructor
  · rintro rfl
    refine ⟨s.takeWhile p, List.takeWhile_append_dropWhile.symm, fun c => List.mem_takeWhile_imp, fun c hc => ?_⟩
    have hnot := List.head?_dropWhile_not p s
    rw [hc] at hnot
    simp [hnot]
  · rintro ⟨front, rfl, hfront, ht⟩
    rw [List.dropWhile_append_of_pos hfront]
    cases t with
    | nil => rfl
    | cons c t => exact List.dropWhile_cons_of_neg (ht c rfl)

/-- A run of digits that is not gone on with. -/
structure IsRun (run rest : List Char) : Prop where
  nonempty : run ≠ []
  digits : ∀ c ∈ run, isDigit c
  ends : ∀ c ∈ rest.head?, ¬ isDigit c

theorem digitRun?_eq_some_iff : digitRun? s = some (run, rest) ↔ s = run ++ rest ∧ IsRun run rest := by
  unfold digitRun?
  constructor
  · intro h
    obtain ⟨hne, heq⟩ := Option.ite_none_left_eq_some.1 h
    obtain ⟨rfl, rfl⟩ := Prod.mk.inj (Option.some.inj heq)
    obtain ⟨front, -, -, hends⟩ := dropWhile_eq_iff.1 (rfl : s.dropWhile isDigit = _)
    exact ⟨List.takeWhile_append_dropWhile.symm, by simpa using hne, fun c => List.mem_takeWhile_imp, hends⟩
  · rintro ⟨rfl, hne, hdigits, hends⟩
    have hdrop : (run ++ rest).dropWhile isDigit = rest := dropWhile_eq_iff.2 ⟨run, rfl, hdigits, hends⟩
    have htake : (run ++ rest).takeWhile isDigit = run := by
      have happend := List.takeWhile_append_dropWhile (p := isDigit) (l := run ++ rest)
      rwa [hdrop, List.append_cancel_right_eq] at happend
    rw [hdrop, htake, if_neg (by simpa using hne)]

/-- A run of digits with a minus sign in front of it or without. -/
def IsSigned (run rest : List Char) : Prop :=
  ∃ digits, (run = digits ∨ run = '-' :: digits) ∧ IsRun digits rest

theorem isDigit_ne (d : Char) (hd : ¬ isDigit d) (h : isDigit c) : c ≠ d := by
  rintro rfl
  exact hd h

theorem signedRun?_eq_some_iff : signedRun? s = some (run, rest) ↔ s = run ++ rest ∧ IsSigned run rest := by
  constructor
  · intro h
    unfold signedRun? at h
    split at h
    · obtain ⟨⟨digits, rest⟩, hrun, heq⟩ := Option.map_eq_some_iff.1 h
      obtain ⟨rfl, rfl⟩ := Prod.mk.inj heq
      obtain ⟨rfl, hdigits⟩ := digitRun?_eq_some_iff.1 hrun
      exact ⟨rfl, digits, Or.inr rfl, hdigits⟩
    · obtain ⟨rfl, hdigits⟩ := digitRun?_eq_some_iff.1 h
      exact ⟨rfl, run, Or.inl rfl, hdigits⟩
  · rintro ⟨rfl, digits, rfl | rfl, hdigits⟩
    · have hrun := digitRun?_eq_some_iff.2 ⟨rfl, hdigits⟩
      obtain ⟨c, run, rfl⟩ := List.exists_cons_of_ne_nil hdigits.nonempty
      rw [signedRun?, hrun]
      intro t ht
      exact isDigit_ne '-' (by decide) (hdigits.digits c List.mem_cons_self) (List.cons.inj ht).1
    · rw [List.cons_append, signedRun?, digitRun?_eq_some_iff.2 ⟨rfl, hdigits⟩]
      rfl

/-! ## Quoted texts -/

theorem newline_notMem_of_untilQuote? (h : untilQuote? s = some text) : '\n' ∉ text := by
  induction s generalizing text with
  | nil => cases h
  | cons c s ih =>
    rw [untilQuote?] at h
    split at h
    · obtain rfl := Option.some.inj h
      exact List.not_mem_nil
    · split at h
      · cases h
      · next hc =>
        obtain ⟨text, htext, rfl⟩ := Option.map_eq_some_iff.1 h
        exact List.not_mem_cons_of_ne_of_not_mem (Ne.symm hc) (ih htext)

theorem quoted?_spec (h : quoted? s = some text) : text ≠ [] ∧ '\n' ∉ text := by
  unfold quoted? at h
  split at h
  · next q c s =>
    obtain ⟨hguard, h⟩ := Option.ite_none_right_eq_some.1 h
    obtain ⟨text, htext, rfl⟩ := Option.map_eq_some_iff.1 h
    have hc : c ≠ '\n' := by simpa using (Bool.and_eq_true_iff.1 hguard).2
    exact ⟨List.cons_ne_nil _ _, List.not_mem_cons_of_ne_of_not_mem hc.symm (newline_notMem_of_untilQuote? htext)⟩
  · cases h

end DesignCanvas.Text
