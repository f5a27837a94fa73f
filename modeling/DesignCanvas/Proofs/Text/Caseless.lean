import DesignCanvas.Text.Case
import DesignCanvas.Text.Pattern
import DesignCanvas.Text.Search
import Mathlib.Data.List.Forall2
import Mathlib.Data.List.TakeWhile

/-!
# Plain letters in another case

What the case of ASCII letters means to reading a text. Most functions of characters do not depend on it (`Caseless`),
so a text has the same blanks, marks, digits and quotation marks in the same places when its plain letters are in
lower case, and its lower case as a whole is the same (`lower_lowerPlain`). Two texts that differ in nothing else
(`SameButCase`) are therefore cut and searched alike.
-/

namespace DesignCanvas.Text

variable {α : Type} {f : Char → α} {p : Char → Bool} {s t : List Char} {c mark : Char}

/-! ## Characters -/

/-- A function of characters that gives the same for an ASCII letter in either case. -/
def Caseless (f : Char → α) : Prop :=
  ∀ c : Char, f c.toLower = f c

theorem toLower_eq_self (h : 128 ≤ c.toNat) : c.toLower = c := by
  refine dif_neg ?_
  rintro ⟨-, hhigh⟩
  have hle : c.toNat ≤ 90 := UInt32.le_iff_toNat_le.1 hhigh
  omega

theorem caseless_of_ascii (h : ∀ n < 128, f (Char.ofNat n).toLower = f (Char.ofNat n)) : Caseless f := by
  intro c
  by_cases hc : c.toNat < 128
  · have hascii := h c.toNat hc
    rwa [Char.ofNat_toNat] at hascii
  · rw [toLower_eq_self (Nat.le_of_not_lt hc)]

theorem caseless_isBlank : Caseless isBlank :=
  caseless_of_ascii (by decide)

theorem caseless_isQuote : Caseless isQuote :=
  caseless_of_ascii (by decide)

theorem caseless_isDigit : Caseless isDigit :=
  caseless_of_ascii (by decide)

theorem caseless_isHexDigit : Caseless isHexDigit :=
  caseless_of_ascii (by decide)

theorem caseless_lowerChar : Caseless lowerChar :=
  caseless_of_ascii (by decide +kernel)

theorem toLower_eq_iff (hmark : Caseless fun c => decide (c = mark)) (c : Char) : c.toLower = mark ↔ c = mark :=
  decide_eq_decide.1 (hmark c)

theorem toLower_of_isDigit (h : isDigit c) : c.toLower = c := by
  have hascii : ∀ n < 128, isDigit (Char.ofNat n) → (Char.ofNat n).toLower = Char.ofNat n := by decide
  by_cases hc : c.toNat < 128
  · have hsame := hascii c.toNat hc
    rw [Char.ofNat_toNat] at hsame
    exact hsame h
  · exact toLower_eq_self (Nat.le_of_not_lt hc)

/-! ## Texts in lower case -/

theorem lowerPlain_lowerPlain (s : List Char) : lowerPlain (lowerPlain s) = lowerPlain s := by
  have htoLower : Caseless Char.toLower := caseless_of_ascii (by decide)
  rw [lowerPlain, lowerPlain, List.map_map]
  exact List.map_congr_left fun c _ => htoLower c

theorem take_lowerPlain (n : Nat) (s : List Char) : (lowerPlain s).take n = lowerPlain (s.take n) :=
  List.map_take.symm

theorem drop_lowerPlain (n : Nat) (s : List Char) : (lowerPlain s).drop n = lowerPlain (s.drop n) :=
  List.map_drop.symm

theorem takeWhile_lowerPlain (hp : Caseless p) (s : List Char) :
    (lowerPlain s).takeWhile p = lowerPlain (s.takeWhile p) := by
  rw [lowerPlain, List.takeWhile_map, lowerPlain, show p ∘ Char.toLower = p from funext hp]

theorem dropWhile_lowerPlain (hp : Caseless p) (s : List Char) :
    (lowerPlain s).dropWhile p = lowerPlain (s.dropWhile p) := by
  rw [lowerPlain, List.dropWhile_map, lowerPlain, show p ∘ Char.toLower = p from funext hp]

theorem trim_lowerPlain (s : List Char) : trim (lowerPlain s) = lowerPlain (trim s) := by
  have hreverse : ∀ t, (lowerPlain t).reverse = lowerPlain t.reverse := fun t => List.map_reverse.symm
  rw [trim, trimStart, dropWhile_lowerPlain caseless_isBlank, trimEnd, hreverse,
    dropWhile_lowerPlain caseless_isBlank, hreverse]
  rfl

theorem splitAt_lowerPlain (hmark : Caseless fun c => decide (c = mark)) (s : List Char) :
    splitAt mark (lowerPlain s) = (splitAt mark s).map lowerPlain := by
  induction s with
  | nil => rfl
  | cons c s ih =>
    have hc := toLower_eq_iff hmark c
    rw [splitAt, lowerPlain, List.map_cons, splitAt, ← lowerPlain, ih]
    by_cases h : c = mark
    · rw [if_pos h, if_pos (hc.2 h)]
      rfl
    · rw [if_neg h, if_neg (mt hc.1 h)]
      cases splitAt mark s <;> rfl

theorem skipOne_lowerPlain (hp : Caseless p) (s : List Char) : skipOne p (lowerPlain s) = lowerPlain (skipOne p s) := by
  cases s with
  | nil => rfl
  | cons c s =>
    rw [skipOne, lowerPlain, List.map_cons, skipOne, hp c]
    split <;> rfl

theorem digitRun?_lowerPlain (s : List Char) :
    digitRun? (lowerPlain s) = (digitRun? s).map fun r => (r.1, lowerPlain r.2) := by
  have hrun : lowerPlain (s.takeWhile isDigit) = s.takeWhile isDigit := by
    rw [lowerPlain, List.map_congr_left fun c hc => toLower_of_isDigit (List.mem_takeWhile_imp hc), List.map_id']
  rw [digitRun?, digitRun?, takeWhile_lowerPlain caseless_isDigit, hrun, dropWhile_lowerPlain caseless_isDigit]
  split <;> rfl

theorem untilQuote?_lowerPlain (s : List Char) : untilQuote? (lowerPlain s) = (untilQuote? s).map lowerPlain := by
  have hnewline : Caseless fun c => decide (c = '\n') := caseless_of_ascii (by decide)
  induction s with
  | nil => rfl
  | cons c s ih =>
    have hc := toLower_eq_iff hnewline c
    rw [untilQuote?, lowerPlain, List.map_cons, untilQuote?, caseless_isQuote c, ← lowerPlain, ih]
    simp only [hc]
    split
    · rfl
    · split
      · rfl
      · cases untilQuote? s <;> rfl

theorem quoted?_lowerPlain (s : List Char) : quoted? (lowerPlain s) = (quoted? s).map lowerPlain := by
  have hnewline : Caseless fun c => decide (c ≠ '\n') := caseless_of_ascii (by decide)
  match s with
  | [] | [_] => rfl
  | q :: c :: s =>
    have hguard : (isQuote q.toLower && decide (c.toLower ≠ '\n')) = (isQuote q && decide (c ≠ '\n')) := by
      rw [caseless_isQuote q, show decide (c.toLower ≠ '\n') = decide (c ≠ '\n') from hnewline c]
    rw [quoted?, lowerPlain, List.map_cons, List.map_cons, quoted?, hguard, ← lowerPlain, untilQuote?_lowerPlain]
    split
    · cases untilQuote? s <;> rfl
    · rfl

theorem firstMatch_lowerPlain {pattern : List Char → Option α} {g : α → α}
    (h : ∀ t, pattern (lowerPlain t) = (pattern t).map g) (s : List Char) :
    firstMatch pattern (lowerPlain s) = (firstMatch pattern s).map g := by
  induction s with
  | nil => exact h []
  | cons c s ih =>
    have hplace := h (c :: s)
    rw [lowerPlain, List.map_cons] at hplace ⊢
    rw [firstMatch, firstMatch, hplace, ← lowerPlain, ih]
    cases pattern (c :: s) <;> rfl

/-! ## The lower case of a text -/

theorem meetsCased_lowerPlain (s : List Char) : meetsCased (lowerPlain s) = meetsCased s := by
  have hignorable : Caseless fun c => inRanges c.toNat caseIgnorableRanges := caseless_of_ascii (by decide)
  have hcased : Caseless fun c => inRanges c.toNat casedRanges := caseless_of_ascii (by decide)
  rw [meetsCased, dropWhile_lowerPlain hignorable, meetsCased]
  cases s.dropWhile fun c => inRanges c.toNat caseIgnorableRanges with
  | nil => rfl
  | cons c t => exact hcased c

theorem lowerAfter_lowerPlain (before s : List Char) :
    lowerAfter (lowerPlain before) (lowerPlain s) = lowerAfter before s := by
  have hsigma : Caseless fun c => decide (c = 'Σ') := caseless_of_ascii (by decide)
  induction s generalizing before with
  | nil => rfl
  | cons c s ih =>
    have hc := toLower_eq_iff hsigma c
    have hrest := ih (c :: before)
    rw [lowerPlain, List.map_cons, ← lowerPlain] at hrest
    rw [lowerAfter, lowerPlain, lowerPlain, List.map_cons, ← lowerPlain, ← lowerPlain, lowerAfter, hrest,
      meetsCased_lowerPlain, meetsCased_lowerPlain, caseless_lowerChar c]
    simp only [hc]

theorem lower_lowerPlain (s : List Char) : lower (lowerPlain s) = lower s :=
  lowerAfter_lowerPlain [] s

/-! ## Texts that differ in case only -/

/-- Two texts that differ at most in the case of ASCII letters. -/
def SameButCase (s t : List Char) : Prop :=
  lowerPlain s = lowerPlain t

instance (s t : List Char) : Decidable (SameButCase s t) :=
  inferInstanceAs (Decidable (lowerPlain s = lowerPlain t))

namespace SameButCase

theorem lower_eq (h : SameButCase s t) : lower s = lower t := by
  rw [← lower_lowerPlain s, h, lower_lowerPlain]

theorem trim (h : SameButCase s t) : SameButCase (Text.trim s) (Text.trim t) := by
  rw [SameButCase, ← trim_lowerPlain, h, trim_lowerPlain]

theorem isEmpty_eq (h : SameButCase s t) : s.isEmpty = t.isEmpty := by
  have hempty := congrArg List.isEmpty h
  rwa [lowerPlain, lowerPlain, List.isEmpty_map, List.isEmpty_map] at hempty

theorem tail (h : SameButCase s t) : SameButCase s.tail t.tail := by
  have htail := congrArg List.tail h
  rwa [lowerPlain, lowerPlain, ← List.map_tail, ← List.map_tail] at htail

theorem mem_iff (hmark : Caseless fun c => decide (c = mark)) (h : SameButCase s t) : mark ∈ s ↔ mark ∈ t := by
  have hlower : ∀ u, mark ∈ lowerPlain u ↔ mark ∈ u := fun u => by
    rw [lowerPlain, List.mem_map]
    constructor
    · rintro ⟨c, hc, heq⟩
      obtain rfl := (toLower_eq_iff hmark c).1 heq
      exact hc
    · exact fun hmem => ⟨mark, hmem, (toLower_eq_iff hmark mark).2 rfl⟩
  rw [← hlower s, h, hlower]

theorem head?_iff (hmark : Caseless fun c => decide (c = mark)) (h : SameButCase s t) :
    s.head? = some mark ↔ t.head? = some mark := by
  have hlower : ∀ u : List Char, (lowerPlain u).head? = some mark ↔ u.head? = some mark := fun u => by
    cases u with
    | nil => rfl
    | cons c u => simpa [lowerPlain] using toLower_eq_iff hmark c
  rw [← hlower s, h, hlower]

theorem splitAt (hmark : Caseless fun c => decide (c = mark)) (h : SameButCase s t) :
    List.Forall₂ SameButCase (Text.splitAt mark s) (Text.splitAt mark t) := by
  have heq : (Text.splitAt mark s).map lowerPlain = (Text.splitAt mark t).map lowerPlain := by
    rw [← splitAt_lowerPlain hmark, h, splitAt_lowerPlain hmark]
  rwa [← List.forall₂_eq_eq_eq, List.forall₂_map_left_iff, List.forall₂_map_right_iff] at heq

/-- A pattern whose finds differ at most in case finds such texts first. -/
theorem firstMatch {pattern : List Char → Option (List Char)}
    (hpattern : ∀ t, pattern (lowerPlain t) = (pattern t).map lowerPlain) (h : SameButCase s t) :
    Option.Rel SameButCase (Text.firstMatch pattern s) (Text.firstMatch pattern t) := by
  have heq : (Text.firstMatch pattern s).map lowerPlain = (Text.firstMatch pattern t).map lowerPlain := by
    rw [← firstMatch_lowerPlain hpattern, h, firstMatch_lowerPlain hpattern]
  cases hs : Text.firstMatch pattern s <;> cases ht : Text.firstMatch pattern t <;> rw [hs, ht] at heq
  · exact .none
  · cases heq
  · cases heq
  · exact .some (Option.some.inj heq)

end SameButCase

end DesignCanvas.Text
