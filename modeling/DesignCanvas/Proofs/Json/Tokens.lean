import DesignCanvas.Json.Printer
import DesignCanvas.Json.Token
import DesignCanvas.Proofs.Text.Numerals

/-!
# Printed parts as tokens

The parts of a printed value are cut into their tokens whatever comes after them. For a string this holds of all its
characters, those that are escaped included (`Json.scanToken_writeString`). A number can be gone on with, so it holds
only where this is not done, and of numbers that are read back from their text (`Json.scanToken_writeNumber`), such as
counts that fit 64 bits (`Number.legible_nat`).
-/

namespace DesignCanvas

namespace Json

/-! ## Strings -/

theorem hexByte_unit : ∀ n < 0x20, ('0' :: '0' :: Text.hexByte n).all Text.isHexDigit ∧
    ('0' :: '0' :: Text.hexByte n).foldl (fun n x => 16 * n + Text.hexValue x) 0 = n := by
  decide

theorem pushUnit_of_lt (r : Reading) {u : Nat} (hu : u < 0x20) : r.pushUnit u = r.push (Char.ofNat u) := by
  rw [Reading.pushUnit, if_neg (by omega), if_neg (by omega)]

theorem scanString_writeChar (r : Reading) (c : Char) (s : List Char) :
    scanString r (writeChar c ++ s) = scanString (r.push c) s := by
  unfold writeChar
  split
  iterate 7 rfl
  next hquote hbackslash _ _ _ _ _ =>
  split
  · next hcontrol =>
    obtain ⟨hdigits, hvalue⟩ := hexByte_unit c.toNat hcontrol
    change scanString r ('\\' :: 'u' :: '0' :: '0' :: (Text.hexByte c.toNat ++ s)) = _
    rw [Text.hexByte] at hdigits hvalue ⊢
    rw [List.cons_append, List.cons_append, List.nil_append, scanString, if_pos hdigits, hvalue,
      pushUnit_of_lt r hcontrol, Char.ofNat_toNat]
  · next hplain =>
    rw [List.singleton_append, scanString]
    · exact if_neg (not_or.2 ⟨hplain, hbackslash⟩)
    · exact hquote
    · exact fun _ _ _ _ _ h _ => hbackslash h
    · exact fun _ _ h _ => hbackslash h

theorem scanString_flatMap (chars cs s : List Char) :
    scanString ⟨chars, none, false⟩ (cs.flatMap writeChar ++ s) = scanString ⟨cs.reverse ++ chars, none, false⟩ s := by
  induction cs generalizing chars with
  | nil => rfl
  | cons c cs ih =>
    rw [List.flatMap_cons, List.append_assoc, scanString_writeChar, List.reverse_cons, List.append_assoc]
    exact ih (c :: chars)

theorem scanToken_writeString (s : String) (rest : List Char) :
    scanToken ((writeString s).toList ++ rest) = some (.str (some s), rest) := by
  have hscan : scanString ⟨[], none, false⟩ (s.toList.flatMap writeChar ++ '"' :: rest) = some (some s, rest) := by
    rw [scanString_flatMap, scanString]
    simp [Reading.string?]
  rw [writeString, String.toList_ofList, List.cons_append, List.cons_append, List.append_assoc, List.singleton_append,
    scanToken, hscan, Option.map_some]

/-! ## Numbers -/

/-- What a number is not gone on with. -/
def Ends (rest : List Char) : Prop :=
  ∀ c ∈ rest.head?, Text.isPlainDigit c = false ∧ c ≠ '.' ∧ c ≠ 'e' ∧ c ≠ 'E'

theorem ends_nil : Ends [] :=
  nofun

theorem ends_cons {c : Char} (h : Text.isPlainDigit c = false ∧ c ≠ '.' ∧ c ≠ 'e' ∧ c ≠ 'E') (rest : List Char) :
    Ends (c :: rest) := by
  intro d hd
  obtain rfl : c = d := Option.some.inj hd
  exact h

variable {s rest : List Char} {negative : Bool}

theorem takeWhile_append_of_ends (h : Ends rest) (s : List Char) :
    (s ++ rest).takeWhile Text.isPlainDigit = s.takeWhile Text.isPlainDigit := by
  induction s with
  | nil =>
    cases rest with
    | nil => rfl
    | cons c rest => rw [List.nil_append, List.takeWhile_cons, (h c rfl).1]; rfl
  | cons c s ih => rw [List.cons_append, List.takeWhile_cons, List.takeWhile_cons, ih]

theorem dropWhile_append_of_ends (h : Ends rest) (s : List Char) :
    (s ++ rest).dropWhile Text.isPlainDigit = s.dropWhile Text.isPlainDigit ++ rest := by
  induction s with
  | nil =>
    cases rest with
    | nil => rfl
    | cons c rest => rw [List.nil_append, List.dropWhile_cons, (h c rfl).1]; rfl
  | cons c s ih =>
    rw [List.cons_append, List.dropWhile_cons, List.dropWhile_cons, ih]
    split <;> rfl

theorem scanFraction_of_ne (h : s.head? ≠ some '.') : scanFraction s = some ([], s) := by
  unfold scanFraction
  split
  · exact absurd rfl h
  · rfl

theorem scanFraction_append (hrest : Ends rest) {digits t : List Char} (h : scanFraction s = some (digits, t)) :
    scanFraction (s ++ rest) = some (digits, t ++ rest) := by
  by_cases hpoint : s.head? = some '.'
  · obtain ⟨s, rfl⟩ := List.head?_eq_some_iff.1 hpoint
    rw [scanFraction] at h
    rw [List.cons_append, scanFraction, takeWhile_append_of_ends hrest, dropWhile_append_of_ends hrest]
    split at h
    · cases h
    · next hdigits =>
      obtain ⟨rfl, rfl⟩ := Prod.mk.inj (Option.some.inj h)
      rw [if_neg hdigits]
  · rw [scanFraction_of_ne hpoint] at h
    obtain ⟨rfl, rfl⟩ := Prod.mk.inj (Option.some.inj h)
    refine scanFraction_of_ne ?_
    cases s with
    | nil => exact fun hc => (hrest '.' hc).2.1 rfl
    | cons c s => exact hpoint

theorem scanSign_append (hs : s ≠ []) (rest : List Char) :
    scanSign (s ++ rest) = ((scanSign s).1, (scanSign s).2 ++ rest) := by
  obtain ⟨c, s, rfl⟩ := List.exists_cons_of_ne_nil hs
  by_cases hplus : c = '+'
  · rw [hplus]
    rfl
  by_cases hminus : c = '-'
  · rw [hminus]
    rfl
  have hnone : ∀ s, scanSign (c :: s) = (false, c :: s) := by
    intro s
    rw [scanSign]
    · exact fun _ h => hplus (List.cons.inj h).1
    · exact fun _ h => hminus (List.cons.inj h).1
  rw [List.cons_append, hnone, hnone, List.cons_append]

theorem scanExponent_append (hrest : Ends rest) {e : Option (Bool × List Char)} {t : List Char}
    (h : scanExponent s = some (e, t)) : scanExponent (s ++ rest) = some (e, t ++ rest) := by
  cases s with
  | nil =>
    rw [scanExponent] at h
    obtain ⟨rfl, rfl⟩ := Prod.mk.inj (Option.some.inj h)
    cases rest with
    | nil => rfl
    | cons c rest =>
      obtain ⟨-, -, he, hE⟩ := hrest c rfl
      rw [List.nil_append, scanExponent, if_neg (not_or.2 ⟨he, hE⟩)]
  | cons c s =>
    rw [scanExponent] at h
    rw [List.cons_append, scanExponent]
    split at h
    · next hmark =>
      rw [if_pos hmark]
      have hs : s ≠ [] := by
        rintro rfl
        cases h
      rw [scanSign_append hs]
      dsimp only at h ⊢
      rw [takeWhile_append_of_ends hrest, dropWhile_append_of_ends hrest]
      split at h
      · cases h
      · next hdigits =>
        obtain ⟨rfl, rfl⟩ := Prod.mk.inj (Option.some.inj h)
        rw [if_neg hdigits]
    · next hmark =>
      obtain ⟨rfl, rfl⟩ := Prod.mk.inj (Option.some.inj h)
      rw [if_neg hmark]
      rfl

theorem scanNumber_append (hrest : Ends rest) {n : Option Number} {t : List Char}
    (h : scanNumber negative s = some (n, t)) : scanNumber negative (s ++ rest) = some (n, t ++ rest) := by
  rw [scanNumber] at h ⊢
  dsimp only at h ⊢
  rw [takeWhile_append_of_ends hrest, dropWhile_append_of_ends hrest]
  split
  · next hnone =>
    rw [if_pos hnone] at h
    cases h
  · next hsome =>
    rw [if_neg hsome] at h
    simp only [Option.bind_eq_bind, Option.bind_eq_some_iff, Option.pure_def, Option.some.injEq, Prod.mk.injEq] at h
    obtain ⟨⟨fraction, s₁⟩, hfraction, ⟨exponent, s₂⟩, hexponent, hnumber, rfl⟩ := h
    simp only [scanFraction_append hrest hfraction, scanExponent_append hrest hexponent, Option.bind_eq_bind,
      Option.bind_some, Option.pure_def, hnumber]

theorem scanToken_digit {c : Char} (hc : Text.isPlainDigit c) (s : List Char) :
    scanToken (c :: s) = (scanNumber false (c :: s)).map fun (v, s) => (.num v, s) := by
  unfold scanToken
  split
  -- a digit is none of the characters that other tokens begin with
  iterate 11
    next h =>
    obtain ⟨rfl, -⟩ := List.cons.inj h
    exact absurd hc (by decide)
  · next h =>
    obtain ⟨rfl, rfl⟩ := List.cons.inj h
    rw [if_pos hc]
  · next h => cases h

theorem scanNumber_of_scanToken {n : Option Number} {t : List Char} (h : scanToken s = some (.num n, t)) :
    (∃ u, s = '-' :: u ∧ scanNumber true u = some (n, t)) ∨
      (∃ c u, s = c :: u ∧ Text.isPlainDigit c ∧ scanNumber false s = some (n, t)) := by
  unfold scanToken at h
  split at h
  iterate 9 cases h
  · obtain ⟨⟨v, u⟩, -, hvalue⟩ := Option.map_eq_some_iff.1 h
    cases hvalue
  · next u =>
    obtain ⟨⟨v, w⟩, hscan, hvalue⟩ := Option.map_eq_some_iff.1 h
    cases hvalue
    exact Or.inl ⟨u, rfl, hscan⟩
  · next c u _ _ _ _ _ _ _ _ _ _ _ =>
    split at h
    · next hc =>
      obtain ⟨⟨v, w⟩, hscan, hvalue⟩ := Option.map_eq_some_iff.1 h
      cases hvalue
      exact Or.inr ⟨c, u, rfl, hc, hscan⟩
    · cases h
  · cases h

theorem scanToken_append (hrest : Ends rest) {n : Option Number} {t : List Char}
    (h : scanToken s = some (.num n, t)) : scanToken (s ++ rest) = some (.num n, t ++ rest) := by
  rcases scanNumber_of_scanToken h with ⟨u, rfl, hscan⟩ | ⟨c, u, rfl, hc, hscan⟩
  · rw [List.cons_append, scanToken, scanNumber_append hrest hscan, Option.map_some]
  · rw [List.cons_append, scanToken_digit hc, ← List.cons_append, scanNumber_append hrest hscan, Option.map_some]

end Json

/-- The text of a number is read as the number. -/
def Number.legible (n : Number) : Bool :=
  match Json.scanToken (Json.writeNumber n).toList with
  | some (.num (some m), []) => m == n
  | _ => false

namespace Json

theorem scanToken_writeNumber {n : Number} (hn : n.legible) {rest : List Char} (hrest : Ends rest) :
    scanToken ((writeNumber n).toList ++ rest) = some (.num (some n), rest) := by
  unfold Number.legible at hn
  split at hn
  · next m hscan =>
    obtain rfl : m = n := by simpa using hn
    exact scanToken_append hrest hscan
  · cases hn

/-! ## Whole numbers -/

theorem takeDigits_cons {acc taken : Nat} {c : Char} {digits : List Char}
    (h : 10 * acc + Text.digitValue c < significandLimit) :
    takeDigits acc taken (c :: digits) = takeDigits (10 * acc + Text.digitValue c) (taken + 1) digits :=
  if_pos h

theorem takeDigits_eq {digits : List Char} {acc : Nat} (h : Text.plainValueFrom acc digits < significandLimit)
    (taken : Nat) : takeDigits acc taken digits = (Text.plainValueFrom acc digits, taken + digits.length, 0) := by
  induction digits generalizing acc taken with
  | nil => rfl
  | cons c digits ih =>
    have hvalue : Text.plainValueFrom acc (c :: digits) = Text.plainValueFrom (10 * acc + Text.digitValue c) digits :=
      rfl
    rw [hvalue] at h
    have hfits : 10 * acc + Text.digitValue c < significandLimit := (Text.le_plainValueFrom _ digits).trans_lt h
    rw [takeDigits_cons hfits, ih h, hvalue, List.length_cons, Nat.add_assoc, Nat.add_comm 1]

theorem scanNumber_toDigits {n : Nat} (hn : n < significandLimit) :
    scanNumber false (Nat.toDigits 10 n) = some (some (.int n), []) := by
  have hdigits : ∀ c ∈ Nat.toDigits 10 n, Text.isPlainDigit c := Text.isPlainDigit_toDigits
  have hwhole : (Nat.toDigits 10 n).takeWhile Text.isPlainDigit = Nat.toDigits 10 n :=
    List.takeWhile_eq_self_iff.2 hdigits
  have hrest : (Nat.toDigits 10 n).dropWhile Text.isPlainDigit = [] := List.dropWhile_eq_nil_iff.2 hdigits
  have hplain : ¬ ((Nat.toDigits 10 n).isEmpty ∨
      ((Nat.toDigits 10 n).head? = some '0' ∧ 1 < (Nat.toDigits 10 n).length)) := by
    rintro (hempty | ⟨hzero, hlong⟩)
    · exact Nat.toDigits_ne_nil (List.isEmpty_iff.1 hempty)
    · rw [Text.eq_zero_of_head?_toDigits hzero] at hlong
      exact absurd hlong (by decide)
  have hvalue : takeDigits 0 0 (Nat.toDigits 10 n) = (n, (Nat.toDigits 10 n).length, 0) := by
    rw [takeDigits_eq (by rwa [Text.plainValueFrom_toDigits]), Text.plainValueFrom_toDigits, Nat.zero_add]
  rw [scanNumber, hwhole, hrest]
  dsimp only
  rw [if_neg hplain]
  simp [scanFraction, scanExponent, Literal.number?, hvalue, takeDigits, wholeNumber]

end Json

namespace Number

open Json

/-- A count that fits 64 bits is read back from its text. -/
theorem legible_nat {n : Nat} (hn : n < significandLimit) : (int n).legible := by
  have htext : (writeNumber (int n)).toList = Nat.toDigits 10 n := Nat.toList_repr
  have hscan : scanToken (Nat.toDigits 10 n) = some (.num (some (int n)), []) := by
    obtain ⟨c, s, hdigits⟩ := List.exists_cons_of_ne_nil (Nat.toDigits_ne_nil (b := 10) (n := n))
    have hc : Text.isPlainDigit c := Text.isPlainDigit_toDigits (n := n) c (hdigits ▸ List.mem_cons_self)
    rw [hdigits, scanToken_digit hc, ← hdigits, scanNumber_toDigits hn, Option.map_some]
  rw [legible, htext, hscan]
  exact beq_self_eq_true _

end Number

namespace Json

/-! ## Texts -/

/-- A text with the tokens that it is cut into. -/
inductive Tokenized : List Char → List Token → Prop
  | nil : Tokenized [] []
  | space (c : Char) (s : List Char) (ts : List Token) (hc : isSpace c) (h : Tokenized s ts) : Tokenized (c :: s) ts
  | token (c : Char) (s rest : List Char) (t : Token) (ts : List Token) (hc : isSpace c = false)
      (hscan : scanToken (c :: s) = some (t, rest)) (hlength : rest.length ≤ s.length) (h : Tokenized rest ts) :
      Tokenized (c :: s) (t :: ts)

theorem tokensFrom_of_tokenized {s : List Char} {ts : List Token} (h : Tokenized s ts) (steps : Nat) (done : List Token)
    (hsteps : s.length < steps) : tokensFrom steps done s = some (done.reverse ++ ts) := by
  induction h generalizing steps done with
  | nil =>
    cases steps with
    | zero => cases hsteps
    | succ steps => rw [tokensFrom, List.dropWhile_nil, List.append_nil]
  | space c s ts hc _ ih =>
    have hlength : s.length < steps := by
      rw [List.length_cons] at hsteps
      omega
    rw [← ih steps done hlength]
    cases steps with
    | zero => cases hsteps
    | succ steps => rw [tokensFrom, tokensFrom, List.dropWhile_cons, if_pos hc]
  | token c s rest t ts hc hscan hrest _ ih =>
    cases steps with
    | zero => cases hsteps
    | succ steps =>
      have hlength : rest.length < steps := by
        rw [List.length_cons] at hsteps
        omega
      rw [tokensFrom, List.dropWhile_cons, hc, if_neg Bool.false_ne_true]
      dsimp only
      rw [hscan]
      dsimp only
      rw [ih steps _ hlength, List.reverse_cons, List.append_assoc, List.singleton_append]

theorem tokens?_of_tokenized {s : List Char} {ts : List Token} (h : Tokenized s ts) : tokens? s = some ts :=
  tokensFrom_of_tokenized h _ [] (Nat.lt_succ_self _)

/-- Whatever comes. -/
abbrev Anything : List Char → Prop :=
  fun _ => True

/-- A part of a text is cut into tokens, whatever comes after it with a property. -/
def Cut (P : List Char → Prop) (s : List Char) (ts : List Token) : Prop :=
  ∀ rest us, P rest → Tokenized rest us → Tokenized (s ++ rest) (ts ++ us)

namespace Cut

variable {P Q : List Char → Prop} {s s' : List Char} {ts ts' : List Token}

theorem append (h : Cut P s ts) (h' : Cut Q s' ts') (hrest : ∀ rest, Q rest → P (s' ++ rest)) :
    Cut Q (s ++ s') (ts ++ ts') := by
  intro rest us hQ hus
  rw [List.append_assoc, List.append_assoc]
  exact h _ _ (hrest rest hQ) (h' rest us hQ hus)

theorem followed (h : Cut Anything s ts) (h' : Cut Q s' ts') : Cut Q (s ++ s') (ts ++ ts') :=
  h.append h' fun _ _ => trivial

theorem mono (h : Cut P s ts) (hPQ : ∀ rest, Q rest → P rest) : Cut Q s ts :=
  fun rest us hQ hus => h rest us (hPQ rest hQ) hus

theorem spaces (h : ∀ c ∈ s, isSpace c) : Cut P s [] := by
  intro rest us _ hus
  induction s with
  | nil => exact hus
  | cons c s ih =>
    obtain ⟨hc, hs⟩ := List.forall_mem_cons.1 h
    exact .space c _ _ hc (ih hs)

theorem token {c : Char} {t : Token} (hc : isSpace c = false)
    (h : ∀ rest, P rest → scanToken (c :: s ++ rest) = some (t, rest)) : Cut P (c :: s) [t] := by
  intro rest us hP hus
  refine .token c (s ++ rest) rest t us hc (h rest hP) ?_ hus
  rw [List.length_append]
  omega

theorem tokenized (h : Cut P s ts) (hnil : P []) : Tokenized s ts := by
  have hall := h [] [] hnil .nil
  rwa [List.append_nil, List.append_nil] at hall

end Cut

theorem cut_writeString (P : List Char → Prop) (s : String) : Cut P (writeString s).toList [.str (some s)] := by
  have htext : (writeString s).toList = '"' :: (s.toList.flatMap writeChar ++ ['"']) := String.toList_ofList ..
  rw [htext]
  refine Cut.token (by decide) fun rest _ => ?_
  rw [← htext, scanToken_writeString]

theorem isSpace_of_isPlainDigit {c : Char} (h : Text.isPlainDigit c) : isSpace c = false := by
  refine Bool.eq_false_iff.2 fun hspace => ?_
  simp only [isSpace, Bool.or_eq_true, decide_eq_true_eq] at hspace
  rcases hspace with ((rfl | rfl) | rfl) | rfl <;> exact absurd h (by decide)

theorem cut_writeNumber {n : Number} (hn : n.legible) : Cut Ends (writeNumber n).toList [.num (some n)] := by
  have htoken (rest : List Char) (hrest : Ends rest) := scanToken_writeNumber hn hrest
  have hscan := htoken [] ends_nil
  rw [List.append_nil] at hscan
  rcases scanNumber_of_scanToken hscan with ⟨u, htext, -⟩ | ⟨c, u, htext, hc, -⟩
  · rw [htext] at htoken ⊢
    exact Cut.token (by decide) htoken
  · rw [htext] at htoken ⊢
    exact Cut.token (isSpace_of_isPlainDigit hc) htoken

end Json

end DesignCanvas
