import DesignCanvas.Json.Reader
import DesignCanvas.Proofs.Json.Tokens

/-!
# A blank at the end

A text denotes the same value, or none, if a blank is put behind it (`Json.parse?_blank`). A blank is no part of any
token but a string, which does not end without its closing quote. So what is read of a text is read of the longer one,
what fails still fails, and the blank stays behind (`Json.scanToken_blank`).
-/

namespace DesignCanvas.Json

open DesignCanvas

/-! ## Blanks -/

theorem isSpace_cases {c : Char} (h : isSpace c) : c = ' ' ∨ c = '\n' ∨ c = '\t' ∨ c = '\r' := by
  simpa [isSpace, or_assoc] using h

variable {c : Char}

theorem ne_of_isSpace (hc : isSpace c) {x : Char} (hx : isSpace x = false) : c ≠ x := by
  rintro rfl
  rw [hc] at hx
  cases hx

theorem not_isHexDigit_of_isSpace (hc : isSpace c) : Text.isHexDigit c = false := by
  rcases isSpace_cases hc with rfl | rfl | rfl | rfl <;> rfl

theorem shortEscape?_of_isSpace (hc : isSpace c) : shortEscape? c = none := by
  rcases isSpace_cases hc with rfl | rfl | rfl | rfl <;> rfl

theorem ends_blank (hc : isSpace c) : Ends [c] := by
  refine ends_cons ?_ []
  rcases isSpace_cases hc with rfl | rfl | rfl | rfl <;> decide

/-! ## Tokens -/

theorem scanString_escape {e : Char} (he : e ≠ 'u') (r : Reading) (s : List Char) :
    scanString r ('\\' :: e :: s) = (shortEscape? e).bind fun x => scanString (r.push x) s := by
  rw [scanString]
  · cases shortEscape? e <;> rfl
  · exact fun _ _ _ _ _ h _ => he h

theorem scanString_plain {x : Char} (hquote : x ≠ '"') (hslash : x ≠ '\\') (r : Reading) (s : List Char) :
    scanString r (x :: s) = if x.toNat < 0x20 then none else scanString (r.push x) s := by
  rw [scanString]
  · simp [hslash]
  · exact hquote
  · exact fun _ _ _ _ _ h _ => hslash h
  · exact fun _ _ h _ => hslash h

theorem scanString_blank (hc : isSpace c) (r : Reading) (s : List Char) :
    scanString r (s ++ [c]) = (scanString r s).map fun p => (p.1, p.2 ++ [c]) := by
  fun_induction scanString r s with
  | case1 r => rcases isSpace_cases hc with rfl | rfl | rfl | rfl <;> rfl
  | case2 r s => rw [List.cons_append, scanString, Option.map_some]
  | case3 r a b c' d s hex ih =>
    simp only [List.cons_append]
    rw [scanString, if_pos hex, ih]
  | case4 r a b c' d s hex =>
    simp only [List.cons_append]
    rw [scanString, if_neg hex, Option.map_none]
  | case5 r e s _ x hx ih =>
    have he : e ≠ 'u' := by
      rintro rfl
      cases hx
    rw [List.cons_append, List.cons_append, scanString_escape he, hx, Option.bind_some, ih]
  | case6 r e s hshort hx =>
    by_cases he : e = 'u'
    · subst he
      -- a blank does not make up for a missing digit
      rcases s with _ | ⟨a, _ | ⟨b, _ | ⟨d, _ | ⟨f, s⟩⟩⟩⟩
      · rfl
      · rfl
      · rfl
      · simp [scanString, not_isHexDigit_of_isSpace hc]
      · exact (hshort a b d f s rfl rfl).elim
    · rw [List.cons_append, List.cons_append, scanString_escape he, hx, Option.bind_none, Option.map_none]
  | case7 r x s hquote _ halone hx =>
    by_cases hslash : x = '\\'
    · subst hslash
      cases s with
      | nil =>
        rw [List.singleton_append, scanString_escape (ne_of_isSpace hc rfl), shortEscape?_of_isSpace hc,
          Option.bind_none, Option.map_none]
      | cons e s => exact (halone e s rfl rfl).elim
    · rw [List.cons_append, scanString_plain hquote hslash, if_pos (hx.resolve_right hslash), Option.map_none]
  | case8 r x s hquote _ _ hx ih =>
    rw [not_or] at hx
    rw [List.cons_append, scanString_plain hquote hx.2, if_neg hx.1, ih]

theorem scanFraction_blank (hc : isSpace c) (s : List Char) :
    scanFraction (s ++ [c]) = (scanFraction s).map fun p => (p.1, p.2 ++ [c]) := by
  by_cases hpoint : s.head? = some '.'
  · obtain ⟨s, rfl⟩ := List.head?_eq_some_iff.1 hpoint
    rw [List.cons_append, scanFraction, scanFraction, takeWhile_append_of_ends (ends_blank hc),
      dropWhile_append_of_ends (ends_blank hc)]
    split <;> rfl
  · have hscan := scanFraction_of_ne hpoint
    rw [scanFraction_append (ends_blank hc) hscan, hscan, Option.map_some]

theorem scanExponent_blank (hc : isSpace c) (s : List Char) :
    scanExponent (s ++ [c]) = (scanExponent s).map fun p => (p.1, p.2 ++ [c]) := by
  cases hscan : scanExponent s with
  | some p => rw [scanExponent_append (ends_blank hc) hscan, Option.map_some]
  | none =>
    cases s with
    | nil => cases hscan
    | cons x s =>
      rw [scanExponent] at hscan
      rw [List.cons_append, scanExponent]
      split at hscan
      · next hmark =>
        rw [if_pos hmark]
        cases s with
        | nil =>
          rcases isSpace_cases hc with rfl | rfl | rfl | rfl <;> rfl
        | cons y s =>
          rw [scanSign_append (List.cons_ne_nil y s)]
          dsimp only at hscan ⊢
          rw [takeWhile_append_of_ends (ends_blank hc)]
          split at hscan
          · next hdigits => rw [if_pos hdigits, Option.map_none]
          · cases hscan
      · cases hscan

theorem scanNumber_blank (hc : isSpace c) (negative : Bool) (s : List Char) :
    scanNumber negative (s ++ [c]) = (scanNumber negative s).map fun p => (p.1, p.2 ++ [c]) := by
  rw [scanNumber, scanNumber]
  dsimp only
  rw [takeWhile_append_of_ends (ends_blank hc), dropWhile_append_of_ends (ends_blank hc), scanFraction_blank hc]
  split
  · rfl
  · cases scanFraction (s.dropWhile Text.isPlainDigit) with
    | none => rfl
    | some p =>
      simp only [Option.map_some, Option.bind_eq_bind, Option.bind_some, scanExponent_blank hc]
      cases scanExponent p.2 <;> rfl

theorem exists_of_append_blank {w s t : List Char} (hw : c ∉ w) (h : s ++ [c] = w ++ t) : ∃ u, s = w ++ u := by
  rcases List.append_eq_append_iff.1 h with ⟨u, rfl, hu⟩ | ⟨u, rfl, -⟩
  · cases u with
    | nil => exact ⟨[], by simp⟩
    | cons y u =>
      obtain rfl : c = y := (List.cons.inj hu).1
      exact absurd (List.mem_append_right _ (List.mem_cons_self ..)) hw
  · exact ⟨u, rfl⟩

theorem scanToken_blank (hc : isSpace c) (s : List Char) (hs : s ≠ []) :
    scanToken (s ++ [c]) = (scanToken s).map fun p => (p.1, p.2 ++ [c]) := by
  fun_cases scanToken s with
  | case10 s =>
    rw [List.cons_append, scanToken, scanString_blank hc]
    cases scanString ⟨[], none, false⟩ s <;> rfl
  | case11 s =>
    rw [List.cons_append, scanToken, scanNumber_blank hc]
    cases scanNumber true s <;> rfl
  | case12 x s _ _ _ _ _ _ _ _ _ _ _ hdigit =>
    rw [List.cons_append, scanToken_digit hdigit, ← List.cons_append, scanNumber_blank hc]
    cases scanNumber false (x :: s) <;> rfl
  | case13 x s _ _ _ _ _ _ hnull htrue hfalse _ _ hdigit =>
    have hword {w t : List Char} (hw : w.all fun y => !isSpace y) (ht : s ++ [c] = w ++ t) : ∃ u, s = w ++ u := by
      refine exists_of_append_blank (fun hmem => ?_) ht
      simpa [hc] using List.all_eq_true.1 hw c hmem
    rw [List.cons_append, scanToken, if_neg hdigit, Option.map_none]
    iterate 6 assumption
    · intro t hx ht
      obtain ⟨u, hu⟩ := hword (w := ['u', 'l', 'l']) rfl ht
      exact hnull u hx hu
    · intro t hx ht
      obtain ⟨u, hu⟩ := hword (w := ['r', 'u', 'e']) rfl ht
      exact htrue u hx hu
    · intro t hx ht
      obtain ⟨u, hu⟩ := hword (w := ['a', 'l', 's', 'e']) rfl ht
      exact hfalse u hx hu
    · assumption
    · assumption
  | case14 => exact absurd rfl hs
  | _ => rfl

/-! ## What is left of a text -/

theorem scanString_suffix {r : Reading} {s t : List Char} {v : Option String} (h : scanString r s = some (v, t)) :
    t <:+ s := by
  fun_induction scanString r s with
  | case1 | case4 | case6 | case7 => cases h
  | case2 r s =>
    cases h
    exact List.suffix_cons _ _
  | case3 r a b c d s _ ih =>
    have hdigits : s <:+ '\\' :: 'u' :: a :: b :: c :: d :: s := List.suffix_append ['\\', 'u', a, b, c, d] s
    exact (ih h).trans hdigits
  | case5 r e s _ c _ ih => exact (ih h).trans (List.suffix_append ['\\', e] s)
  | case8 r c s _ _ _ _ ih => exact (ih h).trans (List.suffix_cons c s)

theorem scanFraction_suffix {s t digits : List Char} (h : scanFraction s = some (digits, t)) : t <:+ s := by
  unfold scanFraction at h
  split at h
  · dsimp only at h
    split at h
    · cases h
    · cases h
      exact (List.dropWhile_suffix _).trans (List.suffix_cons _ _)
  · cases h
    exact List.suffix_rfl

theorem scanSign_suffix (s : List Char) : (scanSign s).2 <:+ s := by
  unfold scanSign
  split
  · exact List.suffix_cons _ _
  · exact List.suffix_cons _ _
  · exact List.suffix_rfl

theorem scanExponent_suffix {s t : List Char} {e : Option (Bool × List Char)} (h : scanExponent s = some (e, t)) :
    t <:+ s := by
  unfold scanExponent at h
  split at h
  · split at h
    · dsimp only at h
      split at h
      · cases h
      · cases h
        exact (List.dropWhile_suffix _).trans ((scanSign_suffix _).trans (List.suffix_cons _ _))
    · cases h
      exact List.suffix_rfl
  · cases h
    exact List.suffix_rfl

theorem scanNumber_suffix {negative : Bool} {s t : List Char} {n : Option Number}
    (h : scanNumber negative s = some (n, t)) : t <:+ s.dropWhile Text.isPlainDigit := by
  rw [scanNumber] at h
  dsimp only at h
  split at h
  · cases h
  · simp only [Option.bind_eq_bind, Option.bind_eq_some_iff, Option.pure_def, Option.some.injEq, Prod.mk.injEq] at h
    obtain ⟨⟨fraction, s₁⟩, hfraction, ⟨exponent, s₂⟩, hexponent, -, rfl⟩ := h
    exact (scanExponent_suffix hexponent).trans (scanFraction_suffix hfraction)

theorem scanToken_suffix (s : List Char) : ∀ p ∈ scanToken s, p.2 <:+ s.tail := by
  fun_cases scanToken s with
  | case7 s => exact fun p hp => Option.some.inj hp ▸ List.suffix_append ['u', 'l', 'l'] s
  | case8 s => exact fun p hp => Option.some.inj hp ▸ List.suffix_append ['r', 'u', 'e'] s
  | case9 s => exact fun p hp => Option.some.inj hp ▸ List.suffix_append ['a', 'l', 's', 'e'] s
  | case10 s =>
    intro p hp
    obtain ⟨⟨v, t⟩, hscan, rfl⟩ := Option.map_eq_some_iff.1 hp
    exact scanString_suffix hscan
  | case11 s =>
    intro p hp
    obtain ⟨⟨v, t⟩, hscan, rfl⟩ := Option.map_eq_some_iff.1 hp
    exact (scanNumber_suffix hscan).trans (List.dropWhile_suffix _)
  | case12 x s _ _ _ _ _ _ _ _ _ _ _ hdigit =>
    intro p hp
    obtain ⟨⟨v, t⟩, hscan, rfl⟩ := Option.map_eq_some_iff.1 hp
    have hsuffix := scanNumber_suffix hscan
    rw [List.dropWhile_cons_of_pos hdigit] at hsuffix
    exact hsuffix.trans (List.dropWhile_suffix _)
  | case13 | case14 => exact nofun
  | _ => exact fun p hp => Option.some.inj hp ▸ List.suffix_rfl

/-! ## Texts -/

theorem tokensFrom_blank (hc : isSpace c) (steps : Nat) (done : List Token) (s : List Char)
    (hsteps : s.length < steps) :
    tokensFrom (steps + 1) done (s ++ [c]) = tokensFrom steps done s := by
  induction steps generalizing done s with
  | zero => cases hsteps
  | succ steps ih =>
    rw [tokensFrom, tokensFrom, List.dropWhile_append]
    cases hrest : s.dropWhile isSpace with
    | nil => simp [hc]
    | cons x u =>
      rw [List.isEmpty_cons, if_neg Bool.false_ne_true, List.cons_append]
      dsimp only
      rw [← List.cons_append, scanToken_blank hc (x :: u) (List.cons_ne_nil x u)]
      cases hscan : scanToken (x :: u) with
      | none => rfl
      | some p =>
        obtain ⟨t, rest⟩ := p
        refine ih (t :: done) rest ?_
        have hdropped : (x :: u).length ≤ s.length := hrest ▸ (List.dropWhile_suffix isSpace).length_le
        have htaken : rest.length ≤ u.length := (scanToken_suffix (x :: u) _ hscan).length_le
        rw [List.length_cons] at hdropped
        omega

/-- A blank at the end of a text makes no difference to what it denotes. -/
theorem parse?_blank (hc : isSpace c) (s : String) : parse? (s ++ String.singleton c) = parse? s := by
  rw [parse?, parse?, tokens?, tokens?]
  simp only [String.toList_append, String.toList_singleton, List.length_append, List.length_singleton]
  rw [tokensFrom_blank hc _ _ _ (Nat.lt_succ_self _)]

end DesignCanvas.Json
