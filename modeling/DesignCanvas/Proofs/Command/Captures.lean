import DesignCanvas.Proofs.Command.Decision
import DesignCanvas.Proofs.Text.Numerals

/-!
# The numbers in a command

Where the numbers of a command stand: which words, particles, blanks and marks are around them. The readers of the rules
find just these places (`numberAfter?_eq_some_iff`, `fontSizeAfter?_eq_some_iff`, `percentage?_eq_some_iff`,
`offsets?_eq_some_iff`), so a rule captures one list of runs of digits at most (`Captures.unique`).
-/

namespace DesignCanvas.Command

open Text (IsRun IsSigned FoundPast)

variable {s t run rest dx dy : List Char} {words : List String} {p : Phrase} {rule : Rule}
  {runs : List (List Char)}

/-! ## Places of numbers -/

/-- A run of digits after a particle and blanks, or without them. -/
def NumberPart (s run rest : List Char) : Prop :=
  ∃ particle blanks, s = particle ++ (blanks ++ (run ++ rest)) ∧ Text.AtMostOne isParticle particle ∧
    (∀ c ∈ blanks, Text.isBlank c) ∧ IsRun run rest

/-- A number after one of some words. -/
def NumberAfter (words : List String) (s run : List Char) : Prop :=
  ∃ word ∈ words, ∃ t rest, s = word.toList ++ t ∧ NumberPart t run rest

/-- A number after the word for font, with or without the word for size. -/
def FontSizeAfter (s run : List Char) : Prop :=
  ∃ blanks size t rest, s = "폰트".toList ++ (blanks ++ (size ++ t)) ∧ (∀ c ∈ blanks, Text.isBlank c) ∧
    (size = [] ∨ size = "크기".toList) ∧ NumberPart t run rest

/-- A number before a percent sign. -/
def Percentage (s run : List Char) : Prop :=
  ∃ blanks rest, s = run ++ (blanks ++ '%' :: rest) ∧ run ≠ [] ∧ (∀ c ∈ run, Text.isDigit c) ∧
    ∀ c ∈ blanks, Text.isBlank c

/-- Two signed numbers with a comma between them, after an opening bracket or without it. -/
def SignedPair (s : List Char) (pair : List Char × List Char) : Prop :=
  ∃ bracket blanks₁ blanks₂ blanks₃ rest,
    s = bracket ++ (blanks₁ ++ (pair.1 ++ (blanks₂ ++ ',' :: (blanks₃ ++ (pair.2 ++ rest))))) ∧
    Text.AtMostOne (· = '(') bracket ∧ (∀ c ∈ blanks₁ ++ blanks₂ ++ blanks₃, Text.isBlank c) ∧
    IsSigned pair.1 [] ∧ IsSigned pair.2 rest

/-- The first such pair on the line after a word for moving. -/
def OffsetsAfter (s : List Char) (pair : List Char × List Char) : Prop :=
  ∃ word ∈ ["이동", "움직", "move"], ∃ t, s = word.toList ++ t ∧ FoundPast (· ≠ '\n') SignedPair t pair

theorem NumberPart.isRun (h : NumberPart s run rest) : IsRun run rest := by
  obtain ⟨particle, blanks, -, -, -, hrun⟩ := h
  exact hrun

theorem NumberAfter.isRun (h : NumberAfter words s run) : ∃ rest, IsRun run rest := by
  obtain ⟨word, -, t, rest, -, hpart⟩ := h
  exact ⟨rest, hpart.isRun⟩

theorem FontSizeAfter.isRun (h : FontSizeAfter s run) : ∃ rest, IsRun run rest := by
  obtain ⟨blanks, size, t, rest, -, -, -, hpart⟩ := h
  exact ⟨rest, hpart.isRun⟩

theorem Percentage.isRun (h : Percentage s run) : IsRun run [] := by
  obtain ⟨blanks, rest, -, hne, hdigits, -⟩ := h
  exact ⟨hne, hdigits, by simp⟩

theorem OffsetsAfter.isSigned (h : OffsetsAfter s (dx, dy)) : IsSigned dx [] ∧ ∃ rest, IsSigned dy rest := by
  obtain ⟨word, -, t, -, hpair⟩ := h
  obtain ⟨u, bracket, blanks₁, blanks₂, blanks₃, rest, -, -, -, hdx, hdy⟩ := hpair.exists_place
  exact ⟨hdx, rest, hdy⟩

/-! ## What they begin with -/

theorem forall_head?_append {q : Char → Prop} (hs : ∀ c ∈ s, q c) (ht : ∀ c ∈ t.head?, q c) :
    ∀ c ∈ (s ++ t).head?, q c := by
  cases s with
  | nil => exact ht
  | cons d s =>
    intro c hc
    obtain rfl : d = c := Option.some.inj hc
    exact hs d List.mem_cons_self

theorem head_run (h : IsRun run rest) : ∀ c ∈ (run ++ t).head?, Text.isDigit c := by
  obtain ⟨d, run, rfl⟩ := List.exists_cons_of_ne_nil h.nonempty
  intro c hc
  obtain rfl : d = c := Option.some.inj hc
  exact h.digits d List.mem_cons_self

theorem head_blanks (hs : ∀ c ∈ s, Text.isBlank c) (h : IsRun run rest) :
    ∀ c ∈ (s ++ (run ++ t)).head?, Text.isBlank c ∨ Text.isDigit c :=
  forall_head?_append (fun c hc => Or.inl (hs c hc)) fun c hc => Or.inr (head_run h c hc)

theorem not_isBlank_of_isDigit {c : Char} (h : Text.isDigit c) : ¬ Text.isBlank c :=
  fun hblank => Text.not_isDigit_of_isBlank hblank h

theorem dropWhile_run (hs : ∀ c ∈ s, Text.isBlank c) (h : IsRun run rest) (t : List Char) :
    (s ++ (run ++ t)).dropWhile Text.isBlank = run ++ t :=
  Text.dropWhile_eq_iff.2 ⟨s, rfl, hs, fun c hc => not_isBlank_of_isDigit (head_run h c hc)⟩

theorem isParticle_iff {c : Char} : isParticle c ↔ c = '를' ∨ c = '을' := by
  simp [isParticle]

theorem not_isParticle {c : Char} (h : Text.isBlank c ∨ Text.isDigit c) : ¬ isParticle c := by
  rw [isParticle_iff]
  rintro (rfl | rfl) <;> exact absurd h (by decide +kernel)

/-! ## A number after words -/

theorem digitRun?_skipped_iff :
    Text.digitRun? ((Text.skipOne isParticle s).dropWhile Text.isBlank) = some (run, rest) ↔ NumberPart s run rest := by
  constructor
  · intro h
    obtain ⟨particle, hparticle, hone⟩ := Text.exists_skipOne isParticle s
    obtain ⟨blanks, hblanks, hall, -⟩ := Text.dropWhile_eq_iff.1 (rfl : (Text.skipOne isParticle s).dropWhile _ = _)
    obtain ⟨hsplit, hrun⟩ := Text.digitRun?_eq_some_iff.1 h
    exact ⟨particle, blanks, by rw [← hsplit, ← hblanks, ← hparticle], hone, hall, hrun⟩
  · rintro ⟨particle, blanks, rfl, hone, hall, hrun⟩
    have hskip : Text.skipOne isParticle (particle ++ (blanks ++ (run ++ rest))) = blanks ++ (run ++ rest) :=
      Text.skipOne_append hone fun c hc => not_isParticle (head_blanks hall hrun c hc)
    rw [hskip, dropWhile_run hall hrun, Text.digitRun?_eq_some_iff]
    exact ⟨rfl, hrun⟩

theorem numberAfter?_eq_some_iff (hwords : Text.Apart words) :
    numberAfter? words s = some run ↔ NumberAfter words s run := by
  unfold numberAfter?
  constructor
  · intro h
    obtain ⟨t, ht, h⟩ := Option.bind_eq_some_iff.1 h
    obtain ⟨⟨run, rest⟩, hrun, heq⟩ := Option.bind_eq_some_iff.1 h
    obtain rfl := Option.some.inj heq
    obtain ⟨word, hword, hs⟩ := (Text.afterAny?_eq_some_iff hwords).1 ht
    exact ⟨word, hword, t, rest, hs, digitRun?_skipped_iff.1 hrun⟩
  · rintro ⟨word, hword, t, rest, hs, hpart⟩
    refine Option.bind_eq_some_iff.2 ⟨t, (Text.afterAny?_eq_some_iff hwords).2 ⟨word, hword, hs⟩, ?_⟩
    exact Option.bind_eq_some_iff.2 ⟨(run, rest), digitRun?_skipped_iff.2 hpart, rfl⟩

theorem NumberPart.dropBlanks (h : NumberPart t run rest) :
    NumberPart (t.dropWhile Text.isBlank) run rest ∧
      ∀ c ∈ (t.dropWhile Text.isBlank).head?, isParticle c ∨ Text.isDigit c := by
  obtain ⟨particle, blanks, rfl, hone, hall, hrun⟩ := h
  match particle with
  | [] =>
    rw [List.nil_append, dropWhile_run hall hrun]
    exact ⟨⟨[], [], rfl, by simp [Text.AtMostOne], by simp, hrun⟩, fun c hc => Or.inr (head_run hrun c hc)⟩
  | [c] =>
    have hc : isParticle c := hone.2 c List.mem_cons_self
    have hblank : ¬ Text.isBlank c := fun hblank => not_isParticle (Or.inl hblank) hc
    rw [List.singleton_append, List.dropWhile_cons_of_neg hblank]
    refine ⟨⟨[c], blanks, rfl, hone, hall, hrun⟩, fun d hd => Or.inl ?_⟩
    obtain rfl : c = d := Option.some.inj hd
    exact hc

theorem fontSizeAfter?_eq_some_iff : fontSizeAfter? s = some run ↔ FontSizeAfter s run := by
  unfold fontSizeAfter?
  constructor
  · intro h
    obtain ⟨u, hu, h⟩ := Option.bind_eq_some_iff.1 h
    obtain ⟨⟨run, rest⟩, hrun, heq⟩ := Option.bind_eq_some_iff.1 h
    obtain rfl := Option.some.inj heq
    obtain ⟨blanks, hblanks, hall, -⟩ := Text.dropWhile_eq_iff.1 (rfl : u.dropWhile Text.isBlank = _)
    obtain ⟨size, hsize, hor⟩ := Text.exists_skipWord "크기" (u.dropWhile Text.isBlank)
    refine ⟨blanks, size, _, rest, ?_, hall, hor, digitRun?_skipped_iff.1 hrun⟩
    rw [← hsize, ← hblanks, Text.afterWord?_eq_some_iff.1 hu]
  · rintro ⟨blanks, size, t, rest, rfl, hall, hsize, hpart⟩
    refine Option.bind_eq_some_iff.2 ⟨_, Text.afterWord?_eq_some_iff.2 rfl, ?_⟩
    refine Option.bind_eq_some_iff.2 ⟨(run, rest), digitRun?_skipped_iff.2 ?_, rfl⟩
    rw [List.dropWhile_append_of_pos hall]
    rcases hsize with rfl | rfl
    · -- without the word for size, the blanks before and after where it would stand are passed over at once
      obtain ⟨hpart, hhead⟩ := hpart.dropBlanks
      have hnot : ¬ "크기".toList <+: t.dropWhile Text.isBlank := by
        rintro ⟨u, hu⟩
        have hfirst := hhead '크' (by rw [← hu]; rfl)
        exact absurd hfirst (by decide +kernel)
      have hskip : Text.skipWord "크기" (t.dropWhile Text.isBlank) = t.dropWhile Text.isBlank :=
        Text.skipWord_append (Or.inl rfl) hnot
      rw [List.nil_append, hskip]
      exact hpart
    · have hdrop : ("크기".toList ++ t).dropWhile Text.isBlank = "크기".toList ++ t :=
        List.dropWhile_cons_of_neg (by decide)
      rw [hdrop, Text.skipWord, Text.afterWord?_eq_some_iff.2 rfl]
      exact hpart

/-! ## Percentages and pairs -/

theorem dropWhile_mark {mark : Char} (hmark : ¬ Text.isBlank mark) (hs : ∀ c ∈ s, Text.isBlank c) (t : List Char) :
    (s ++ mark :: t).dropWhile Text.isBlank = mark :: t := by
  rw [List.dropWhile_append_of_pos hs, List.dropWhile_cons_of_neg hmark]

theorem ends_at_mark {mark : Char} (hmark : ¬ Text.isDigit mark) (hs : ∀ c ∈ s, Text.isBlank c) (t : List Char) :
    ∀ c ∈ (s ++ mark :: t).head?, ¬ Text.isDigit c := by
  refine forall_head?_append (fun c hc => Text.not_isDigit_of_isBlank (hs c hc)) fun c hc => ?_
  obtain rfl : mark = c := Option.some.inj hc
  exact hmark

theorem percentage?_eq_some_iff : percentage? s = some run ↔ Percentage s run := by
  unfold percentage?
  constructor
  · intro h
    obtain ⟨⟨digits, t⟩, hrun, h⟩ := Option.bind_eq_some_iff.1 h
    obtain ⟨hhead, heq⟩ := Option.ite_none_right_eq_some.1 h
    obtain rfl := Option.some.inj heq
    obtain ⟨rfl, hdigits⟩ := Text.digitRun?_eq_some_iff.1 hrun
    obtain ⟨blanks, hblanks, hall, -⟩ := Text.dropWhile_eq_iff.1 (rfl : t.dropWhile Text.isBlank = _)
    obtain ⟨rest, hrest⟩ := List.head?_eq_some_iff.1 hhead
    exact ⟨blanks, rest, by rw [← hrest, ← hblanks], hdigits.nonempty, hdigits.digits, hall⟩
  · rintro ⟨blanks, rest, rfl, hne, hdigits, hall⟩
    have hmark : ((blanks ++ '%' :: rest).dropWhile Text.isBlank).head? = some '%' := by
      rw [dropWhile_mark (by decide) hall]
      rfl
    have hends : ∀ c ∈ (blanks ++ '%' :: rest).head?, ¬ Text.isDigit c := ends_at_mark (by decide) hall rest
    have hrun := Text.digitRun?_eq_some_iff.2 ⟨rfl, hne, hdigits, hends⟩
    exact Option.bind_eq_some_iff.2 ⟨_, hrun, if_pos hmark⟩

theorem IsSigned.change (h : IsSigned run rest) (ht : ∀ c ∈ t.head?, ¬ Text.isDigit c) : IsSigned run t := by
  obtain ⟨digits, hor, hrun⟩ := h
  exact ⟨digits, hor, hrun.nonempty, hrun.digits, ht⟩

theorem head_signed (h : IsSigned run rest) : ∀ c ∈ (run ++ t).head?, c = '-' ∨ Text.isDigit c := by
  obtain ⟨digits, rfl | rfl, hrun⟩ := h
  · exact fun c hc => Or.inr (head_run hrun c hc)
  · exact fun c hc => Or.inl (Option.some.inj hc).symm

theorem not_isBlank_of_signed {c : Char} (h : c = '-' ∨ Text.isDigit c) : ¬ Text.isBlank c := by
  rcases h with rfl | h
  · decide
  · exact not_isBlank_of_isDigit h

theorem dropWhile_signed (hs : ∀ c ∈ s, Text.isBlank c) (h : IsSigned run rest) (t : List Char) :
    (s ++ (run ++ t)).dropWhile Text.isBlank = run ++ t :=
  Text.dropWhile_eq_iff.2 ⟨s, rfl, hs, fun c hc => not_isBlank_of_signed (head_signed h c hc)⟩

theorem signedPair_of_pair? {pair : List Char × List Char} (h : pair? s = some pair) : SignedPair s pair := by
  unfold pair? at h
  obtain ⟨⟨dx, t⟩, hdx, h⟩ := Option.bind_eq_some_iff.1 h
  dsimp only at h
  split at h
  · next u hcomma =>
    obtain ⟨⟨dy, rest⟩, hdy, heq⟩ := Option.bind_eq_some_iff.1 h
    obtain rfl := Option.some.inj heq
    obtain ⟨bracket, hbracket, hone⟩ := Text.exists_skipOne (· = '(') s
    obtain ⟨blanks₁, hblanks₁, hall₁, -⟩ :=
      Text.dropWhile_eq_iff.1 (rfl : (Text.skipOne (· = '(') s).dropWhile Text.isBlank = _)
    obtain ⟨blanks₂, hblanks₂, hall₂, -⟩ := Text.dropWhile_eq_iff.1 (rfl : t.dropWhile Text.isBlank = _)
    obtain ⟨blanks₃, hblanks₃, hall₃, -⟩ := Text.dropWhile_eq_iff.1 (rfl : u.dropWhile Text.isBlank = _)
    obtain ⟨hx, hdx⟩ := Text.signedRun?_eq_some_iff.1 hdx
    obtain ⟨hy, hdy⟩ := Text.signedRun?_eq_some_iff.1 hdy
    refine ⟨bracket, blanks₁, blanks₂, blanks₃, rest, ?_, hone, ?_, IsSigned.change hdx (by simp), hdy⟩
    · rw [← hy, ← hblanks₃, ← hcomma, ← hblanks₂, ← hx, ← hblanks₁, ← hbracket]
    · simp only [List.mem_append, or_imp, forall_and]
      exact ⟨⟨hall₁, hall₂⟩, hall₃⟩
  · cases h

theorem dropWhile_bracket {bracket blanks : List Char} (hone : Text.AtMostOne (· = '(') bracket)
    (hblanks : ∀ c ∈ blanks, Text.isBlank c) (h : IsSigned run rest) (t : List Char) :
    (Text.skipOne (· = '(') (bracket ++ (blanks ++ (run ++ t)))).dropWhile Text.isBlank = run ++ t := by
  have hnot : ∀ {c : Char}, Text.isBlank c ∨ c = '-' ∨ Text.isDigit c → ¬ c = '(' := by
    rintro c hc rfl
    exact absurd hc (by decide)
  have hhead : ∀ c ∈ (blanks ++ (run ++ t)).head?, Text.isBlank c ∨ c = '-' ∨ Text.isDigit c :=
    forall_head?_append (fun c hc => Or.inl (hblanks c hc)) fun c hc => Or.inr (head_signed h c hc)
  rw [Text.skipOne_append hone fun c hc => by simpa using hnot (hhead c hc), dropWhile_signed hblanks h]

theorem pair?_of_signedPair {pair : List Char × List Char} (h : SignedPair s pair) : pair? s = some pair := by
  obtain ⟨dx, dy⟩ := pair
  obtain ⟨bracket, blanks₁, blanks₂, blanks₃, rest, rfl, hone, hall, hdx, hdy⟩ := h
  simp only [List.mem_append, or_imp, forall_and] at hall
  obtain ⟨⟨hall₁, hall₂⟩, hall₃⟩ := hall
  have hdrop : (blanks₃ ++ (dy ++ rest)).dropWhile Text.isBlank = dy ++ rest := dropWhile_signed hall₃ hdy rest
  rw [pair?, dropWhile_bracket hone hall₁ hdx]
  have hdx : IsSigned dx (blanks₂ ++ ',' :: (blanks₃ ++ (dy ++ rest))) :=
    IsSigned.change hdx (ends_at_mark (by decide) hall₂ _)
  refine Option.bind_eq_some_iff.2 ⟨_, Text.signedRun?_eq_some_iff.2 ⟨rfl, hdx⟩, ?_⟩
  dsimp only
  rw [dropWhile_mark (by decide) hall₂]
  change (Text.signedRun? ((blanks₃ ++ (dy ++ rest)).dropWhile Text.isBlank)).bind (fun q => some (dx, q.1)) = _
  rw [hdrop, Text.signedRun?_eq_some_iff.2 ⟨rfl, hdy⟩]
  rfl

theorem pair?_eq_some_iff {pair : List Char × List Char} : pair? s = some pair ↔ SignedPair s pair :=
  ⟨signedPair_of_pair?, pair?_of_signedPair⟩

theorem offsets?_eq_some_iff {pair : List Char × List Char} : offsets? s = some pair ↔ OffsetsAfter s pair := by
  have hwords : Text.Apart ["이동", "움직", "move"] := by decide
  rw [offsets?, Option.bind_eq_some_iff]
  simp only [Text.afterAny?_eq_some_iff hwords, Text.onLine?_eq_some_iff fun _ _ => pair?_eq_some_iff]
  constructor
  · rintro ⟨t, ⟨word, hword, hs⟩, hpair⟩
    exact ⟨word, hword, t, hs, hpair⟩
  · rintro ⟨word, hword, t, hs, hpair⟩
    exact ⟨t, ⟨word, hword, hs⟩, hpair⟩

/-! ## What a rule captures -/

/-- The words and the intent of the rules that read a number after words. -/
def Rule.measure? : Rule → Option (List String × (Nat → Intent))
  | width => some (["너비", "width"], .resizeWidth)
  | height => some (["높이", "height"], .resizeHeight)
  | cornerRadius => some (["모서리", "라운드", "radius", "corner"], .setCornerRadius)
  | _ => none

/-- The runs of digits that a rule takes its numbers from, at the first place that it finds. -/
inductive Captures (p : Phrase) : Rule → List (List Char) → Prop
  | measure {rule : Rule} {words : List String} {intent : Nat → Intent} {run : List Char}
      (h : rule.measure? = some (words, intent))
      (hrun : FoundPast (fun _ => True) (NumberAfter words) p.lower run) : Captures p rule [run]
  | opacity {run : List Char} (hrun : FoundPast (fun _ => True) Percentage p.lower run) : Captures p .opacity [run]
  | fontSize {run : List Char} (hrun : FoundPast (fun _ => True) FontSizeAfter p.lower run) : Captures p .fontSize [run]
  /-- Without the Korean word for font the number may stand anywhere. -/
  | anywhere {run rest : List Char} (hnone : ∀ run, ¬ FoundPast (fun _ => True) FontSizeAfter p.lower run)
      (hrun : FoundPast (fun _ => True) (fun s q => s = q.1 ++ q.2 ∧ IsRun q.1 q.2) p.raw (run, rest)) :
      Captures p .fontSize [run]
  | move {dx dy : List Char} (hrun : FoundPast (fun _ => True) OffsetsAfter p.lower (dx, dy)) :
      Captures p .move [dx, dy]

theorem read_measure {intent : Nat → Intent} (h : rule.measure? = some (words, intent)) :
    rule.read = readNumber words intent ∧ Text.Apart words := by
  cases rule with
  | width | height | cornerRadius =>
    obtain ⟨rfl, rfl⟩ := Prod.mk.inj (Option.some.inj h)
    exact ⟨rfl, by decide⟩
  | _ => cases h

theorem measure_iff {intent : Nat → Intent} (h : rule.measure? = some (words, intent)) :
    Text.firstMatch (numberAfter? words) p.lower = some run ↔
      FoundPast (fun _ => True) (NumberAfter words) p.lower run :=
  Text.firstMatch_eq_some_iff fun _ _ => numberAfter?_eq_some_iff (read_measure h).2

theorem opacity_iff : Text.firstMatch percentage? s = some run ↔ FoundPast (fun _ => True) Percentage s run :=
  Text.firstMatch_eq_some_iff fun _ _ => percentage?_eq_some_iff

theorem fontSize_iff : Text.firstMatch fontSizeAfter? s = some run ↔ FoundPast (fun _ => True) FontSizeAfter s run :=
  Text.firstMatch_eq_some_iff fun _ _ => fontSizeAfter?_eq_some_iff

theorem anywhere_iff : Text.firstMatch Text.digitRun? s = some (run, rest) ↔
    FoundPast (fun _ => True) (fun s q => s = q.1 ++ q.2 ∧ IsRun q.1 q.2) s (run, rest) :=
  Text.firstMatch_eq_some_iff fun _ _ => Text.digitRun?_eq_some_iff

theorem move_iff : Text.firstMatch offsets? s = some (dx, dy) ↔ FoundPast (fun _ => True) OffsetsAfter s (dx, dy) :=
  Text.firstMatch_eq_some_iff fun _ _ => offsets?_eq_some_iff

theorem Captures.unique {runs' : List (List Char)} (h : Captures p rule runs) (h' : Captures p rule runs') :
    runs = runs' := by
  cases h with
  | measure h hrun =>
    cases h' with
    | measure h' hrun' =>
      obtain ⟨rfl, rfl⟩ := Prod.mk.inj (Option.some.inj (h.symm.trans h'))
      rw [← measure_iff h] at hrun hrun'
      rw [Option.some.inj (hrun.symm.trans hrun')]
    | _ => cases h
  | opacity hrun =>
    cases h' with
    | measure h' => cases h'
    | opacity hrun' => rw [Option.some.inj ((opacity_iff.2 hrun).symm.trans (opacity_iff.2 hrun'))]
  | fontSize hrun =>
    cases h' with
    | measure h' => cases h'
    | fontSize hrun' => rw [Option.some.inj ((fontSize_iff.2 hrun).symm.trans (fontSize_iff.2 hrun'))]
    | anywhere hnone => exact absurd hrun (hnone _)
  | anywhere hnone hrun =>
    cases h' with
    | measure h' => cases h'
    | fontSize hrun' => exact absurd hrun' (hnone _)
    | anywhere _ hrun' =>
      rw [(Prod.mk.inj (Option.some.inj ((anywhere_iff.2 hrun).symm.trans (anywhere_iff.2 hrun')))).1]
  | move hrun =>
    cases h' with
    | measure h' => cases h'
    | move hrun' =>
      obtain ⟨rfl, rfl⟩ := Prod.mk.inj (Option.some.inj ((move_iff.2 hrun).symm.trans (move_iff.2 hrun')))
      rfl

end DesignCanvas.Command
