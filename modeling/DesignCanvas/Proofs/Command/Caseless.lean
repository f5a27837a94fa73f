import DesignCanvas.Proofs.Command.Decision
import DesignCanvas.Proofs.Text.Caseless

/-!
# Commands in another case

The case of ASCII letters makes no difference to what a command is taken for (`read_caseless`): the same rule decides,
or none, with the same numbers, the same colour and the same complaint. Only the texts that a command quotes differ,
and these in case alone. Some rules look at the lower case of the command, which is the same; the others look at marks
and words whose places are the same.
-/

namespace DesignCanvas

open Text (Caseless SameButCase caseless_of_ascii lowerPlain)

/-! ## Colours -/

namespace Color

theorem hexPart_lowerPlain (s : List Char) : hexPart (lowerPlain s) = lowerPlain (hexPart s) := by
  have hsign : Caseless fun c => decide (c = '#') := caseless_of_ascii (by decide)
  rw [hexPart, Text.trim_lowerPlain, Text.dropWhile_lowerPlain hsign, hexPart]

theorem ofDigits?_lowerPlain (digits : List Char) : ofDigits? (lowerPlain digits) = ofDigits? digits := by
  have hvalue : Caseless Text.hexValue := caseless_of_ascii (by decide)
  have hpair : ∀ c d : Char, pairValue c.toLower d.toLower = pairValue c d := fun c d => by
    rw [pairValue, pairValue, hvalue, hvalue]
  match digits with
  | [] | [_] | [_, _] | [_, _, _, _] | [_, _, _, _, _] | _ :: _ :: _ :: _ :: _ :: _ :: _ :: _ => rfl
  | [r, g, b] => simp only [lowerPlain, List.map_cons, List.map_nil, ofDigits?, hpair]
  | [r, r', g, g', b, b'] => simp only [lowerPlain, List.map_cons, List.map_nil, ofDigits?, hpair]

theorem ofChars?_lowerPlain (s : List Char) : ofChars? (lowerPlain s) = ofChars? s := by
  have hall : (lowerPlain (hexPart s)).all Text.isHexDigit = (hexPart s).all Text.isHexDigit := by
    rw [lowerPlain, List.all_map, show Text.isHexDigit ∘ Char.toLower = Text.isHexDigit from
      funext Text.caseless_isHexDigit]
  rw [ofChars?, hexPart_lowerPlain, hall, ofDigits?_lowerPlain, ofChars?]

end Color

/-- Two intents that differ at most in the case of ASCII letters in their texts. -/
inductive Intent.SameButCase : Intent → Intent → Prop
  | replaceText {search search' replacement replacement' : String} :
    Text.SameButCase search.toList search'.toList → Text.SameButCase replacement.toList replacement'.toList →
      SameButCase (.replaceText search replacement) (.replaceText search' replacement')
  | replaceAllText {text text' : String} :
    Text.SameButCase text.toList text'.toList → SameButCase (.replaceAllText text) (.replaceAllText text')
  | setColor {hex hex' : String} (color : Color) :
    Text.SameButCase hex.toList hex'.toList → SameButCase (.setColor hex color) (.setColor hex' color)
  | rename {name name' : String} :
    Text.SameButCase name.toList name'.toList → SameButCase (.rename name) (.rename name')
  | refl (i : Intent) : SameButCase i i

namespace Command

variable {s t : List Char} {p p' : Phrase}

/-! ## Patterns -/

theorem hexLiteral?_lowerPlain (s : List Char) : hexLiteral? (lowerPlain s) = (hexLiteral? s).map lowerPlain := by
  have hsign : Caseless fun c => decide (c = '#') := caseless_of_ascii (by decide)
  have hnone : ∀ (c : Char) (s : List Char), c ≠ '#' → hexLiteral? (c :: s) = none := by
    intro c s hc
    unfold hexLiteral?
    split
    · next heq => exact absurd (List.cons.inj heq).1 hc
    · rfl
  cases s with
  | nil => rfl
  | cons c s =>
    have hc := Text.toLower_eq_iff hsign c
    rw [lowerPlain, List.map_cons, ← lowerPlain]
    by_cases h : c = '#'
    · have hlength : ((lowerPlain s).takeWhile Text.isHexDigit).length = (s.takeWhile Text.isHexDigit).length := by
        rw [Text.takeWhile_lowerPlain Text.caseless_isHexDigit, lowerPlain, List.length_map]
      rw [hc.2 h, h, hexLiteral?, hexLiteral?, hlength, Text.take_lowerPlain, Text.take_lowerPlain]
      split
      · rfl
      · split <;> rfl
    · rw [hnone _ _ h, hnone _ _ (mt hc.1 h)]
      rfl

theorem afterCaseless?_lowerPlain (word : String) (s : List Char) :
    afterCaseless? word (lowerPlain s) = (afterCaseless? word s).map lowerPlain := by
  rw [afterCaseless?, afterCaseless?, Text.take_lowerPlain, Text.drop_lowerPlain, Text.lowerPlain_lowerPlain]
  split <;> rfl

theorem newName?_lowerPlain (s : List Char) : newName? (lowerPlain s) = (newName? s).map lowerPlain := by
  have hparticle : Caseless isParticle := caseless_of_ascii (by decide)
  have hafter : (["이름", "rename"].findSome? fun w => afterCaseless? w (lowerPlain s)) =
      (["이름", "rename"].findSome? fun w => afterCaseless? w s).map lowerPlain := by
    rw [List.map_findSome?]
    exact congrArg (List.findSome? · _) (funext fun w => afterCaseless?_lowerPlain w s)
  rw [newName?, newName?, hafter]
  cases ["이름", "rename"].findSome? fun w => afterCaseless? w s with
  | none => rfl
  | some t =>
    rw [Option.map_some]
    dsimp only
    rw [Text.skipOne_lowerPlain hparticle, Text.dropWhile_lowerPlain Text.caseless_isBlank, Text.quoted?_lowerPlain]

/-! ## Rules -/

/-- Two phrases that differ at most in the case of ASCII letters. -/
structure Phrase.SameButCase (p p' : Phrase) : Prop where
  raw : Text.SameButCase p.raw p'.raw
  lower : p.lower = p'.lower

theorem Phrase.sameButCase_of {input input' : String} (h : Text.SameButCase input.toList input'.toList) :
    Phrase.SameButCase (.of input) (.of input') :=
  ⟨h.trim, h.trim.lower_eq⟩

/-- Two readings that differ at most in the case of ASCII letters in the texts of their intents. -/
inductive Reading.SameButCase : Reading → Reading → Prop
  | intent {i j : Intent} : i.SameButCase j → SameButCase (.ok i) (.ok j)
  | fault (fault : Fault) : SameButCase (.error fault) (.error fault)

theorem Reading.SameButCase.refl : ∀ reading : Reading, SameButCase reading reading
  | .ok i => .intent (.refl i)
  | .error f => .fault f

/-- A rule reads two such phrases alike, or applies to neither. -/
def ReadAlike (o o' : Option Reading) : Prop :=
  Option.Rel Reading.SameButCase o o'

theorem ReadAlike.of_eq {o o' : Option Reading} (h : o = o') : ReadAlike o o' := by
  subst h
  cases o with
  | none => exact .none
  | some reading => exact .some (.refl reading)

theorem ReadAlike.intent {i j : Intent} (h : i.SameButCase j) : ReadAlike (some (.ok i)) (some (.ok j)) :=
  .some (.intent h)

theorem sameButCase_ofList (h : Text.SameButCase s t) :
    Text.SameButCase (String.ofList s).toList (String.ofList t).toList := by
  rwa [String.toList_ofList, String.toList_ofList]

theorem mentions_eq (h : p.SameButCase p') (groups : List (List String)) : p.mentions groups = p'.mentions groups := by
  rw [Phrase.mentions, Phrase.mentions, h.lower]

theorem readSearchReplace_alike (h : p.SameButCase p') : ReadAlike (readSearchReplace p) (readSearchReplace p') := by
  have harrow : Caseless fun c => decide (c = '>') := caseless_of_ascii (by decide)
  have hguard : (!p.raw.contains '>' || decide (p.raw.head? = some '>')) =
      (!p'.raw.contains '>' || decide (p'.raw.head? = some '>')) := by
    have hcontains : p.raw.contains '>' = p'.raw.contains '>' := by
      rw [Bool.eq_iff_iff, List.contains_iff_mem, List.contains_iff_mem, h.raw.mem_iff harrow]
    rw [hcontains, decide_eq_decide.2 (h.raw.head?_iff harrow)]
  have hpieces := h.raw.splitAt harrow
  rw [readSearchReplace, readSearchReplace, hguard]
  split
  · exact .none
  · generalize Text.splitAt '>' p.raw = pieces at hpieces ⊢
    generalize Text.splitAt '>' p'.raw = pieces' at hpieces ⊢
    match hpieces with
    | .nil | .cons _ .nil | .cons _ (.cons _ (.cons _ _)) => exact .of_eq rfl
    | .cons hsearch (.cons hreplacement .nil) =>
      dsimp only
      rw [hsearch.trim.isEmpty_eq]
      split
      · exact .of_eq rfl
      · exact .intent (.replaceText (sameButCase_ofList hsearch.trim) (sameButCase_ofList hreplacement.trim))

theorem readReplaceAll_eq (p : Phrase) : readReplaceAll p =
    if p.raw.head? = some '>' then some (.ok (.replaceAllText (String.ofList (Text.trim p.raw.tail)))) else none := by
  unfold readReplaceAll
  split
  · next s hraw =>
    rw [hraw]
    rfl
  · next hraw =>
    refine (if_neg fun hhead => ?_).symm
    obtain ⟨s, hs⟩ := List.head?_eq_some_iff.1 hhead
    exact hraw s hs

theorem readReplaceAll_alike (h : p.SameButCase p') : ReadAlike (readReplaceAll p) (readReplaceAll p') := by
  have harrow : Caseless fun c => decide (c = '>') := caseless_of_ascii (by decide)
  rw [readReplaceAll_eq, readReplaceAll_eq]
  simp only [h.raw.head?_iff harrow]
  split
  · exact .intent (.replaceAllText (sameButCase_ofList h.raw.tail.trim))
  · exact .none

theorem readQuotedText_alike (h : p.SameButCase p') : ReadAlike (readQuotedText p) (readQuotedText p') := by
  have hfound := h.raw.firstMatch Text.quoted?_lowerPlain
  rw [readQuotedText, readQuotedText, mentions_eq h]
  split
  · generalize Text.firstMatch Text.quoted? p.raw = found at hfound ⊢
    generalize Text.firstMatch Text.quoted? p'.raw = found' at hfound ⊢
    cases hfound with
    | none => exact .of_eq rfl
    | some htext => exact .intent (.replaceAllText (sameButCase_ofList htext))
  · exact .none

theorem readColor_alike (h : p.SameButCase p') : ReadAlike (readColor p) (readColor p') := by
  have hfound := h.raw.firstMatch hexLiteral?_lowerPlain
  rw [readColor, readColor, mentions_eq h]
  split
  · generalize Text.firstMatch hexLiteral? p.raw = found at hfound ⊢
    generalize Text.firstMatch hexLiteral? p'.raw = found' at hfound ⊢
    cases hfound with
    | none => exact .of_eq rfl
    | @some hex hex' hhex =>
      have hcolor : Color.ofChars? hex = Color.ofChars? hex' := by
        rw [← Color.ofChars?_lowerPlain hex, hhex, Color.ofChars?_lowerPlain]
      rw [Option.bind_some, Option.bind_some, hcolor]
      cases Color.ofChars? hex' with
      | none => exact .of_eq rfl
      | some color => exact .intent (.setColor color (sameButCase_ofList hhex))
  · exact .none

theorem readFontSize_alike (h : p.SameButCase p') : ReadAlike (readFontSize p) (readFontSize p') := by
  have hrun : (Text.firstMatch Text.digitRun? p.raw).map Prod.fst =
      (Text.firstMatch Text.digitRun? p'.raw).map Prod.fst := by
    have hlower : ∀ s, (Text.firstMatch Text.digitRun? (lowerPlain s)).map Prod.fst =
        (Text.firstMatch Text.digitRun? s).map Prod.fst := fun s => by
      rw [Text.firstMatch_lowerPlain Text.digitRun?_lowerPlain, Option.map_map]
      rfl
    rw [← hlower, h.raw, hlower]
  rw [readFontSize, readFontSize, h.lower, mentions_eq h]
  split
  · exact .of_eq rfl
  · split
    · generalize Text.firstMatch Text.digitRun? p.raw = found at hrun ⊢
      generalize Text.firstMatch Text.digitRun? p'.raw = found' at hrun ⊢
      cases found <;> cases found' <;>
        simp only [Option.map_none, Option.map_some, Option.some.injEq, reduceCtorEq] at hrun
      · exact .of_eq rfl
      · exact .of_eq (by dsimp only; rw [hrun])
    · exact .none

theorem readRename_alike (h : p.SameButCase p') : ReadAlike (readRename p) (readRename p') := by
  have hfound := h.raw.firstMatch newName?_lowerPlain
  rw [readRename, readRename]
  generalize Text.firstMatch newName? p.raw = found at hfound ⊢
  generalize Text.firstMatch newName? p'.raw = found' at hfound ⊢
  cases hfound with
  | none => exact .none
  | some hname => exact .intent (.rename (sameButCase_ofList hname))

/-- A rule reads two phrases alike that differ in case only. -/
theorem Rule.read_alike (h : p.SameButCase p') (rule : Rule) : ReadAlike (rule.read p) (rule.read p') := by
  cases rule with
  | searchReplace => exact readSearchReplace_alike h
  | replaceAll => exact readReplaceAll_alike h
  | quotedText => exact readQuotedText_alike h
  | color => exact readColor_alike h
  | fontSize => exact readFontSize_alike h
  | rename => exact readRename_alike h
  | width | height | cornerRadius => exact .of_eq (by simp only [Rule.read, readNumber, h.lower])
  | move => exact .of_eq (by simp only [Rule.read, readMove, h.lower])
  | opacity => exact .of_eq (by simp only [Rule.read, readOpacity, mentions_eq h, h.lower])
  | duplicate | delete | reveal | hide => exact .of_eq (by simp only [Rule.read, readWord, mentions_eq h])

/-! ## Commands -/

/-- The answers to two commands that differ at most in the case of ASCII letters: the same rule gives such intents, or
refuses both commands for the same reason, or no rule applies. -/
inductive AnsweredAlike : Except CommandError (Rule × Intent) → Except CommandError (Rule × Intent) → Prop
  | intent (rule : Rule) {i j : Intent} : i.SameButCase j → AnsweredAlike (.ok (rule, i)) (.ok (rule, j))
  | invalid (rule : Rule) (fault : Fault) : AnsweredAlike (.error (.invalid rule fault)) (.error (.invalid rule fault))
  | unrecognized {input input' : String} : Text.SameButCase input.toList input'.toList →
    AnsweredAlike (.error (.unrecognized input)) (.error (.unrecognized input'))

theorem decide?_alike (h : p.SameButCase p') :
    Option.Rel (fun d d' => d.1 = d'.1 ∧ d.2.SameButCase d'.2) p.decide? p'.decide? := by
  unfold Phrase.decide?
  induction Rule.all with
  | nil => exact .none
  | cons rule rules ih =>
    have hrule := rule.read_alike h
    rw [List.findSome?_cons, List.findSome?_cons]
    generalize rule.read p = reading at hrule ⊢
    generalize rule.read p' = reading' at hrule ⊢
    cases hrule with
    | none => exact ih
    | some hreading => exact .some ⟨rfl, hreading⟩

/-- Two commands that differ at most in the case of ASCII letters are answered alike. -/
theorem read_caseless {input input' : String} (h : Text.SameButCase input.toList input'.toList) :
    AnsweredAlike (read input) (read input') := by
  have hphrase := Phrase.sameButCase_of h
  have hdecide := decide?_alike hphrase
  rw [read, read, hphrase.raw.isEmpty_eq]
  split
  · exact .unrecognized h
  · generalize (Phrase.of input).decide? = decision at hdecide ⊢
    generalize (Phrase.of input').decide? = decision' at hdecide ⊢
    cases hdecide with
    | none => exact .unrecognized h
    | @some d d' hd =>
      obtain ⟨rule, reading⟩ := d
      obtain ⟨rule', reading'⟩ := d'
      obtain ⟨rfl, hreading⟩ := hd
      cases hreading with
      | intent hintent => exact .intent rule hintent
      | fault fault => exact .invalid rule fault

/-- The words of the rule and the digits of the colour in other cases, beside letters that are not of ASCII. -/
theorem read_caseless_shouted :
    Text.SameButCase "COLOR Äα #aBc".toList "color Äα #AbC".toList ∧
      read "COLOR Äα #aBc" =
        .ok (.color, .setColor "#aBc" ⟨Color.channel 0xAA, Color.channel 0xBB, Color.channel 0xCC⟩) ∧
      AnsweredAlike (read "COLOR Äα #aBc") (read "color Äα #AbC") := by
  have hsame : Text.SameButCase "COLOR Äα #aBc".toList "color Äα #AbC".toList := by decide
  exact ⟨hsame, by decide +kernel, read_caseless hsame⟩

end Command

end DesignCanvas
