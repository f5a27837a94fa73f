import DesignCanvas.Command.Intent
import DesignCanvas.Text.Case
import DesignCanvas.Text.Pattern
import DesignCanvas.Text.Search

/-!
# Reading commands

A command is free text in Korean or English. Rules are tried in a fixed order, and the first one that applies
decides: it gives an intent, or says what is wrong with the command. A command that no rule applies to is not
understood.
-/

namespace DesignCanvas.Command

open DesignCanvas

/-- The rules by which commands are read. -/
inductive Rule where
  | searchReplace
  | replaceAll
  | quotedText
  | color
  | width
  | height
  | opacity
  | duplicate
  | delete
  | fontSize
  | move
  | reveal
  | hide
  | rename
  | cornerRadius
  deriving DecidableEq, Repr

def Rule.all : List Rule :=
  [searchReplace, replaceAll, quotedText, color, width, height, opacity, duplicate, delete, fontSize, move,
    reveal, hide, rename, cornerRadius]

def Rule.name : Rule → String
  | searchReplace => "search_replace"
  | replaceAll => "replace_all"
  | quotedText => "quoted_text"
  | color => "color"
  | width => "width"
  | height => "height"
  | opacity => "opacity"
  | duplicate => "duplicate"
  | delete => "delete"
  | fontSize => "font_size"
  | move => "move"
  | reveal => "show"
  | hide => "hide"
  | rename => "rename"
  | cornerRadius => "corner_radius"

/-- What can be wrong with a command that a rule applies to. -/
inductive Fault where
  | manyArrows
  | noSearch
  | noText
  | noColor
  | noFontSize
  | numberTooLarge (digits : String)
  | offsetTooLarge (digits : String)
  deriving DecidableEq, Repr

def arrowExample : String :=
  "\n예: 팔로워(전체)>전체 메시지"

def Fault.message : Fault → String
  | manyArrows => "'>'는 한 번만 사용할 수 있습니다." ++ arrowExample
  | noSearch => "찾을 텍스트를 입력해주세요." ++ arrowExample
  | noText => "변경할 텍스트를 입력해주세요." ++ arrowExample
  | noColor => "색상을 HEX 코드로 입력해주세요. 예: #FF5733"
  | noFontSize => "폰트 크기를 숫자로 입력해주세요."
  | numberTooLarge digits => s!"숫자가 너무 큽니다: {digits}"
  | offsetTooLarge digits => s!"이동 값이 올바르지 않습니다: {digits}"

/-- Why a command gives no intent. -/
inductive CommandError where
  | unrecognized (input : String)
  | invalid (rule : Rule) (fault : Fault)
  deriving DecidableEq, Repr

def CommandError.message : CommandError → String
  | unrecognized input => s!"명령어를 이해하지 못했습니다: \"{input}\"\n예시 명령어를 참고해주세요."
  | invalid _ fault => fault.message

/-- A command without the blanks around it, as it was written and in lower case. -/
structure Phrase where
  raw : List Char
  lower : List Char

def Phrase.of (input : String) : Phrase :=
  let raw := Text.trim input.toList
  { raw, lower := Text.lower raw }

/-- What a rule makes of a phrase that it applies to. -/
abbrev Reading := Except Fault Intent

/-! ## Vocabulary -/

/-- Says that all words of one of the groups occur in the phrase. -/
def Phrase.mentions (p : Phrase) (groups : List (List String)) : Bool :=
  groups.any fun words => words.all fun w => Text.contains w.toList p.lower

def isParticle (c : Char) : Bool :=
  c = '를' || c = '을'

/-- The digits after one of some words, with a particle and blanks between them at most. -/
def numberAfter? (words : List String) (s : List Char) : Option (List Char) := do
  let s ← Text.afterAny? words s
  let (run, _) ← Text.digitRun? ((Text.skipOne isParticle s).dropWhile Text.isBlank)
  return run

/-- The digits after the word for font, with the word for size, a particle and blanks between them at most. -/
def fontSizeAfter? (s : List Char) : Option (List Char) := do
  let s ← Text.afterWord? "폰트" s
  let s := Text.skipOne isParticle (Text.skipWord "크기" (s.dropWhile Text.isBlank))
  let (run, _) ← Text.digitRun? (s.dropWhile Text.isBlank)
  return run

def percentage? (s : List Char) : Option (List Char) := do
  let (run, s) ← Text.digitRun? s
  if (s.dropWhile Text.isBlank).head? = some '%' then some run else none

/-- Two signed numbers with a comma between them, after an opening bracket or without. -/
def pair? (s : List Char) : Option (List Char × List Char) := do
  let s := (Text.skipOne (· = '(') s).dropWhile Text.isBlank
  let (dx, s) ← Text.signedRun? s
  match s.dropWhile Text.isBlank with
  | ',' :: s =>
    let (dy, _) ← Text.signedRun? (s.dropWhile Text.isBlank)
    return (dx, dy)
  | _ => none

/-- The first pair of numbers on the line after a word for moving. -/
def offsets? (s : List Char) : Option (List Char × List Char) :=
  (Text.afterAny? ["이동", "움직", "move"] s).bind (Text.onLine? pair?)

/-- The literal of a colour: a number sign with six hexadecimal digits, or else with three. -/
def hexLiteral? : List Char → Option (List Char)
  | '#' :: s =>
    if 6 ≤ (s.takeWhile Text.isHexDigit).length then some ('#' :: s.take 6)
    else if 3 ≤ (s.takeWhile Text.isHexDigit).length then some ('#' :: s.take 3)
    else none
  | _ => none

/-- What comes after a word in lower case that the text starts with, where the case of plain letters does not
matter. -/
def afterCaseless? (word : String) (s : List Char) : Option (List Char) :=
  let n := word.toList.length
  if Text.lowerPlain (s.take n) = word.toList then some (s.drop n) else none

/-- The text in quotation marks after a word for naming, with a particle and blanks between them at most. Letter
case does not matter in the word. -/
def newName? (s : List Char) : Option (List Char) :=
  match ["이름", "rename"].findSome? fun w => afterCaseless? w s with
  | none => none
  | some s => Text.quoted? ((Text.skipOne isParticle s).dropWhile Text.isBlank)

/-! ## Numbers -/

/-- One more than the largest number in a command. -/
def numberLimit : Nat := 0x100000000

/-- The offsets of a move reach from minus this number to just below it. -/
def offsetLimit : Int := 0x8000000000000000

/-- The number of a command, which has to be written in plain digits and below the limit. -/
def number (run : List Char) : Except Fault Nat :=
  match Text.plainNat? run with
  | some n => if n < numberLimit then .ok n else .error (.numberTooLarge (String.ofList run))
  | none => .error (.numberTooLarge (String.ofList run))

/-- An offset of a move, which has to be written in plain digits and within the limits. -/
def offset (run : List Char) : Except Fault Int :=
  match Text.plainInt? run with
  | some n =>
    if -offsetLimit ≤ n ∧ n < offsetLimit then .ok n else .error (.offsetTooLarge (String.ofList run))
  | none => .error (.offsetTooLarge (String.ofList run))

/-- A percentage, of which everything above a hundred, and everything not in plain digits, is a hundred. -/
def percent (run : List Char) : Nat :=
  ((Text.plainNat? run).map (min 100)).getD 100

/-! ## Rules -/

/-- Two texts with one arrow between them: the first is to be replaced by the second. -/
def readSearchReplace (p : Phrase) : Option Reading :=
  if !p.raw.contains '>' || p.raw.head? = some '>' then none
  else match Text.splitAt '>' p.raw with
    | [search, replacement] =>
      let search := Text.trim search
      if search.isEmpty then some (.error .noSearch)
      else some (.ok (.replaceText (String.ofList search) (String.ofList (Text.trim replacement))))
    | _ => some (.error .manyArrows)

/-- A text after an arrow: it is to be written everywhere. -/
def readReplaceAll (p : Phrase) : Option Reading :=
  match p.raw with
  | '>' :: s => some (.ok (.replaceAllText (String.ofList (Text.trim s))))
  | _ => none

def readQuotedText (p : Phrase) : Option Reading :=
  if p.mentions [["텍스트", "변경"], ["text"]] then
    match Text.firstMatch Text.quoted? p.raw with
    | some text => some (.ok (.replaceAllText (String.ofList text)))
    | none => some (.error .noText)
  else none

def readColor (p : Phrase) : Option Reading :=
  if p.mentions [["색", "변경"], ["color"]] then
    match (Text.firstMatch hexLiteral? p.raw).bind fun hex => (Color.ofChars? hex).map (hex, ·) with
    | some (hex, color) => some (.ok (.setColor (String.ofList hex) color))
    | none => some (.error .noColor)
  else none

def readNumber (words : List String) (intent : Nat → Intent) (p : Phrase) : Option Reading :=
  (Text.firstMatch (numberAfter? words) p.lower).map fun run => (number run).map intent

def readOpacity (p : Phrase) : Option Reading :=
  if p.mentions [["투명도"], ["opacity"]] then
    (Text.firstMatch percentage? p.lower).map fun run => .ok (.setOpacity (percent run))
  else none

def readWord (words : List String) (intent : Intent) (p : Phrase) : Option Reading :=
  if p.mentions (words.map fun w => [w]) then some (.ok intent) else none

/-- A number after words for the size of a font, or any number with the English words for it. -/
def readFontSize (p : Phrase) : Option Reading :=
  match Text.firstMatch fontSizeAfter? p.lower with
  | some run => some ((number run).map .setFontSize)
  | none =>
    if p.mentions [["font", "size"]] then
      match Text.firstMatch Text.digitRun? p.raw with
      | some (run, _) => some ((number run).map .setFontSize)
      | none => some (.error .noFontSize)
    else none

def readMove (p : Phrase) : Option Reading :=
  (Text.firstMatch offsets? p.lower).map fun (dx, dy) => do
    let dx ← offset dx
    let dy ← offset dy
    return .move dx dy

def readRename (p : Phrase) : Option Reading :=
  (Text.firstMatch newName? p.raw).map fun name => .ok (.rename (String.ofList name))

/-- What a rule makes of a phrase, if it applies. -/
def Rule.read : Rule → Phrase → Option Reading
  | searchReplace => readSearchReplace
  | replaceAll => readReplaceAll
  | quotedText => readQuotedText
  | color => readColor
  | width => readNumber ["너비", "width"] .resizeWidth
  | height => readNumber ["높이", "height"] .resizeHeight
  | opacity => readOpacity
  | duplicate => readWord ["복제", "복사", "duplicate"] .duplicate
  | delete => readWord ["삭제", "delete", "remove"] .delete
  | fontSize => readFontSize
  | move => readMove
  | reveal => readWord ["보이", "show", "표시"] .reveal
  | hide => readWord ["숨기", "hide"] .hide
  | rename => readRename
  | cornerRadius => readNumber ["모서리", "라운드", "radius", "corner"] .setCornerRadius

/-- The first rule that applies to a phrase, with what it makes of it. -/
def Phrase.decide? (p : Phrase) : Option (Rule × Reading) :=
  Rule.all.findSome? fun r => (r.read p).map (r, ·)

/-- Reads a command; gives the rule that decided and the intent. -/
def read (input : String) : Except CommandError (Rule × Intent) :=
  let p := Phrase.of input
  if p.raw.isEmpty then .error (.unrecognized input)
  else match p.decide? with
    | none => .error (.unrecognized input)
    | some (rule, .ok intent) => .ok (rule, intent)
    | some (rule, .error fault) => .error (.invalid rule fault)

def parse (input : String) : Except CommandError Intent :=
  (read input).map Prod.snd

end DesignCanvas.Command
