import DesignCanvas.Text.Blank
import DesignCanvas.Text.Digit

/-!
# Finding patterns in text

A pattern is a function that reads from the start of a text and gives what it found there, if it fits. It is
looked for at every place of the text from the left.
-/

namespace DesignCanvas.Text

/-- What a pattern finds at the first place of a text where it fits; the end of the text is a place too. -/
def firstMatch (pattern : List Char → Option α) : List Char → Option α
  | [] => pattern []
  | c :: s =>
    match pattern (c :: s) with
    | some a => some a
    | none => firstMatch pattern s

/-- What comes after a word that the text starts with. -/
def afterWord? (word : String) (s : List Char) : Option (List Char) :=
  if word.toList.isPrefixOf s then some (s.drop word.toList.length) else none

/-- What comes after the first of some words that the text starts with. -/
def afterAny? (words : List String) (s : List Char) : Option (List Char) :=
  words.findSome? fun w => afterWord? w s

def skipWord (word : String) (s : List Char) : List Char :=
  (afterWord? word s).getD s

/-- The text after one character, if it starts with one that has a property. -/
def skipOne (p : Char → Bool) : List Char → List Char
  | [] => []
  | c :: s => if p c then s else c :: s

/-- The run of digits that a text starts with, of any script, and what comes after it. -/
def digitRun? (s : List Char) : Option (List Char × List Char) :=
  let run := s.takeWhile isDigit
  if run.isEmpty then none else some (run, s.dropWhile isDigit)

/-- A run of digits with a minus sign in front of it or without. -/
def signedRun? : List Char → Option (List Char × List Char)
  | '-' :: s => (digitRun? s).map fun (run, s) => ('-' :: run, s)
  | s => digitRun? s

/-- A single or double quotation mark, straight or curved. -/
def isQuote (c : Char) : Bool :=
  c = '\'' || c = '"' || c = '‘' || c = '’' || c = '“' || c = '”'

/-- The text up to a quotation mark on the same line. -/
def untilQuote? : List Char → Option (List Char)
  | [] => none
  | c :: s =>
    if isQuote c then some []
    else if c = '\n' then none
    else (untilQuote? s).map (c :: ·)

/-- The text between the quotation mark that a text starts with and the next one. The first character between
them may be anything but a line feed. -/
def quoted? : List Char → Option (List Char)
  | q :: c :: s => if isQuote q && c ≠ '\n' then (untilQuote? s).map (c :: ·) else none
  | _ => none

/-- What a pattern finds at the first place on the same line where it fits. -/
def onLine? (pattern : List Char → Option α) : List Char → Option α
  | [] => pattern []
  | c :: s =>
    match pattern (c :: s) with
    | some a => some a
    | none => if c = '\n' then none else onLine? pattern s

end DesignCanvas.Text
