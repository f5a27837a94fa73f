import DesignCanvas.Json.Record
import DesignCanvas.Text.Blank
import DesignCanvas.Text.Search

/-!
# Outlines

An outline says which texts a design is expected to have. Each of its lines may begin with a bullet or a heading
marker; a line with a colon gives a label and texts with commas between them, any other line is one text.
-/

namespace DesignCanvas

open Json

/-- A text that is expected, with its label and the line that it comes from. -/
structure OutlineItem where
  label : String
  text : String
  line : String
  deriving DecidableEq, Repr

namespace OutlineItem

def toJson (i : OutlineItem) : Json :=
  .obj [("label", .str i.label), ("text", .str i.text), ("original", .str i.line)]

def ofJson? (v : Json) : Option OutlineItem := do
  let f ← record? ["label", "text", "original"] 3 v
  let label ← f.required "label" string?
  let text ← f.required "text" string?
  let line ← f.required "original" string?
  return ⟨label, text, line⟩

end OutlineItem

namespace Outline

/-- The label of texts that come without one. -/
def defaultLabel : String := "내용"

/-- The marks of bullets, each with the blank after it. -/
def bullets : List (List Char) :=
  [['-', ' '], ['*', ' '], ['•', ' '], ['·', ' ']]

/-- A line without its heading marker, a run of number signs with a blank or nothing after it. -/
def dropHeading (line : List Char) : List Char :=
  let rest := line.dropWhile (· = '#')
  if line.head? = some '#' ∧ rest.head?.all Text.isBlank then Text.trimStart rest else line

/-- A line without its bullet. -/
def dropBullet (line : List Char) : List Char :=
  match bullets.find? fun b => b.isPrefixOf line with
  | some b => line.drop b.length
  | none => line

/-- What a line says, without markers and the blanks around it. -/
def content (line : List Char) : List Char :=
  Text.trim (dropBullet (dropHeading (Text.trim line)))

/-- The texts between commas that are more than blanks. -/
def values (s : List Char) : List (List Char) :=
  ((Text.splitAt ',' s).map Text.trim).filter fun v => !v.isEmpty

def itemsOfLine (defaultLabel : String) (line : List Char) : List OutlineItem :=
  let written := String.ofList (Text.trim line)
  let said := content line
  if said.isEmpty then []
  else match Text.splitFirst? ':' said with
    | none => [⟨defaultLabel, String.ofList said, written⟩]
    | some (label, rest) =>
      let label := Text.trim label
      let label := if label.isEmpty then defaultLabel else String.ofList label
      (values rest).map fun v => ⟨label, String.ofList v, written⟩

def items (defaultLabel text : String) : List OutlineItem :=
  (Text.lines text.toList).flatMap (itemsOfLine defaultLabel)

end Outline

end DesignCanvas
