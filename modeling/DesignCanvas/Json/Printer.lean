import DesignCanvas.Json.Basic
import DesignCanvas.Decimal.Layout

/-!
# Writing JSON

A value as text, on one line or with one item a line and an indent of two blanks a level.
-/

namespace DesignCanvas.Json

open DesignCanvas

/-- Doubles are written with a point or an exponent, with the point in place for up to sixteen digits before
it or five zeros after it. -/
def numberLayout : Decimal.Layout := ⟨some (-5, 16), ".0"⟩

/-- The text of a number; a double that is no finite number has none in JSON. -/
def writeNumber : Number → String
  | .int n => toString n
  | .float x => if x.isFinite then numberLayout.write x else "null"

/-- One character of a string, escaped where it has to be. -/
def writeChar (c : Char) : List Char :=
  match c with
  | '"' => ['\\', '"']
  | '\\' => ['\\', '\\']
  | '\x08' => ['\\', 'b']
  | '\x0c' => ['\\', 'f']
  | '\n' => ['\\', 'n']
  | '\r' => ['\\', 'r']
  | '\t' => ['\\', 't']
  | c => if c.toNat < 0x20 then ['\\', 'u', '0', '0'] ++ Text.hexByte c.toNat else [c]

def writeString (s : String) : String :=
  String.ofList ('"' :: s.toList.flatMap writeChar ++ ['"'])

mutual

/-- A value on one line. -/
def compact : Json → String
  | .null => "null"
  | .bool b => if b then "true" else "false"
  | .num n => writeNumber n
  | .str s => writeString s
  | .arr items => "[" ++ ",".intercalate (compactItems items) ++ "]"
  | .obj members => "\x7b" ++ ",".intercalate (compactMembers members) ++ "\x7d"
  | .broken => "null"

def compactItems : List Json → List String
  | [] => []
  | v :: vs => v.compact :: compactItems vs

def compactMembers : List (String × Json) → List String
  | [] => []
  | (k, v) :: ms => (writeString k ++ ":" ++ v.compact) :: compactMembers ms

end

def newline (level : Nat) : String :=
  String.ofList ('\n' :: List.replicate (2 * level) ' ')

/-- Parts between brackets, each on a line of its own. -/
def block (opening closing : String) (level : Nat) (parts : List String) : String :=
  if parts.isEmpty then opening ++ closing
  else opening ++ newline (level + 1) ++ ("," ++ newline (level + 1)).intercalate parts
    ++ newline level ++ closing

mutual

/-- A value over several lines, as it stands at a level. -/
def prettyAt (level : Nat) : Json → String
  | .null => "null"
  | .bool b => if b then "true" else "false"
  | .num n => writeNumber n
  | .str s => writeString s
  | .arr items => block "[" "]" level (prettyItems (level + 1) items)
  | .obj members => block "\x7b" "\x7d" level (prettyMembers (level + 1) members)
  | .broken => "null"

def prettyItems (level : Nat) : List Json → List String
  | [] => []
  | v :: vs => v.prettyAt level :: prettyItems level vs

def prettyMembers (level : Nat) : List (String × Json) → List String
  | [] => []
  | (k, v) :: ms => (writeString k ++ ": " ++ v.prettyAt level) :: prettyMembers level ms

end

/-- A value over several lines. -/
def pretty (v : Json) : String :=
  v.prettyAt 0

end DesignCanvas.Json
