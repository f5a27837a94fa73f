/-!
# Searching and cutting text

Occurrence of one text in another, replacement of the first occurrence, cutting at a character and
cutting into lines. All of it reads a text as a list of characters from the left.
-/

namespace DesignCanvas.Text

/-- Says that `needle` occurs somewhere in the text; the empty needle occurs everywhere. -/
def contains (needle : List Char) : List Char → Bool
  | [] => needle.isEmpty
  | c :: s => needle.isPrefixOf (c :: s) || contains needle s

/-- Puts `replacement` in the place of the first occurrence of `search`, if there is one. -/
def replaceFirst (search replacement : List Char) : List Char → List Char
  | [] => if search.isEmpty then replacement else []
  | c :: s =>
    if search.isPrefixOf (c :: s) then replacement ++ (c :: s).drop search.length
    else c :: replaceFirst search replacement s

def replaceChar (old new : Char) (s : List Char) : List Char :=
  s.map fun c => if c = old then new else c

/-- Puts `c` in front of the first piece. -/
def consFirst (c : Char) : List (List Char) → List (List Char)
  | [] => [[c]]
  | p :: ps => (c :: p) :: ps

/-- The pieces between the occurrences of a mark, one more than the mark occurs. -/
def splitAt (mark : Char) : List Char → List (List Char)
  | [] => [[]]
  | c :: s => if c = mark then [] :: splitAt mark s else consFirst c (splitAt mark s)

/-- The parts before and after the first occurrence of a mark. -/
def splitFirst? (mark : Char) : List Char → Option (List Char × List Char)
  | [] => none
  | c :: s =>
    if c = mark then some ([], s) else (splitFirst? mark s).map fun (a, b) => (c :: a, b)

/-- A line without the carriage return that a line feed came after. -/
def dropReturn (line : List Char) : List Char :=
  if line.getLast? = some '\r' then line.dropLast else line

/-- The lines among pieces that were separated by line feeds: the last piece is no line if it is
empty, and keeps its carriage return otherwise. -/
def linesOfPieces : List (List Char) → List (List Char)
  | [] => []
  | [p] => if p.isEmpty then [] else [p]
  | p :: ps => dropReturn p :: linesOfPieces ps

/-- The lines of a text; a line ends at a line feed, with or without a carriage return before it. -/
def lines (s : List Char) : List (List Char) :=
  linesOfPieces (splitAt '\n' s)

def has (text needle : String) : Bool :=
  contains needle.toList text.toList

end DesignCanvas.Text
