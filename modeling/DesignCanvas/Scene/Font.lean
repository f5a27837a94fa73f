/-!
# Fonts

A font is a family in a style. A text is set in one font or in several, one for each of its runs.
-/

namespace DesignCanvas

/-- A font. -/
structure Font where
  family : String
  style : String
  deriving DecidableEq, Repr

def Font.display (f : Font) : String :=
  f.family ++ " " ++ f.style

/-- The fonts of a text. -/
inductive FontName where
  | single (font : Font)
  | mixed (runs : List Font)
  deriving DecidableEq, Repr

/-- A list without the later occurrences of what it has already; `seen` counts as had before. -/
def firstOccurrences [DecidableEq α] (seen : List α) : List α → List α
  | [] => []
  | a :: as =>
    if a ∈ seen then firstOccurrences seen as else a :: firstOccurrences (a :: seen) as

/-- The fonts that have to be loaded before the text is written, each once, in the order of the runs. -/
def FontName.required : FontName → List Font
  | .single f => [f]
  | .mixed fs => firstOccurrences [] fs

def FontName.primary? : FontName → Option Font
  | .single f => some f
  | .mixed fs => fs.head?

end DesignCanvas
