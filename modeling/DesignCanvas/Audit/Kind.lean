import DesignCanvas.Json.Record
import DesignCanvas.Text.Blank
import DesignCanvas.Text.Case

/-!
# Kinds of audits

What an audit of a design looks at.
-/

namespace DesignCanvas

open Json

/-- What an audit looks at: the use of components, of paint styles or of text styles. -/
inductive AuditKind where
  | components
  | styles
  | textStyles
  deriving DecidableEq, Repr

namespace AuditKind

def name : AuditKind → String
  | components => "components"
  | styles => "styles"
  | textStyles => "text-styles"

/-- The words that a kind may be asked for by. -/
def words : AuditKind → List String
  | components => ["components", "component"]
  | styles => ["styles", "colors", "color"]
  | textStyles => ["text-styles", "text_styles", "typography"]

def all : List AuditKind :=
  [components, styles, textStyles]

def ofName? (s : String) : Option AuditKind :=
  all.find? fun k => k.name == s

/-- A word that asks for no kind of audit. -/
structure Unknown where
  word : String
  deriving DecidableEq, Repr

def Unknown.message (u : Unknown) : String :=
  s!"unknown audit kind '{u.word}' (expected components, styles or text-styles)"

/-- The kind that a word asks for, blanks around it and letter case aside. -/
def ofWord (s : String) : Except Unknown AuditKind :=
  let word := Text.lowered (Text.trimmed s)
  match all.find? fun k => k.words.contains word with
  | some k => .ok k
  | none => .error ⟨word⟩

def ofJson? (v : Json) : Option AuditKind :=
  v.choice?.bind ofName?

end AuditKind

end DesignCanvas
