import DesignCanvas.Scene.Codec

/-!
# Shared styles

The design tokens of a document: paint styles with a colour and text styles with a font and a size, which nodes
refer to by id.
-/

namespace DesignCanvas

open Json

/-- What a style applies to. -/
inductive StyleKind where
  | paint
  | text
  deriving DecidableEq, Repr

def StyleKind.name : StyleKind → String
  | paint => "PAINT"
  | text => "TEXT"

def StyleKind.ofName? (s : String) : Option StyleKind :=
  [paint, text].find? fun k => k.name == s

/-- A shared style. -/
structure Style where
  id : String
  name : String
  kind : StyleKind
  color : Option Color
  font : Option Font
  fontSize : Option Float
  deriving DecidableEq, Repr

namespace Style

/-- The colour that a paint style gives. -/
def paintColor? (s : Style) : Option Color :=
  if s.kind = .paint then s.color else none

def toJson (s : Style) : Json :=
  .obj ([("id", .str s.id), ("name", .str s.name), ("kind", .str s.kind.name)]
    ++ optionalMember "color" Color.toJson s.color
    ++ optionalMember "fontName" Font.toJson s.font
    ++ optionalMember "fontSize" .float s.fontSize)

def ofJson? (v : Json) : Option Style := do
  let f ← record? ["id", "name", "kind", "color", "fontName", "fontSize"] 3 v
  let id ← f.required "id" string?
  let name ← f.required "name" string?
  let kind ← f.required "kind" fun v => v.choice?.bind StyleKind.ofName?
  let color ← f.optional "color" Color.ofJson?
  let font ← f.optional "fontName" Font.ofJson?
  let fontSize ← f.optional "fontSize" float?
  return { id, name, kind, color, font, fontSize }

end Style

end DesignCanvas
