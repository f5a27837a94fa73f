/-!
# Kinds of nodes

What a node of a canvas document can be, the names of the kinds and the groups that rules speak of.
-/

namespace DesignCanvas

/-- The kind of a node. Whether a node holds other nodes does not follow from it. -/
inductive Kind where
  | document
  | page
  | frame
  | group
  | canvasSection
  | component
  | componentSet
  | componentInstance
  | text
  | rectangle
  | ellipse
  | polygon
  | star
  | line
  | vector
  | booleanOperation
  | slice
  | other
  deriving DecidableEq, Repr

namespace Kind

def typeName : Kind → String
  | document => "DOCUMENT"
  | page => "PAGE"
  | frame => "FRAME"
  | group => "GROUP"
  | canvasSection => "SECTION"
  | component => "COMPONENT"
  | componentSet => "COMPONENT_SET"
  | componentInstance => "INSTANCE"
  | text => "TEXT"
  | rectangle => "RECTANGLE"
  | ellipse => "ELLIPSE"
  | polygon => "POLYGON"
  | star => "STAR"
  | line => "LINE"
  | vector => "VECTOR"
  | booleanOperation => "BOOLEAN_OPERATION"
  | slice => "SLICE"
  | other => "OTHER"

/-- The kinds with a name of their own. -/
def named : List Kind :=
  [document, page, frame, group, canvasSection, component, componentSet, componentInstance, text,
    rectangle, ellipse, polygon, star, line, vector, booleanOperation, slice]

/-- The kind with a given name; any unknown name is that of another kind. -/
def ofTypeName (s : String) : Kind :=
  (named.find? fun k => k.typeName == s).getD other

def shortLabel : Kind → String
  | frame => "Frame"
  | group => "Group"
  | text => "Text"
  | rectangle => "Rect"
  | ellipse => "Ellipse"
  | vector => "Vector"
  | component => "Comp"
  | componentInstance => "Inst"
  | componentSet => "Set"
  | line => "Line"
  | polygon => "Poly"
  | star => "Star"
  | booleanOperation => "Bool"
  | slice => "Slice"
  | canvasSection => "Sect"
  | document => "DOCUMENT"
  | page => "PAGE"
  | other => "OTHER"

/-- The kinds that make a design reusable: definitions, sets of variants and instances. -/
def isReusable : Kind → Bool
  | component | componentSet | componentInstance => true
  | _ => false

/-- The kinds of plain shapes. -/
def isPrimitive : Kind → Bool
  | rectangle | ellipse | polygon | star | line | vector => true
  | _ => false

/-- Documents and pages are no layers: they can be neither moved nor resized. -/
def isLayer : Kind → Bool
  | document | page => false
  | _ => true

end Kind

end DesignCanvas
