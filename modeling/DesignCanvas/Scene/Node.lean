import DesignCanvas.Scene.Kind
import DesignCanvas.Scene.Paint
import DesignCanvas.Scene.Font
import DesignCanvas.Tree.Walk

/-!
# Nodes

A node of a canvas document is a tree of attributes. Attributes that a node may lack say what it can do: a node
with a list of fills can be filled, a node that is a branch holds other nodes, whatever its kind.
-/

namespace DesignCanvas

/-- Whether and in which direction a node lays out its children. -/
inductive LayoutMode where
  | free
  | horizontal
  | vertical
  deriving DecidableEq, Repr

def LayoutMode.name : LayoutMode → String
  | free => "NONE"
  | horizontal => "HORIZONTAL"
  | vertical => "VERTICAL"

def LayoutMode.ofName? (s : String) : Option LayoutMode :=
  [free, horizontal, vertical].find? fun m => m.name == s

/-- All that a node is apart from the nodes below it. -/
structure Attributes where
  id : String
  name : String
  kind : Kind
  visible : Bool
  x : Float
  y : Float
  width : Float
  height : Float
  opacity : Option Float
  cornerRadius : Option Float
  layoutMode : Option LayoutMode
  fills : Option (List Paint)
  strokes : Option (List Paint)
  fillStyle : Option String
  strokeStyle : Option String
  characters : Option String
  fontName : Option FontName
  fontSize : Option Float
  textStyle : Option String
  deriving DecidableEq, Repr

/-- A node: attributes at the root of a tree of them. -/
abbrev Node := Tree Attributes

namespace Attributes

/-- A visible node at the origin, without extent and without any attribute that a node may lack. -/
def bare (id name : String) (kind : Kind) : Attributes :=
  { id, name, kind, visible := true, x := 0.0, y := 0.0, width := 0.0, height := 0.0, opacity := none
    cornerRadius := none, layoutMode := none, fills := none, strokes := none, fillStyle := none
    strokeStyle := none, characters := none, fontName := none, fontSize := none, textStyle := none }

def isAutoLayout (a : Attributes) : Bool :=
  a.layoutMode == some .horizontal || a.layoutMode == some .vertical

def hasImageFill (a : Attributes) : Bool :=
  (a.fills.getD []).any Paint.isImage

/-- The colour of the first fill, if that is a solid one. -/
def firstSolidFill? (a : Attributes) : Option Color :=
  (a.fills.getD []).head?.bind Paint.color?

def requiredFonts (a : Attributes) : List Font :=
  (a.fontName.map FontName.required).getD []

def text (a : Attributes) : String :=
  a.characters.getD ""

def hasId (id : String) (a : Attributes) : Bool :=
  a.id == id

end Attributes

def Tree.id (n : Node) : String :=
  n.label.id

/-- A text node, which ends the search for texts below it. -/
def Tree.isText (n : Node) : Bool :=
  n.label.kind == .text

/-- A component, a set of components or an instance. -/
def Tree.isReusable (n : Node) : Bool :=
  n.label.kind.isReusable

end DesignCanvas
