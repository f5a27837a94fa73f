import DesignCanvas.Scene.Node
import DesignCanvas.Text.Case
import DesignCanvas.Text.Search

/-!
# Collecting nodes

The nodes below a node that an operation works on: its texts, the nodes with a name, and the nodes that a picture
can be put into. All of them come in the order of the tree.
-/

namespace DesignCanvas

/-- The text nodes of a node; what is below a text node is none of them. -/
def Tree.texts (n : Node) : List Node :=
  (n.reached Tree.isText).filter Tree.isText

/-- The text nodes whose text has `needle` in it. -/
def Tree.textsWith (needle : String) (n : Node) : List Node :=
  n.texts.filter fun t => t.label.characters.any fun s => Text.has s needle

def Tree.all (n : Node) : List Node :=
  n.reached fun _ => false

/-- The nodes with a name, whatever the case of its letters. -/
def Tree.withName (name : String) (n : Node) : List Node :=
  let wanted := Text.lowered name
  n.all.filter fun t => Text.lowered t.label.name == wanted

/-- Parts of names that say that a node is meant for a picture. -/
def imageHints : List String :=
  ["avatar", "profile", "image", "photo", "thumbnail", "img"]

/-- The kinds of nodes that a name can make a place for a picture. -/
def Kind.isImageSlot : Kind → Bool
  | rectangle | ellipse | frame | polygon | vector => true
  | _ => false

namespace Attributes

/-- A node whose name says that it is meant for a picture. -/
def hasImageName (a : Attributes) : Bool :=
  imageHints.any fun hint => Text.has (Text.lowered a.name) hint

/-- A node that a picture can be put into: one with fills that has a picture already or is meant for one by its
kind and name, and any rectangle or ellipse. -/
def isFillable (a : Attributes) : Bool :=
  (a.fills.isSome && (a.hasImageFill || (a.kind.isImageSlot && a.hasImageName)))
    || a.kind == .rectangle || a.kind == .ellipse

end Attributes

/-- The nodes that a picture can be put into, those below another such node too. -/
def Tree.fillable (n : Node) : List Node :=
  n.all.filter fun t => t.label.isFillable

end DesignCanvas
