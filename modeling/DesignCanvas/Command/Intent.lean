import DesignCanvas.Scene.Codec

/-!
# Intents

What a command asks for, once it has been understood.
-/

namespace DesignCanvas

open Json

/-- What is to be done to the selection. -/
inductive Intent where
  /-- Replace the first occurrence of a text in every text layer that has one. -/
  | replaceText (search replacement : String)
  /-- Write one text into every text layer. -/
  | replaceAllText (text : String)
  /-- Paint in a colour, given as it was written. -/
  | setColor (hex : String) (color : Color)
  | resizeWidth (width : Nat)
  | resizeHeight (height : Nat)
  /-- Set the opacity to a percentage of at most 100. -/
  | setOpacity (percent : Nat)
  | duplicate
  | delete
  | setFontSize (size : Nat)
  | move (dx dy : Int)
  | reveal
  | hide
  | rename (name : String)
  | setCornerRadius (radius : Nat)
  deriving DecidableEq, Repr

namespace Intent

/-- The name of the operation that carries out an intent. -/
def operation : Intent → String
  | replaceText .. => "replace_text"
  | replaceAllText .. => "replace_all_text"
  | setColor .. => "set_color"
  | resizeWidth .. => "resize_width"
  | resizeHeight .. => "resize_height"
  | setOpacity .. => "set_opacity"
  | duplicate => "duplicate"
  | delete => "delete"
  | setFontSize .. => "set_font_size"
  | move .. => "move"
  | reveal => "show"
  | hide => "hide"
  | rename .. => "rename"
  | setCornerRadius .. => "set_corner_radius"

def members : Intent → List (String × Json)
  | replaceText search replacement => [("search", .str search), ("replacement", .str replacement)]
  | replaceAllText text => [("text", .str text)]
  | setColor hex color => [("hex", .str hex), ("color", color.toJson)]
  | resizeWidth width => [("width", .nat width)]
  | resizeHeight height => [("height", .nat height)]
  | setOpacity percent => [("percent", .nat percent)]
  | setFontSize size => [("size", .nat size)]
  | move dx dy => [("dx", .num (.int dx)), ("dy", .num (.int dy))]
  | rename name => [("name", .str name)]
  | setCornerRadius radius => [("radius", .nat radius)]
  | duplicate | delete | reveal | hide => []

/-- An intent as a record that names its operation. -/
def toJson (i : Intent) : Json :=
  .obj (("intent", .str i.operation) :: i.members)

end Intent

end DesignCanvas
