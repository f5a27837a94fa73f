import DesignCanvas.Color

/-!
# Paints

The entries of the lists of fills and strokes of a node.
-/

namespace DesignCanvas

/-- How a picture is fitted into its node. -/
inductive ScaleMode where
  | fill
  | fit
  | crop
  | tile
  deriving DecidableEq, Repr

def ScaleMode.name : ScaleMode → String
  | fill => "FILL"
  | fit => "FIT"
  | crop => "CROP"
  | tile => "TILE"

def ScaleMode.ofName? (s : String) : Option ScaleMode :=
  [fill, fit, crop, tile].find? fun m => m.name == s

/-- A paint. The colour of a solid paint may be bound to a token of the design. -/
inductive Paint where
  | solid (color : Color) (opacity : Float) (visible : Bool) (token : Option String)
  | image (hash : String) (mode : ScaleMode) (visible : Bool) (opacity : Float)
  | gradientLinear
  | gradientRadial
  | unsupported
  deriving DecidableEq, Repr

namespace Paint

/-- An opaque, visible solid paint. -/
def ofColor (c : Color) : Paint :=
  .solid c 1.0 true none

/-- An opaque, visible picture that fills its node. -/
def ofImage (hash : String) : Paint :=
  .image hash .fill true 1.0

def isImage : Paint → Bool
  | .image .. => true
  | _ => false

def color? : Paint → Option Color
  | .solid c .. => some c
  | _ => none

/-- A solid paint in another colour; any other paint stays as it is. -/
def recolor (c : Color) : Paint → Paint
  | .solid _ opacity visible token => .solid c opacity visible token
  | p => p

/-- A picture with another image; any other paint stays as it is. -/
def reimage (hash : String) : Paint → Paint
  | .image _ mode visible opacity => .image hash mode visible opacity
  | p => p

/-- The colour and the token of a solid paint that is visible. -/
def visibleSolid? : Paint → Option (Color × Option String)
  | .solid c _ true token => some (c, token)
  | _ => none

end Paint

end DesignCanvas
