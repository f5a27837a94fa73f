import DesignCanvas.Editor.Writing

/-!
# Steps on single nodes

The steps that batches are made of. A step on a node that lacks what the step is about passes it over.
-/

namespace DesignCanvas

namespace Step

def setWidth (width : Float) (e : Editor) (id : String) : Step :=
  onNode e id fun a => if a.kind.isLayer then ofEdit e (e.resize id width a.height) else pass e

def setHeight (height : Float) (e : Editor) (id : String) : Step :=
  onNode e id fun a => if a.kind.isLayer then ofEdit e (e.resize id a.width height) else pass e

def setOpacity (opacity : Float) (e : Editor) (id : String) : Step :=
  onNode e id fun a => if a.opacity.isSome then ofEdit e (e.setOpacity id opacity) else pass e

def setCornerRadius (radius : Float) (e : Editor) (id : String) : Step :=
  onNode e id fun a => if a.cornerRadius.isSome then ofEdit e (e.setCornerRadius id radius) else pass e

def setFontSize (size : Float) (e : Editor) (id : String) : Step :=
  onNode e id fun a =>
    if a.kind = .text then withFonts e a fun e => e.setFontSize id size else pass e

/-- Moves a node from where it is. -/
def moveBy (dx dy : Float) (e : Editor) (id : String) : Step :=
  onNode e id fun a => ofEdit e (e.setPosition id (a.x + dx) (a.y + dy))

def remove (e : Editor) (id : String) : Step :=
  ofEdit e (e.removeNode id)

def setVisible (visible : Bool) (e : Editor) (id : String) : Step :=
  ofEdit e (e.setVisible id visible)

def setName (name : String) (e : Editor) (id : String) : Step :=
  ofEdit e (e.setName id name)

/-- The fills in another colour: the first one keeps its opacity and visibility if it is solid, and is the only one
otherwise. -/
def paintedIn (color : Color) : List Paint → List Paint
  | .solid _ opacity visible _ :: rest => .solid color opacity visible none :: rest
  | _ => [.ofColor color]

/-- Paints a node with fills in a colour. -/
def setColor (color : Color) (e : Editor) (id : String) : Step :=
  onNode e id fun a =>
    match a.fills with
    | some fills => ofEdit e (e.setFills id (paintedIn color fills))
    | none => pass e

/-- How far to the right and down of its node a copy is placed. -/
def copyOffset : Float := 20.0

/-- Copies a node and places the copy; a copy that cannot be placed is taken out again. -/
def copy (e : Editor) (id : String) : Step :=
  match e.copyNode id with
  | .error error => fail e error
  | .ok (e, new) =>
    match (e.node new).bind fun n => e.setPosition new (n.label.x + copyOffset) (n.label.y + copyOffset) with
    | .ok e => { done e with made := [new] }
    | .error error =>
      match e.removeNode new with
      | .ok e => fail e error
      | .error _ => fail e error

end Step

end DesignCanvas
