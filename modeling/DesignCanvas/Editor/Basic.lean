import DesignCanvas.Document.Basic
import DesignCanvas.Digest

/-!
# Editing a document

An editor holds a document together with what it knows only while it runs: the fonts that have been loaded and
how many copies have been made. Each change names a node by its id, is checked against what the node can do, and
either happens or leaves everything as it was.
-/

namespace DesignCanvas

/-- What a change asks of a node. -/
inductive Capability where
  | position
  | resize
  | opacity
  | cornerRadius
  | fills
  | textContent
  | paintStyles
  | textStyles
  deriving DecidableEq, Repr

def Capability.name : Capability → String
  | position => "position"
  | resize => "resize"
  | opacity => "opacity"
  | cornerRadius => "corner radius"
  | fills => "fills"
  | textContent => "text content"
  | paintStyles => "paint styles"
  | textStyles => "text styles"

/-- Why a change did not happen. -/
inductive EditError where
  | nodeNotFound (id : String)
  | unsupported (id : String) (capability : Capability)
  | fontUnavailable (font : Font)
  | fontNotLoaded (id : String)
  | styleNotFound (id : String)
  | emptyImage
  deriving DecidableEq, Repr

def EditError.message : EditError → String
  | nodeNotFound id => s!"node not found: {id}"
  | unsupported id capability => s!"node {id} does not support {capability.name}"
  | fontUnavailable font => s!"font unavailable: {font.display}"
  | fontNotLoaded id => s!"font not loaded for node {id}"
  | styleNotFound id => s!"style not found: {id}"
  | emptyImage => "image error: empty image data"

/-- A document that is being edited. -/
structure Editor where
  document : Document
  loadedFonts : List Font
  copies : Nat
  deriving Inhabited

/-- The result of a change. -/
abbrev Edit := Except EditError Editor

namespace Editor

/-- An editor that has just opened a document. -/
def opening (d : Document) : Editor :=
  { document := d, loadedFonts := [], copies := 0 }

/-- The node with an id, or the error that there is none. -/
def node (e : Editor) (id : String) : Except EditError Node :=
  match e.document.find? id with
  | some n => .ok n
  | none => .error (.nodeNotFound id)

/-- Changes the attributes of the node with an id by a rule that may refuse them. -/
def change (e : Editor) (id : String) (rule : Attributes → Except EditError Attributes) : Edit :=
  match e.document.find? id with
  | none => .error (.nodeNotFound id)
  | some n =>
    match rule n.label with
    | .error x => .error x
    | .ok a => .ok { e with document := e.document.setAttributes id a }

/-! ## Selection -/

def select (e : Editor) (ids : List String) : Editor :=
  { e with document := { e.document with selection := ids } }

/-! ## Properties -/

def setName (e : Editor) (id name : String) : Edit :=
  e.change id fun a => .ok { a with name }

def setVisible (e : Editor) (id : String) (visible : Bool) : Edit :=
  e.change id fun a => .ok { a with visible }

def setPosition (e : Editor) (id : String) (x y : Float) : Edit :=
  e.change id fun a => if a.kind.isLayer then .ok { a with x, y } else .error (.unsupported id .position)

def resize (e : Editor) (id : String) (width height : Float) : Edit :=
  e.change id fun a => if a.kind.isLayer then .ok { a with width, height } else .error (.unsupported id .resize)

/-- Sets the opacity of a node that has one, to the nearest number from 0 to 1. -/
def setOpacity (e : Editor) (id : String) (opacity : Float) : Edit :=
  e.change id fun a =>
    if a.opacity.isSome then .ok { a with opacity := some (Color.clampUnit opacity) }
    else .error (.unsupported id .opacity)

def setCornerRadius (e : Editor) (id : String) (radius : Float) : Edit :=
  e.change id fun a =>
    if a.cornerRadius.isSome then .ok { a with cornerRadius := some radius }
    else .error (.unsupported id .cornerRadius)

/-- Replaces the fills of a node that has some, which frees it from its fill style. -/
def setFills (e : Editor) (id : String) (fills : List Paint) : Edit :=
  e.change id fun a =>
    if a.fills.isSome then .ok { a with fills := some fills, fillStyle := none }
    else .error (.unsupported id .fills)

/-! ## Text -/

/-- Loads a font, unless its family is unavailable. -/
def loadFont (e : Editor) (font : Font) : Edit :=
  if font.family ∈ e.document.unavailableFonts then .error (.fontUnavailable font)
  else .ok { e with loadedFonts := if font ∈ e.loadedFonts then e.loadedFonts else font :: e.loadedFonts }

/-- Changes a text node, all fonts of which have to be loaded. -/
def changeText (e : Editor) (id : String) (rule : Attributes → Attributes) : Edit :=
  e.change id fun a =>
    if a.kind ≠ .text then .error (.unsupported id .textContent)
    else if a.requiredFonts.all fun f => f ∈ e.loadedFonts then .ok (rule a)
    else .error (.fontNotLoaded id)

def setCharacters (e : Editor) (id text : String) : Edit :=
  e.changeText id fun a => { a with characters := some text }

def setFontSize (e : Editor) (id : String) (size : Float) : Edit :=
  e.changeText id fun a => { a with fontSize := some size }

/-! ## Images -/

/-- Registers the bytes of an image; gives the editor and the fingerprint. -/
def addImage (e : Editor) (bytes : ByteArray) : Except EditError (Editor × String) :=
  if bytes.size = 0 then .error .emptyImage
  else
    let hash := Digest.fingerprint bytes
    .ok ({ e with document := { e.document with images := e.document.images.insert hash bytes.size } }, hash)

end Editor

end DesignCanvas
