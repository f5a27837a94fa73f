import DesignCanvas.Editor.Structure

/-!
# Styles of nodes

Making a paint style and binding nodes to styles. A bound slot shows the colour of its style in every solid paint.
-/

namespace DesignCanvas

/-- The two lists of paints of a node. -/
inductive PaintSlot where
  | fill
  | stroke
  deriving DecidableEq, Repr

namespace PaintSlot

def name : PaintSlot → String
  | fill => "fill"
  | stroke => "stroke"

/-- The paints in a slot. -/
def paints? : PaintSlot → Attributes → Option (List Paint)
  | fill, a => a.fills
  | stroke, a => a.strokes

def style? : PaintSlot → Attributes → Option String
  | fill, a => a.fillStyle
  | stroke, a => a.strokeStyle

/-- The attributes with other paints in a slot, which is bound to a style. -/
def bind (paints : List Paint) (style : String) : PaintSlot → Attributes → Attributes
  | fill, a => { a with fills := some paints, fillStyle := some style }
  | stroke, a => { a with strokes := some paints, strokeStyle := some style }

theorem paints?_bind {slot slot' : PaintSlot} {style : String} {a : Attributes} (paints : List Paint) :
    slot'.paints? (slot.bind paints style a) = if slot' = slot then some paints else slot'.paints? a := by
  cases slot <;> cases slot' <;> rfl

theorem style?_bind {slot slot' : PaintSlot} {style : String} {a : Attributes} (paints : List Paint) :
    slot'.style? (slot.bind paints style a) = if slot' = slot then some style else slot'.style? a := by
  cases slot <;> cases slot' <;> rfl

end PaintSlot

/-- The id of the style that was given a number. -/
def styleId (number : Nat) : String :=
  s!"S:{number}"

namespace Editor

/-- The number of the next style: the first one after the count of styles whose id no style has. -/
def styleNumber (e : Editor) : Nat :=
  let styles := e.document.styles
  firstFree (fun n => styles.any fun s => s.id == styleId n) styles.length (styles.length + 1)

/-- Adds a paint style; gives the editor and the style. -/
def addPaintStyle (e : Editor) (name : String) (color : Color) : Editor × Style :=
  let style : Style :=
    { id := styleId e.styleNumber, name, kind := .paint, color := some color, font := none, fontSize := none }
  ({ e with document := { e.document with styles := e.document.styles ++ [style] } }, style)

/-- Binds a slot of a node to a paint style with a colour. -/
def bindPaintStyle (e : Editor) (id : String) (slot : PaintSlot) (styleId : String) : Edit :=
  match (e.document.style? styleId).bind Style.paintColor? with
  | none => .error (.styleNotFound styleId)
  | some color =>
    e.change id fun a =>
      match slot.paints? a with
      | none => .error (.unsupported id .paintStyles)
      | some paints => .ok (slot.bind (paints.map (Paint.recolor color)) styleId a)

/-- Binds a text node to a text style. -/
def bindTextStyle (e : Editor) (id styleId : String) : Edit :=
  if (e.document.style? styleId).any fun s => s.kind == .text then
    e.change id fun a =>
      if a.kind = .text then .ok { a with textStyle := some styleId } else .error (.unsupported id .textStyles)
  else .error (.styleNotFound styleId)

end Editor

end DesignCanvas
