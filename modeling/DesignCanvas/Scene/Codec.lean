import DesignCanvas.Scene.Node
import DesignCanvas.Json.Record

/-!
# Nodes in JSON

How nodes and their parts are written as JSON values and read from them. An attribute that a node lacks is not
written; visibility, position and extent have defaults and are always written.
-/

namespace DesignCanvas

open Json

/-! ## Colours, paints and fonts -/

def Color.toJson (c : Color) : Json :=
  .obj [("r", .float c.r), ("g", .float c.g), ("b", .float c.b)]

def Color.ofJson? (v : Json) : Option Color := do
  let f ← record? ["r", "g", "b"] 3 v
  let r ← f.required "r" float?
  let g ← f.required "g" float?
  let b ← f.required "b" float?
  return ⟨r, g, b⟩

def ScaleMode.ofJson? (v : Json) : Option ScaleMode :=
  v.choice?.bind ScaleMode.ofName?

/-- A paint as a record that names its type. -/
def Paint.toJson : Paint → Json
  | .solid color opacity visible token =>
    .obj ([("type", .str "SOLID"), ("color", color.toJson), ("opacity", .float opacity),
      ("visible", .bool visible)] ++ optionalMember "boundVariable" .str token)
  | .image hash mode visible opacity =>
    .obj [("type", .str "IMAGE"), ("imageHash", .str hash), ("scaleMode", .str mode.name),
      ("visible", .bool visible), ("opacity", .float opacity)]
  | .gradientLinear => .obj [("type", .str "GRADIENT_LINEAR")]
  | .gradientRadial => .obj [("type", .str "GRADIENT_RADIAL")]
  | .unsupported => .obj [("type", .str "UNSUPPORTED")]

def Paint.solidOfJson? (v : Json) : Option Paint := do
  let f ← record? ["color", "opacity", "visible", "boundVariable"] 1 v
  let color ← f.required "color" Color.ofJson?
  let opacity ← f.defaulted "opacity" float? 1.0
  let visible ← f.defaulted "visible" bool? true
  let token ← f.optional "boundVariable" string?
  return .solid color opacity visible token

def Paint.imageOfJson? (v : Json) : Option Paint := do
  let f ← record? ["imageHash", "scaleMode", "visible", "opacity"] 1 v
  let hash ← f.required "imageHash" string?
  let mode ← f.defaulted "scaleMode" ScaleMode.ofJson? .fill
  let visible ← f.defaulted "visible" bool? true
  let opacity ← f.defaulted "opacity" float? 1.0
  return .image hash mode visible opacity

/-- Reads a paint; one of an unknown type is unsupported, and like the gradients keeps nothing else. -/
def Paint.ofJson? (v : Json) : Option Paint := do
  let (type, rest) ← tagged? "type" v
  if type = "SOLID" then solidOfJson? rest
  else if type = "IMAGE" then imageOfJson? rest
  else if rest.isBare then
    return if type = "GRADIENT_LINEAR" then .gradientLinear
      else if type = "GRADIENT_RADIAL" then .gradientRadial
      else .unsupported
  else none

def Font.toJson (f : Font) : Json :=
  .obj [("family", .str f.family), ("style", .str f.style)]

def Font.ofJson? (v : Json) : Option Font := do
  let f ← record? ["family", "style"] 2 v
  let family ← f.required "family" string?
  let style ← f.required "style" string?
  return ⟨family, style⟩

/-- One font as itself, the fonts of several runs as a list. -/
def FontName.toJson : FontName → Json
  | .single f => f.toJson
  | .mixed fs => .arr (fs.map Font.toJson)

/-- Reads one font, or else a list of fonts. -/
def FontName.ofJson? (v : Json) : Option FontName :=
  if v.sound then
    match Font.ofJson? v with
    | some f => some (.single f)
    | none => (list? Font.ofJson? v).map .mixed
  else none

/-! ## Nodes -/

def Kind.ofJson? (v : Json) : Option Kind :=
  v.choice?.map Kind.ofTypeName

def LayoutMode.ofJson? (v : Json) : Option LayoutMode :=
  v.choice?.bind LayoutMode.ofName?

def paintsToJson (ps : List Paint) : Json :=
  .arr (ps.map Paint.toJson)

/-- The names of the fields of a node in their order. -/
def nodeFields : List String :=
  ["id", "name", "type", "visible", "x", "y", "width", "height", "opacity", "cornerRadius", "layoutMode",
    "fills", "strokes", "fillStyleId", "strokeStyleId", "characters", "fontName", "fontSize", "textStyleId",
    "children"]

def Attributes.members (a : Attributes) : List (String × Json) :=
  [("id", .str a.id), ("name", .str a.name), ("type", .str a.kind.typeName), ("visible", .bool a.visible),
    ("x", .float a.x), ("y", .float a.y), ("width", .float a.width), ("height", .float a.height)]
    ++ optionalMember "opacity" .float a.opacity
    ++ optionalMember "cornerRadius" .float a.cornerRadius
    ++ optionalMember "layoutMode" (fun m => .str m.name) a.layoutMode
    ++ optionalMember "fills" paintsToJson a.fills
    ++ optionalMember "strokes" paintsToJson a.strokes
    ++ optionalMember "fillStyleId" .str a.fillStyle
    ++ optionalMember "strokeStyleId" .str a.strokeStyle
    ++ optionalMember "characters" .str a.characters
    ++ optionalMember "fontName" FontName.toJson a.fontName
    ++ optionalMember "fontSize" .float a.fontSize
    ++ optionalMember "textStyleId" .str a.textStyle

def Attributes.ofRecord? (f : Record) : Option Attributes := do
  let id ← f.required "id" string?
  let name ← f.required "name" string?
  let kind ← f.required "type" Kind.ofJson?
  let visible ← f.defaulted "visible" bool? true
  let x ← f.defaulted "x" float? 0.0
  let y ← f.defaulted "y" float? 0.0
  let width ← f.defaulted "width" float? 0.0
  let height ← f.defaulted "height" float? 0.0
  let opacity ← f.optional "opacity" float?
  let cornerRadius ← f.optional "cornerRadius" float?
  let layoutMode ← f.optional "layoutMode" LayoutMode.ofJson?
  let fills ← f.optional "fills" (list? Paint.ofJson?)
  let strokes ← f.optional "strokes" (list? Paint.ofJson?)
  let fillStyle ← f.optional "fillStyleId" string?
  let strokeStyle ← f.optional "strokeStyleId" string?
  let characters ← f.optional "characters" string?
  let fontName ← f.optional "fontName" FontName.ofJson?
  let fontSize ← f.optional "fontSize" float?
  let textStyle ← f.optional "textStyleId" string?
  return { id, name, kind, visible, x, y, width, height, opacity, cornerRadius, layoutMode, fills, strokes,
           fillStyle, strokeStyle, characters, fontName, fontSize, textStyle }

mutual

/-- A node as a record, with its children if it is a branch. -/
def Tree.toJson : Node → Json
  | .leaf a => .obj a.members
  | .branch a ns => .obj (a.members ++ [("children", .arr (Forest.toJson ns))])

def Forest.toJson : List Node → List Json
  | [] => []
  | n :: ns => n.toJson :: Forest.toJson ns

end

mutual

def nodeOfJson? : Json → Option Node
  | .obj members => do
    let a ← (record? nodeFields 3 (.obj members)).bind Attributes.ofRecord?
    let ns ← childrenOfMembers? members
    return .ofChildren a ns
  | .arr items => do
    let a ← (record? nodeFields 3 (.arr items)).bind Attributes.ofRecord?
    let ns ← childrenOfItems? (nodeFields.length - 1) items
    return .ofChildren a ns
  | _ => none

def childrenOfJson? : Json → Option (Option (List Node))
  | .null => some none
  | .arr items => (nodesOfItems? items).map some
  | _ => none

def nodesOfItems? : List Json → Option (List Node)
  | [] => some []
  | v :: vs => do
    let n ← nodeOfJson? v
    let ns ← nodesOfItems? vs
    return n :: ns

def childrenOfMembers? : List (String × Json) → Option (Option (List Node))
  | [] => some none
  | (name, v) :: members => if name = "children" then childrenOfJson? v else childrenOfMembers? members

/-- Reads the children of a node that is written as an array, where they come after `skip` other fields. -/
def childrenOfItems? (skip : Nat) : List Json → Option (Option (List Node))
  | [] => some none
  | v :: vs =>
    match skip with
    | 0 => childrenOfJson? v
    | skip + 1 => childrenOfItems? skip vs

end

def nodesOfJson? : Json → Option (List Node)
  | .arr items => nodesOfItems? items
  | _ => none

end DesignCanvas
