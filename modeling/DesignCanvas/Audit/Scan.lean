import DesignCanvas.Audit.Finding
import DesignCanvas.Audit.Kind
import DesignCanvas.Decimal.Layout
import DesignCanvas.Editor.Styles
import DesignCanvas.Scene.Collect

/-!
# Scans

A scan goes over the nodes below a node and says of each one it is about whether it follows the design system, and
what would put it right.
-/

namespace DesignCanvas

/-- What would put a node right. -/
inductive Fix where
  /-- Bind a slot to a paint style with a colour. -/
  | paint (slot : PaintSlot) (color : Color)
  /-- Bind a text to a text style with a family of fonts and a size. -/
  | text (family : String) (size : Float)
  deriving DecidableEq, Repr

/-- A finding with what would put it right. -/
structure Inspection where
  finding : Finding
  fixes : List Fix
  deriving DecidableEq, Repr

namespace Inspection

def ofNode (a : Attributes) (category detail : String) (severity : Severity) (fixes : List Fix) : Inspection :=
  { finding := { nodeId := a.id, name := a.name, category, detail, applied := false, severity }, fixes }

end Inspection

/-! ## Components -/

/-- What is said about a node in an audit of components. -/
def Tree.componentVerdict (n : Node) : String × Severity :=
  match n.label.kind with
  | .componentInstance => ("컴포넌트 인스턴스", .ok)
  | .component | .componentSet => ("컴포넌트 정의", .ok)
  | _ =>
    match n.children? with
    | some ns => (s!"컴포넌트를 사용하지 않는 컨테이너 (하위 레이어 {ns.length}개)", .warning)
    | none => ("컴포넌트 밖의 레이어", .info)

def Tree.inspectComponent (n : Node) : Inspection :=
  .ofNode n.label "component" n.componentVerdict.1 n.componentVerdict.2 []

/-- Inspects the nodes below a node that are in no reusable part, and the reusable parts themselves. -/
def Tree.scanComponents (n : Node) : List Inspection :=
  (n.reached Tree.isReusable).map Tree.inspectComponent

/-! ## Paints -/

/-- What is said about a slot of a node in an audit of paint styles. -/
inductive SlotState where
  /-- The slot shows no solid paint. -/
  | blank
  | styled (style : String)
  /-- All solid paints that it shows are bound to tokens, the first one to this. -/
  | bound (token : String)
  /-- A solid paint that it shows is bound to nothing; the first of these has this colour. -/
  | loose (color : Color)
  deriving DecidableEq, Repr

namespace PaintSlot

def state (slot : PaintSlot) (a : Attributes) : SlotState :=
  match ((slot.paints? a).getD []).filterMap Paint.visibleSolid? with
  | [] => .blank
  | first :: rest =>
    match slot.style? a with
    | some style => .styled style
    | none =>
      match (first :: rest).find? fun p => p.2.isNone with
      | some (color, _) => .loose color
      | none => .bound (first.2.getD "")

/-- What is said about a slot, if it shows anything. -/
def detail? (d : Document) (slot : PaintSlot) (a : Attributes) : Option String :=
  match slot.state a with
  | .blank => none
  | .styled style => some s!"{slot.name} {d.styleName style}"
  | .bound token => some s!"{slot.name} var({token})"
  | .loose color => some s!"{slot.name} {color.toHex} (토큰 미적용)"

/-- What would put a slot right. -/
def fix? (slot : PaintSlot) (a : Attributes) : Option Fix :=
  match slot.state a with
  | .loose color => some (.paint slot color)
  | _ => none

end PaintSlot

/-- The inspection of a node for paint styles, if it shows a solid paint. -/
def Document.inspectPaint (d : Document) (a : Attributes) : Option Inspection :=
  let slots : List PaintSlot := [.fill, .stroke]
  let details := slots.filterMap fun s => s.detail? d a
  let fixes := slots.filterMap fun s => s.fix? a
  if details.isEmpty then none
  else some (.ofNode a "paint" ("; ".intercalate details) (if fixes.isEmpty then .ok else .warning) fixes)

/-- Inspects the nodes below a node for paint styles. -/
def Document.scanPaints (d : Document) (n : Node) : List Inspection :=
  n.all.filterMap fun m => d.inspectPaint m.label

/-! ## Text styles -/

namespace Attributes

def fontFamily? (a : Attributes) : Option String :=
  (a.fontName.bind FontName.primary?).map Font.family

/-- What is said about the font of a text. -/
def fontDetail (a : Attributes) : String :=
  match a.fontFamily?, a.fontSize with
  | some family, some size => s!"{family} {Decimal.plain.write size}"
  | some family, none => family
  | none, some size => Decimal.plain.write size
  | none, none => "폰트 정보 없음"

/-- What would put a text without a style right. -/
def textFix? (a : Attributes) : Option Fix := do
  let family ← a.fontFamily?
  let size ← a.fontSize
  return .text family size

end Attributes

def Document.inspectText (d : Document) (a : Attributes) : Inspection :=
  match a.textStyle with
  | some style => .ofNode a "text-style" s!"{d.styleName style} ({a.fontDetail})" .ok []
  | none => .ofNode a "text-style" s!"텍스트 스타일 없음 ({a.fontDetail})" .warning a.textFix?.toList

def Document.scanTexts (d : Document) (n : Node) : List Inspection :=
  n.texts.map fun t => d.inspectText t.label

def Document.scan (d : Document) : AuditKind → Node → List Inspection
  | .components => Tree.scanComponents
  | .styles => d.scanPaints
  | .textStyles => d.scanTexts

end DesignCanvas
