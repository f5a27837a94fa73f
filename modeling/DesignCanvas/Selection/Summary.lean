import DesignCanvas.Document.Basic
import DesignCanvas.Decimal.Layout

/-!
# Summary of the selection

A text that says of every selected node what it is, where it stands and how it looks.
-/

namespace DesignCanvas

def detailLine (label value : String) : String :=
  s!"  - {label}: {value}\n"

namespace Attributes

def textLines (a : Attributes) : List String :=
  if a.kind = .text then
    detailLine "텍스트" s!"\"{a.text}\"" :: (a.fontSize.map fun x => detailLine "폰트 크기" (Decimal.plain.write x)).toList
  else []

/-- The summary of a node: a heading with its type and name, and a line for each thing that is known of it. -/
def summary (a : Attributes) : String :=
  String.join ([
      s!"[{a.kind.typeName}] {a.name}\n",
      detailLine "ID" a.id,
      detailLine "위치" s!"({Decimal.rounded a.x}, {Decimal.rounded a.y})",
      detailLine "크기" s!"{Decimal.rounded a.width} x {Decimal.rounded a.height}"]
    ++ a.textLines
    ++ (a.firstSolidFill?.map fun c => detailLine "배경색" c.toHex).toList
    ++ (a.opacity.map fun x => detailLine "투명도" s!"{Decimal.rounded (x * 100.0)}%").toList)

end Attributes

/-- The summaries of the selected nodes, with an empty line between two of them. -/
def Document.selectionSummary (d : Document) : String :=
  match d.roots with
  | [] => "선택된 레이어가 없습니다."
  | n :: ns => "\n".intercalate ((n :: ns).map fun n => n.label.summary)

end DesignCanvas
