import DesignCanvas.Audit.Scan
import DesignCanvas.Editor.Batch

/-!
# Repairs

Putting right what a scan has found. A paint is bound to the first paint style with the same colour, which is made
if there is none; a text is bound to the first text style with the same family and size, if there is one. A finding
counts as put right when all of its fixes were carried out.
-/

namespace DesignCanvas

/-- Two sizes are the same if they are less than this apart, the distance from one to the next double. -/
def sizeTolerance : Float := 2.220446049250313e-16

namespace Style

/-- A paint style with a colour that is the same as a given one. -/
def hasColor (color : Color) (s : Style) : Bool :=
  s.kind == .paint && s.color.any fun c => c.same color

def hasFont (family : String) (size : Float) (s : Style) : Bool :=
  s.kind == .text && (s.font.any fun f => f.family == family)
    && s.fontSize.any fun x => (x - size).abs < sizeTolerance

end Style

/-- What a fix leaves behind: the name of the style that the node was bound to, if there was one. -/
structure Fixed where
  editor : Editor
  style : Except EditError (Option String)

namespace Editor

/-- A paint style with a colour, which is made if there is none. -/
def paintStyleFor (e : Editor) (color : Color) : Editor × Style :=
  match e.document.styles.find? (Style.hasColor color) with
  | some s => (e, s)
  | none => e.addPaintStyle ("color/" ++ String.ofList color.digits) color

/-- Carries out a fix on a node. -/
def fix (e : Editor) (id : String) : Fix → Fixed
  | .paint slot color =>
    let (e, s) := e.paintStyleFor color
    match e.bindPaintStyle id slot s.id with
    | .ok e => ⟨e, .ok (some s.name)⟩
    | .error error => ⟨e, .error error⟩
  | .text family size =>
    match e.document.styles.find? (Style.hasFont family size) with
    | none => ⟨e, .ok none⟩
    | some s =>
      match e.bindTextStyle id s.id with
      | .ok e => ⟨e, .ok (some s.name)⟩
      | .error error => ⟨e, .error error⟩

end Editor

/-- How far a repair has come: the names of the styles that nodes were bound to, and the fixes that failed. -/
structure Repair where
  editor : Editor
  bound : List String
  notices : List Notice

namespace Repair

def take (id : String) (r : Repair) (fix : Fix) : Repair :=
  let f := r.editor.fix id fix
  match f.style with
  | .ok style => { r with editor := f.editor, bound := r.bound ++ style.toList }
  | .error error => { r with editor := f.editor, notices := r.notices ++ [.fixFailed id error] }

def run (e : Editor) (i : Inspection) : Repair :=
  i.fixes.foldl (take i.finding.nodeId) ⟨e, [], []⟩

end Repair

/-- The finding of an inspection after its fixes were carried out. -/
def Inspection.repaired (i : Inspection) (bound : List String) : Finding :=
  if i.fixes.isEmpty ∨ bound.length ≠ i.fixes.length then i.finding
  else { i.finding with applied := true, detail := i.finding.detail ++ " → " ++ ", ".intercalate bound }

namespace Editor

/-- Carries out the fixes of inspections one after another. -/
def repair (e : Editor) : List Inspection → Editor × List Notice × List Finding
  | [] => (e, [], [])
  | i :: is =>
    let r := Repair.run e i
    let (e, notices, findings) := r.editor.repair is
    (e, r.notices ++ notices, i.repaired r.bound :: findings)

/-- Audits the selected nodes, and puts right what can be if `fix` says so. -/
def audit (e : Editor) (kind : AuditKind) (fix : Bool) : Result (List Finding) :=
  e.onSelection fun ns =>
    let inspections := ns.flatMap (e.document.scan kind)
    if fix then
      let (e, notices, findings) := e.repair inspections
      ⟨e, ⟨notices, []⟩, .ok findings⟩
    else .reply e (inspections.map Inspection.finding)

end Editor

end DesignCanvas
