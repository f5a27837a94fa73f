import DesignCanvas.Proofs.Audit.Completion

/-!
# Verdicts

The three audits walk and judge in different ways. What each of them is to report is said here of the places of a tree
and not of the walk: which nodes it looks at (`Visited.inspected`) and what it finds there (`Tree.severity`). An audit
that only looks reports just this, in the order of the tree below each selected node, and leaves everything as it is
(`Editor.audit_reports`).
-/

namespace DesignCanvas

/-! ## What is to be reported -/

/-- A solid paint that is visible. -/
def Paint.isVisibleSolid : Paint → Bool
  | .solid _ _ visible _ => visible
  | _ => false

/-- A solid paint that is visible and not bound to a token. -/
def Paint.isLoose : Paint → Bool
  | .solid _ _ visible token => visible && token.isNone
  | _ => false

namespace PaintSlot

/-- Some paint in the slot is solid and visible. -/
def showsSolid (slot : PaintSlot) (a : Attributes) : Bool :=
  ((slot.paints? a).getD []).any Paint.isVisibleSolid

/-- The slot has no style, and some paint in it is solid, visible and not bound to a token. -/
def isUnbound (slot : PaintSlot) (a : Attributes) : Bool :=
  (slot.style? a).isNone && ((slot.paints? a).getD []).any Paint.isLoose

end PaintSlot

/-- The nodes that an audit of a kind reports on: parts of designs that are in no reusable part, nodes that show a solid
paint, and texts that are in no other text; none of them deeper than a walk goes. -/
def Visited.inspected (kind : AuditKind) (v : Visited Attributes) : Bool :=
  match kind with
  | .components => v.within Tree.isReusable walkDepth
  | .styles =>
    v.within (fun _ => false) walkDepth &&
      (PaintSlot.fill.showsSolid v.tree.label || PaintSlot.stroke.showsSolid v.tree.label)
  | .textStyles => v.within Tree.isText walkDepth && v.tree.isText

/-- How serious an audit of a kind finds a node that it reports on. -/
def Tree.severity (kind : AuditKind) (n : Node) : Severity :=
  match kind with
  | .components => if n.isReusable then .ok else if n.children?.isSome then .warning else .info
  | .styles => if PaintSlot.fill.isUnbound n.label || PaintSlot.stroke.isUnbound n.label then .warning else .ok
  | .textStyles => if n.label.textStyle.isNone then .warning else .ok

def AuditKind.category : AuditKind → String
  | components => "component"
  | styles => "paint"
  | textStyles => "text-style"

/-- A finding reports on a node what an audit of a kind has to. -/
structure Finding.Reports (kind : AuditKind) (n : Node) (f : Finding) : Prop where
  nodeId : f.nodeId = n.id
  name : f.name = n.label.name
  category : f.category = kind.category
  severity : f.severity = n.severity kind
  applied : f.applied = false

/-- The nodes that an audit of a kind reports on, in their order below each selected node. -/
def Document.inspected (kind : AuditKind) (d : Document) : List Node :=
  d.roots.flatMap fun root => (root.spots.filter (Visited.inspected kind)).map Visited.tree

/-! ## Slots -/

namespace Paint

theorem isSome_visibleSolid? (p : Paint) : p.visibleSolid?.isSome = p.isVisibleSolid := by
  cases p with
  | solid color opacity visible token => cases visible <;> rfl
  | _ => rfl

theorem any_visibleSolid? (p : Paint) : (p.visibleSolid?.any fun c => c.2.isNone) = p.isLoose := by
  cases p with
  | solid color opacity visible token => cases visible <;> rfl
  | _ => rfl

theorem filterMap_visibleSolid? (ps : List Paint) :
    ps.filterMap visibleSolid? = [] ↔ ps.any isVisibleSolid = false := by
  rw [List.filterMap_eq_nil_iff, List.any_eq_false]
  refine forall₂_congr fun p _ => ?_
  rw [← isSome_visibleSolid?, Option.not_isSome_iff_eq_none]

theorem any_isNone_visibleSolid? (ps : List Paint) :
    ((ps.filterMap visibleSolid?).find? fun c => c.2.isNone).isSome = ps.any isLoose := by
  rw [List.isSome_find?, List.any_filterMap]
  refine congrArg ps.any (funext fun p => ?_)
  rw [← any_visibleSolid?]
  cases p.visibleSolid? <;> rfl

end Paint

namespace PaintSlot

variable (slot : PaintSlot) (d : Document) (a : Attributes)

theorem isSome_detail? : (slot.detail? d a).isSome = slot.showsSolid a := by
  rw [showsSolid, detail?, state]
  cases hsolids : ((slot.paints? a).getD []).filterMap Paint.visibleSolid? with
  | nil =>
    rw [(Paint.filterMap_visibleSolid? _).1 hsolids]
    rfl
  | cons first rest =>
    have hshows : ((slot.paints? a).getD []).any Paint.isVisibleSolid := by
      rw [← Bool.not_eq_false, ← Paint.filterMap_visibleSolid?, hsolids]
      exact List.cons_ne_nil _ _
    rw [hshows]
    cases slot.style? a with
    | some style => rfl
    | none =>
      dsimp only
      cases (first :: rest).find? fun p => p.2.isNone <;> rfl

theorem isSome_fix? : (slot.fix? a).isSome = slot.isUnbound a := by
  rw [isUnbound, fix?, state, ← Paint.any_isNone_visibleSolid?]
  cases ((slot.paints? a).getD []).filterMap Paint.visibleSolid? with
  | nil => cases slot.style? a <;> rfl
  | cons first rest =>
    cases slot.style? a with
    | some style => rfl
    | none =>
      dsimp only
      cases (first :: rest).find? fun p => p.2.isNone <;> rfl

end PaintSlot

/-! ## Reports -/

theorem isEmpty_filterMap_pair (f : α → Option β) (x y : α) :
    ([x, y].filterMap f).isEmpty = !((f x).isSome || (f y).isSome) := by
  cases hx : f x <;> cases hy : f y <;> simp [hx, hy]

namespace Document

variable {d : Document} {n : Node} {i : Inspection}

/-- A node is reported on in an audit of paint styles just if it shows a solid paint. -/
theorem isSome_inspectPaint (d : Document) (a : Attributes) :
    (d.inspectPaint a).isSome = (PaintSlot.fill.showsSolid a || PaintSlot.stroke.showsSolid a) := by
  rw [inspectPaint]
  simp only [isEmpty_filterMap_pair, PaintSlot.isSome_detail?]
  cases PaintSlot.fill.showsSolid a || PaintSlot.stroke.showsSolid a <;> rfl

theorem reports_inspectPaint (h : d.inspectPaint n.label = some i) : i.finding.Reports .styles n := by
  rw [inspectPaint] at h
  simp only [isEmpty_filterMap_pair, PaintSlot.isSome_fix?] at h
  split at h
  · cases h
  · obtain rfl := Option.some.inj h
    refine ⟨rfl, rfl, rfl, ?_, rfl⟩
    simp only [Inspection.ofNode, Tree.severity]
    cases PaintSlot.fill.isUnbound n.label || PaintSlot.stroke.isUnbound n.label <;> rfl

theorem reports_inspectText (d : Document) (n : Node) : (d.inspectText n.label).finding.Reports .textStyles n := by
  rw [inspectText]
  cases hstyle : n.label.textStyle with
  | some style => exact ⟨rfl, rfl, rfl, by simp [Inspection.ofNode, Tree.severity, hstyle], rfl⟩
  | none => exact ⟨rfl, rfl, rfl, by simp [Inspection.ofNode, Tree.severity, hstyle], rfl⟩

theorem reports_inspectComponent (n : Node) : n.inspectComponent.finding.Reports .components n := by
  refine ⟨rfl, rfl, rfl, ?_, rfl⟩
  rw [Tree.severity, Tree.isReusable, Tree.inspectComponent, Tree.componentVerdict]
  cases n.label.kind with
  | component | componentSet | componentInstance => rfl
  | _ => cases n.children? <;> rfl

/-- A scan reports on the places of a tree that it is to report on, in their order. -/
theorem reports_scan (d : Document) (kind : AuditKind) (root : Node) :
    List.Forall₂ (Finding.Reports kind) ((root.spots.filter (Visited.inspected kind)).map Visited.tree)
      ((d.scan kind root).map Inspection.finding) := by
  rw [List.forall₂_map_left_iff, List.forall₂_map_right_iff]
  cases kind with
  | components =>
    rw [scan, Tree.scanComponents, Tree.reached, Tree.visited_eq_filter, List.map_map, List.forall₂_map_right_iff]
    exact List.forall₂_same.2 fun v _ => reports_inspectComponent v.tree
  | textStyles =>
    have htexts : root.texts = (root.spots.filter (Visited.inspected .textStyles)).map Visited.tree := by
      rw [Tree.texts, Tree.reached, Tree.visited_eq_filter, List.filter_map, List.filter_filter]
      exact congrArg _ (List.filter_congr fun v _ => Bool.and_comm ..)
    rw [scan, scanTexts, htexts, List.map_map, List.forall₂_map_right_iff]
    exact List.forall₂_same.2 fun v _ => d.reports_inspectText v.tree
  | styles =>
    have hlooked : root.spots.filter (Visited.inspected .styles) =
        (root.spots.filter (Visited.within (fun _ => false) walkDepth)).filter fun v =>
          PaintSlot.fill.showsSolid v.tree.label || PaintSlot.stroke.showsSolid v.tree.label := by
      rw [List.filter_filter]
      exact List.filter_congr fun v _ => Bool.and_comm ..
    rw [scan, scanPaints, Tree.all, Tree.reached, Tree.visited_eq_filter, List.filterMap_map, hlooked]
    exact forall₂_filter_filterMap (fun v : Visited Attributes => d.isSome_inspectPaint v.tree.label)
      (fun _ _ => reports_inspectPaint) _

end Document

namespace Editor

/-- An audit that only looks leaves everything as it is and reports on the nodes that it is to report on, in their order
below each selected node, how serious each of them is. -/
theorem audit_reports (e : Editor) (kind : AuditKind) (hroots : e.document.roots ≠ []) :
    ∃ findings, e.audit kind false = .reply e findings ∧
      List.Forall₂ (Finding.Reports kind) (e.document.inspected kind) findings := by
  refine ⟨(e.document.roots.flatMap (e.document.scan kind)).map Inspection.finding, ?_, ?_⟩
  · rw [audit, onSelection_eq, if_neg hroots]
    rfl
  · rw [List.map_flatMap, Document.inspected]
    induction e.document.roots with
    | nil => exact .nil
    | cons root roots ih =>
      rw [List.flatMap_cons, List.flatMap_cons]
      exact List.rel_append (e.document.reports_scan kind root) ih

end Editor

/-- A frame with a paint that is bound to a token under one that is not; in it are a button with a hidden paint inside
of it, a text with a style, a text without one that has another one in it, and a picture frame with a style. -/
def Document.handover : Document where
  nodes := [.branch
    { Attributes.bare "1:1" "Frame" .frame with
      fills := some [.solid ⟨0.0, 0.0, 0.0⟩ 1.0 true (some "brand"), .ofColor ⟨1.0, 1.0, 1.0⟩] }
    [.branch (.bare "1:2" "Button" .component)
      [.leaf { Attributes.bare "1:3" "Icon" .rectangle with fills := some [.solid ⟨0.0, 0.0, 0.0⟩ 1.0 false none] }],
     .leaf { Attributes.bare "1:4" "Title" .text with textStyle := some "S:1" },
     .branch (.bare "1:5" "Note" .text) [.leaf (.bare "1:6" "Quote" .text)],
     .leaf { Attributes.bare "1:7" "Picture" .rectangle with
      fills := some [.ofColor ⟨1.0, 1.0, 1.0⟩]
      fillStyle := some "S:2"
      strokes := some [.solid ⟨0.0, 0.0, 0.0⟩ 1.0 true (some "brand")] }]]
  selection := ["9:9", "1:1"]
  styles := []
  unavailableFonts := []
  images := .empty

namespace Editor

theorem audit_reports_handover :
    let e := opening .handover
    e.document.roots ≠ [] ∧
      (∀ kind, ∃ findings, e.audit kind false = .reply e findings ∧
        List.Forall₂ (Finding.Reports kind) (e.document.inspected kind) findings) ∧
      (e.document.inspected .components).map (fun n => (n.id, n.severity .components)) =
        [("1:1", .warning), ("1:2", .ok), ("1:4", .info), ("1:5", .warning), ("1:6", .info), ("1:7", .info)] ∧
      (e.document.inspected .styles).map (fun n => (n.id, n.severity .styles)) = [("1:1", .warning), ("1:7", .ok)] ∧
      (e.document.inspected .textStyles).map (fun n => (n.id, n.severity .textStyles)) =
        [("1:4", .ok), ("1:5", .warning)] := by
  intro e
  have hroots : e.document.roots ≠ [] := by
    rw [← List.isEmpty_eq_false_iff]
    decide +kernel
  exact ⟨hroots, fun kind => audit_reports e kind hroots, by decide +kernel, by decide +kernel, by decide +kernel⟩

end Editor

end DesignCanvas
