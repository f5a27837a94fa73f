import DesignCanvas.Audit.Repair
import DesignCanvas.Proofs.Document.Addressing
import Mathlib.Data.List.Basic

/-!
# Plans of repairs

All fixes of an audit are known before the first one is carried out, and they are carried out one after another
(`Editor.repair_eq`). A paint is planned to be put right just where a walk from a selected node comes to a slot with a
loose paint (`Document.mem_paintPlan`).
-/

namespace DesignCanvas

/-- The fixes of an inspection, each with the id of the node that it is for. -/
def Inspection.plan (i : Inspection) : List (String × Fix) :=
  i.fixes.map fun f => (i.finding.nodeId, f)

/-- The fixes that an audit carries out, each with the id of the node that it is for. -/
def Document.plan (d : Document) (kind : AuditKind) : List (String × Fix) :=
  (d.roots.flatMap (d.scan kind)).flatMap Inspection.plan

/-- The fixes that an audit of paint styles carries out. -/
def Document.paintPlan (d : Document) : List (String × Fix) :=
  (d.roots.flatMap d.scanPaints).flatMap Inspection.plan

/-- Carries out fixes one after another. -/
def Editor.fixAll (e : Editor) : List (String × Fix) → Editor
  | [] => e
  | (id, f) :: plan => (e.fix id f).editor.fixAll plan

namespace Editor

theorem fixAll_append (e : Editor) (plan plan' : List (String × Fix)) :
    e.fixAll (plan ++ plan') = (e.fixAll plan).fixAll plan' := by
  induction plan generalizing e with
  | nil => rfl
  | cons p plan ih => exact ih _

theorem take_editor (id : String) (r : Repair) (f : Fix) : (r.take id f).editor = (r.editor.fix id f).editor := by
  unfold Repair.take
  dsimp only
  split <;> rfl

theorem foldl_take_editor (id : String) (fs : List Fix) (r : Repair) :
    (fs.foldl (Repair.take id) r).editor = r.editor.fixAll (fs.map fun f => (id, f)) := by
  induction fs generalizing r with
  | nil => rfl
  | cons f fs ih => rw [List.foldl_cons, ih, take_editor, List.map_cons, fixAll]

theorem repair_eq (e : Editor) (is : List Inspection) : (e.repair is).1 = e.fixAll (is.flatMap Inspection.plan) := by
  induction is generalizing e with
  | nil => rfl
  | cons i is ih =>
    rw [List.flatMap_cons, fixAll_append, repair]
    dsimp only
    rw [ih, Repair.run, foldl_take_editor, Inspection.plan]

/-- An audit carries out its plan, which is empty if nothing is selected. -/
theorem audit_editor (e : Editor) (kind : AuditKind) :
    (e.audit kind true).editor = e.fixAll (e.document.plan kind) := by
  rw [audit, onSelection]
  split
  · next hroots =>
    rw [Document.plan, hroots]
    rfl
  · next n ns hroots =>
    rw [Document.plan, hroots]
    exact repair_eq e _

theorem audit_styles_editor (e : Editor) : (e.audit .styles true).editor = e.fixAll e.document.paintPlan :=
  e.audit_editor .styles

end Editor

namespace PaintSlot

variable {slot : PaintSlot} {d : Document} {a : Attributes} {f : Fix}

theorem fix?_eq_some : slot.fix? a = some f ↔ ∃ color, slot.state a = .loose color ∧ f = .paint slot color := by
  unfold fix?
  cases slot.state a with
  | loose color => simp [eq_comm]
  | blank | styled | bound => simp

theorem fix?_eq_none (h : slot.detail? d a = none) : slot.fix? a = none := by
  unfold detail? at h
  unfold fix?
  cases hstate : slot.state a with
  | loose color => simp [hstate] at h
  | blank | styled | bound => rfl

end PaintSlot

namespace Document

variable {d : Document} {id : String} {f : Fix}

theorem plan_inspectPaint (d : Document) (a : Attributes) :
    (d.inspectPaint a).toList.flatMap Inspection.plan =
      ([PaintSlot.fill, .stroke].filterMap fun s => s.fix? a).map fun f => (a.id, f) := by
  unfold inspectPaint
  dsimp only
  split
  · next hnone =>
    have hfixes : [PaintSlot.fill, .stroke].filterMap (fun s => s.fix? a) = [] := by
      rw [List.filterMap_eq_nil_iff]
      intro slot hslot
      exact PaintSlot.fix?_eq_none (List.filterMap_eq_nil_iff.1 (List.isEmpty_iff.1 hnone) slot hslot)
    rw [hfixes]
    rfl
  · simp [Inspection.plan, Inspection.ofNode]

theorem paintPlan_eq (d : Document) : d.paintPlan = (d.roots.flatMap Tree.all).flatMap fun n =>
    ([PaintSlot.fill, .stroke].filterMap fun s => s.fix? n.label).map fun f => (n.label.id, f) := by
  simp only [← plan_inspectPaint d]
  simp only [paintPlan, scanPaints, List.filterMap_eq_flatMap_toList, List.flatMap_assoc]

theorem mem_paintPlan : (id, f) ∈ d.paintPlan ↔ ∃ n ∈ d.roots.flatMap Tree.all, n.id = id ∧
    ∃ (slot : PaintSlot) (color : Color), slot.state n.label = .loose color ∧ f = .paint slot color := by
  have hslot : ∀ slot : PaintSlot, slot ∈ [PaintSlot.fill, .stroke] := by
    intro slot
    cases slot <;> simp
  rw [paintPlan_eq, List.mem_flatMap]
  refine exists_congr fun n => and_congr_right fun _ => ?_
  rw [List.mem_map]
  constructor
  · rintro ⟨f', hf, heq⟩
    obtain ⟨hid, rfl⟩ := Prod.mk.inj heq
    obtain ⟨slot, -, hfix⟩ := List.mem_filterMap.1 hf
    exact ⟨hid, slot, PaintSlot.fix?_eq_some.1 hfix⟩
  · rintro ⟨rfl, slot, hstate⟩
    exact ⟨f, List.mem_filterMap.2 ⟨slot, hslot slot, PaintSlot.fix?_eq_some.2 hstate⟩, rfl⟩

end Document

end DesignCanvas
