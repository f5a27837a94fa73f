import DesignCanvas.Proofs.Audit.Binding
import DesignCanvas.Proofs.Audit.Plan
import Mathlib.Data.List.Induction

/-!
# Colours after an audit

A paint style is bound to all solid paints of a slot at once and gives them its colour, also those that are hidden or
bound to a token. So an audit that puts right what it finds keeps all colours just if the solid paints of each slot
that it puts right have one colour (`Editor.keepsColors_iff`).
-/

namespace DesignCanvas

def Paint.hue (p : Paint) : Option String :=
  p.color?.map Color.toHex

/-- The colours in a slot, one for each paint; only solid paints have one. -/
def PaintSlot.hues (slot : PaintSlot) (a : Attributes) : List (Option String) :=
  ((slot.paints? a).getD []).map Paint.hue

/-- The ids of all nodes with the colours in a slot. -/
def Document.hues (d : Document) (slot : PaintSlot) : List (String × List (Option String)) :=
  d.attributes.map fun a => (a.id, slot.hues a)

/-- An audit of paint styles that puts right what it finds keeps the colours of all paints of all nodes. -/
def Editor.KeepsColors (e : Editor) : Prop :=
  ∀ slot, (e.audit .styles true).editor.document.hues slot = e.document.hues slot

/-- One colour for all that have one. -/
def tinted (c : Color) (hues : List (Option String)) : List (Option String) :=
  hues.map (Option.map fun _ => c.toHex)

/-- What a fix for the node with an id makes of the colours in a slot of a node. -/
def Fix.tint (slot : PaintSlot) (id : String) : Fix → String × List (Option String) → String × List (Option String)
  | .paint slot' c, x => if slot' = slot ∧ x.1 = id then (x.1, tinted c x.2) else x
  | .text .., x => x

/-! ## One fix -/

theorem tinted_tinted (c : Color) (hues : List (Option String)) : tinted c (tinted c hues) = tinted c hues := by
  simp [tinted, Function.comp_def]

theorem tinted_congr {c c' : Color} (h : c.same c') (hues : List (Option String)) : tinted c hues = tinted c' hues := by
  rw [tinted, tinted, Color.same_iff.1 h]

theorem tinted_eq_self {c : Color} {paints : List Paint} :
    tinted c (paints.map Paint.hue) = paints.map Paint.hue ↔ ∀ p ∈ paints, ∀ c', p.color? = some c' → c'.same c := by
  rw [tinted, List.map_map, List.map_inj_left]
  refine forall₂_congr fun p _ => ?_
  cases hp : p.color? with
  | none => simp [Paint.hue, hp]
  | some c' => simp [Paint.hue, hp, Color.same_iff, eq_comm (a := c.toHex)]

theorem Paint.hue_recolor (c : Color) (p : Paint) : (p.recolor c).hue = p.hue.map fun _ => c.toHex := by
  cases p <;> rfl

namespace PaintSlot

variable {slot slot' : PaintSlot} {style : String} {c : Color} {a : Attributes}

theorem hues_bind (paints : List Paint) :
    slot.hues (slot'.bind paints style a) = if slot' = slot then paints.map Paint.hue else slot.hues a := by
  cases slot <;> cases slot' <;> rfl

theorem hues_restyle :
    slot.hues (slot'.restyle style c a) = if slot' = slot then tinted c (slot.hues a) else slot.hues a := by
  by_cases hslot : slot' = slot
  · subst hslot
    rw [if_pos rfl, restyle]
    cases hpaints : slot'.paints? a with
    | none => simp [hues, hpaints, tinted]
    | some paints =>
      dsimp only
      rw [hues_bind, if_pos rfl]
      simp [hues, hpaints, tinted, Function.comp_def, Paint.hue_recolor]
  · rw [if_neg hslot, restyle]
    cases slot'.paints? a with
    | none => rfl
    | some paints => exact (hues_bind _).trans (if_neg hslot)

theorem id_restyle : (slot.restyle style c a).id = a.id := by
  unfold restyle
  cases slot.paints? a with
  | none => rfl
  | some paints => cases slot <;> rfl

end PaintSlot

namespace Editor

variable {e : Editor}

theorem hues_fix (hd : e.document.Distinct) (id : String) (f : Fix) (slot : PaintSlot) :
    (e.fix id f).editor.document.hues slot = (e.document.hues slot).map (f.tint slot id) := by
  cases f with
  | paint slot' c =>
    obtain ⟨style, c', hsame, hnodes⟩ := fix_paint hd id slot' c
    rw [Document.hues, Document.attributes, hnodes, Forest.labels_map, Document.hues, List.map_map, List.map_map]
    refine List.map_congr_left fun a _ => ?_
    by_cases hid : a.id = id
    · subst hid
      simp only [Function.comp_apply, ↓reduceIte, Fix.tint, PaintSlot.id_restyle, PaintSlot.hues_restyle,
        tinted_congr hsame, and_true]
      split <;> rfl
    · simp [Fix.tint, hid]
  | text family size =>
    obtain ⟨style, hnodes⟩ := fix_text hd id family size
    rw [Document.hues, Document.attributes, hnodes, Forest.labels_map, Document.hues, List.map_map, List.map_map]
    refine List.map_congr_left fun a _ => ?_
    by_cases hid : a.id = id
    · cases slot <;> simp [Fix.tint, hid, PaintSlot.hues, PaintSlot.paints?]
    · simp [Fix.tint, hid]

theorem hues_fixAll (hd : e.document.Distinct) (plan : List (String × Fix)) (slot : PaintSlot) :
    (e.fixAll plan).document.hues slot = plan.foldl (fun l p => l.map (p.2.tint slot p.1)) (e.document.hues slot) := by
  induction plan generalizing e with
  | nil => rfl
  | cons p plan ih =>
    have hd' := (e.fix_drifts p.1 p.2).reaches.keeps (fun _ _ => Move.keeps_distinct) hd
    rw [fixAll, ih hd', hues_fix hd, List.foldl_cons]

end Editor

/-! ## All fixes -/

/-- The colours in a slot of a node after some fixes, if all that are for the slot ask for its own loose colour. -/
def PaintSlot.huesAfter (plan : List (String × Fix)) (slot : PaintSlot) (a : Attributes) : List (Option String) :=
  match slot.state a with
  | .loose c => if (a.id, Fix.paint slot c) ∈ plan then tinted c (slot.hues a) else slot.hues a
  | _ => slot.hues a

theorem Fix.tint_huesAfter {slot : PaintSlot} {a : Attributes} (plan : List (String × Fix)) (id : String) (f : Fix)
    (hloose : ∀ c, id = a.id → f = .paint slot c → slot.state a = .loose c) :
    f.tint slot id (a.id, slot.huesAfter plan a) = (a.id, slot.huesAfter (plan ++ [(id, f)]) a) := by
  have hother : (∀ c, ¬ (id = a.id ∧ f = .paint slot c)) →
      slot.huesAfter (plan ++ [(id, f)]) a = slot.huesAfter plan a := by
    intro hne
    unfold PaintSlot.huesAfter
    cases slot.state a with
    | loose c =>
      have hnot : (a.id, Fix.paint slot c) ≠ (id, f) := fun heq =>
        hne c ⟨(Prod.mk.inj heq).1.symm, (Prod.mk.inj heq).2.symm⟩
      simp [hnot]
    | blank | styled | bound => rfl
  cases f with
  | text family size =>
    rw [hother fun c h => nomatch h.2]
    rfl
  | paint slot' c =>
    by_cases hfor : slot' = slot ∧ a.id = id
    · obtain ⟨rfl, rfl⟩ := hfor
      rw [tint, if_pos ⟨rfl, rfl⟩]
      simp only [PaintSlot.huesAfter, hloose c rfl rfl]
      split <;> simp [tinted_tinted]
    · rw [tint, if_neg hfor, hother]
      rintro c' ⟨hid, hf⟩
      injection hf with hslot
      exact hfor ⟨hslot, hid.symm⟩

namespace Document

variable {d : Document}

theorem foldl_tint (hd : (d.attributes.map Attributes.id).Nodup) (slot : PaintSlot) {plan : List (String × Fix)}
    (hplan : ∀ id c, (id, Fix.paint slot c) ∈ plan → ∃ a ∈ d.attributes, a.id = id ∧ slot.state a = .loose c) :
    plan.foldl (fun l p => l.map (p.2.tint slot p.1)) (d.hues slot) =
      d.attributes.map fun a => (a.id, slot.huesAfter plan a) := by
  induction plan using List.reverseRecOn with
  | nil =>
    refine List.map_congr_left fun a _ => ?_
    unfold PaintSlot.huesAfter
    split <;> simp
  | append_singleton plan p ih =>
    have ih := ih fun id c h => hplan id c (List.mem_append_left _ h)
    rw [List.foldl_append, ih, List.foldl_cons, List.foldl_nil, List.map_map]
    refine List.map_congr_left fun a ha => Fix.tint_huesAfter plan p.1 p.2 fun c hid hf => ?_
    obtain ⟨b, hb, hbid, hstate⟩ := hplan p.1 c (List.mem_append_right _ (List.mem_singleton.2 (by rw [← hf])))
    rwa [← eq_of_id hd hb ha (hbid.trans hid)]

/-- A slot that a walk comes to gets the colour of its first loose paint; every other one keeps its colours. -/
theorem hues_audit {e : Editor} (hd : e.document.Distinct) (slot : PaintSlot) :
    (e.audit .styles true).editor.document.hues slot =
      e.document.attributes.map fun a => (a.id, slot.huesAfter e.document.paintPlan a) := by
  rw [Editor.audit_styles_editor, Editor.hues_fixAll hd]
  refine foldl_tint hd.nodes slot fun id c hmem => ?_
  obtain ⟨n, hn, rfl, slot', c', hstate, hf⟩ := mem_paintPlan.1 hmem
  injection hf with hslot hc
  subst hslot hc
  obtain ⟨root, hroot, hn⟩ := List.mem_flatMap.1 hn
  exact ⟨n.label, mem_attributes_of_reached hroot hn, rfl, hstate⟩

end Document

/-- An audit that puts right what it finds keeps all colours just if each slot that a walk comes to and that shows a
loose paint has all of its solid paints in the colour of the first of these. -/
theorem Editor.keepsColors_iff (e : Editor) (hd : e.document.Distinct) :
    e.KeepsColors ↔ ∀ n ∈ e.document.roots.flatMap Tree.all, ∀ (slot : PaintSlot) (c : Color),
      slot.state n.label = .loose c → ∀ p ∈ (slot.paints? n.label).getD [], ∀ c', p.color? = some c' → c'.same c := by
  have hslot : ∀ slot, (e.audit .styles true).editor.document.hues slot = e.document.hues slot ↔
      ∀ a ∈ e.document.attributes, slot.huesAfter e.document.paintPlan a = slot.hues a := by
    intro slot
    rw [Document.hues_audit hd, Document.hues, List.map_inj_left]
    exact forall₂_congr fun a _ => by simp
  constructor
  · intro h n hn slot c hstate
    obtain ⟨root, hroot, hreached⟩ := List.mem_flatMap.1 hn
    have hkept := (hslot slot).1 (h slot) n.label (Document.mem_attributes_of_reached hroot hreached)
    have hplanned : (n.label.id, Fix.paint slot c) ∈ e.document.paintPlan :=
      Document.mem_paintPlan.2 ⟨n, hn, rfl, slot, c, hstate, rfl⟩
    simp only [PaintSlot.huesAfter, hstate, if_pos hplanned] at hkept
    exact tinted_eq_self.1 hkept
  · intro h slot
    refine (hslot slot).2 fun a ha => ?_
    unfold PaintSlot.huesAfter
    split
    · next c hstate =>
      split
      · next hplanned =>
        obtain ⟨n, hn, hid, -⟩ := Document.mem_paintPlan.1 hplanned
        obtain ⟨root, hroot, hreached⟩ := List.mem_flatMap.1 hn
        obtain rfl := Document.eq_of_id hd.nodes (Document.mem_attributes_of_reached hroot hreached) ha hid
        exact tinted_eq_self.2 (h n hn slot c hstate)
      · rfl
    · rfl

/-- A selected rectangle with a loose fill in one colour over a fill that a token gives another one. -/
def Document.layered (lower upper : Color) : Document where
  nodes := [.leaf { Attributes.bare "1:1" "Rectangle" .rectangle with
    fills := some [.solid lower 1.0 true (some "brand"), .solid upper 1.0 true none] }]
  selection := ["1:1"]
  styles := []
  unavailableFonts := []
  images := .empty

namespace Editor

theorem keepsColors_layered :
    let e := opening (.layered ⟨0.0, 0.0, 0.0⟩ ⟨0.0, 0.0, 0.0⟩)
    e.document.Distinct ∧ e.KeepsColors := by
  intro e
  have hd : e.document.Distinct := by decide
  refine ⟨hd, (keepsColors_iff e hd).2 fun n hn slot c hstate p hp c' hc' => ?_⟩
  obtain rfl := List.mem_singleton.1 (show n ∈ [_] from hn)
  cases slot with
  | fill =>
    obtain rfl : _ = c := SlotState.loose.inj hstate
    have hcolor : p.color? = some ⟨0.0, 0.0, 0.0⟩ := by
      rcases List.mem_pair.1 (show p ∈ [_, _] from hp) with rfl | rfl <;> rfl
    obtain rfl := Option.some.inj (hcolor.symm.trans hc')
    exact Color.same_iff.2 rfl
  | stroke => exact absurd hp List.not_mem_nil

/-- Binding the rectangle for its loose fill also gives the other one the colour of that. -/
theorem not_keepsColors_layered :
    let e := opening (.layered ⟨0.0, 0.0, 0.0⟩ ⟨1.0, 1.0, 1.0⟩)
    e.document.Distinct ∧ ¬ e.KeepsColors ∧
      e.document.hues .fill = [("1:1", [some "#000000", some "#ffffff"])] ∧
      (e.audit .styles true).editor.document.hues .fill = [("1:1", [some "#ffffff", some "#ffffff"])] := by
  intro e
  have hbefore : e.document.hues .fill = [("1:1", [some "#000000", some "#ffffff"])] := by decide +kernel
  have hafter : (e.audit .styles true).editor.document.hues .fill = [("1:1", [some "#ffffff", some "#ffffff"])] := by
    decide +kernel
  refine ⟨by decide, fun h => ?_, hbefore, hafter⟩
  have hsame := h .fill
  rw [hbefore, hafter] at hsame
  exact absurd hsame (by decide)

end Editor

end DesignCanvas
