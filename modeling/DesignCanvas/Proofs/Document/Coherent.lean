import DesignCanvas.Proofs.Document.Registered

/-!
# Truthful bindings

A slot of a node that is bound to a style shows the colour of that style in all its solid paints. Every move of an
editor keeps this (`Editor.Move.keeps_coherent`): other fills free their node from its fill style, binding recolours the
paints, a copy has the slots of its original, and a style that is added takes the place of none.
-/

namespace DesignCanvas

/-- If the slot is bound, then to a paint style of the document with a colour, which all of its solid paints have. -/
def PaintSlot.Truthful (d : Document) (slot : PaintSlot) (a : Attributes) : Prop :=
  ∀ style ∈ slot.style? a, ∃ s ∈ d.styles, s.id = style ∧ s.kind = .paint ∧
    ∃ c ∈ s.color, ∀ p ∈ (slot.paints? a).getD [], ∀ c' ∈ p.color?, c' = c

instance (d : Document) (slot : PaintSlot) (a : Attributes) : Decidable (slot.Truthful d a) :=
  inferInstanceAs (Decidable (∀ style ∈ slot.style? a, ∃ s ∈ d.styles, s.id = style ∧ s.kind = .paint ∧
    ∃ c ∈ s.color, ∀ p ∈ (slot.paints? a).getD [], ∀ c' ∈ p.color?, c' = c))

/-- The ids are distinct, and every slot that is bound to a style shows its colour. -/
structure Document.Coherent (d : Document) : Prop where
  distinct : d.Distinct
  fills : ∀ a ∈ d.attributes, PaintSlot.fill.Truthful d a
  strokes : ∀ a ∈ d.attributes, PaintSlot.stroke.Truthful d a

instance (d : Document) : Decidable d.Coherent :=
  decidable_of_iff (d.Distinct ∧ (∀ a ∈ d.attributes, PaintSlot.fill.Truthful d a) ∧
      ∀ a ∈ d.attributes, PaintSlot.stroke.Truthful d a)
    ⟨fun h => ⟨h.1, h.2.1, h.2.2⟩, fun h => ⟨h.distinct, h.fills, h.strokes⟩⟩

namespace PaintSlot

variable {d d' : Document} {slot slot' : PaintSlot} {a b : Attributes}

theorem Truthful.mono (h : slot.Truthful d a) (hstyles : d.styles ⊆ d'.styles) (hstyle : slot.style? b = slot.style? a)
    (hpaints : slot.paints? b = slot.paints? a) : slot.Truthful d' b := by
  intro style hbound
  rw [hstyle] at hbound
  obtain ⟨s, hs, hid, hkind, c, hc, hall⟩ := h style hbound
  rw [hpaints]
  exact ⟨s, hstyles hs, hid, hkind, c, hc, hall⟩

theorem truthful_of_unbound (h : slot.style? a = none) : slot.Truthful d a := by
  intro style hbound
  rw [h] at hbound
  cases hbound

theorem color?_recolor {c c' : Color} {p : Paint} (h : c' ∈ (p.recolor c).color?) : c' = c := by
  cases p with
  | solid => exact (Option.some.inj h).symm
  | image | gradientLinear | gradientRadial | unsupported => cases h

/-- Binding a slot to a style gives all its solid paints the colour of the style. -/
theorem truthful_bind {style : String} {c : Color} (hknown : (d.style? style).bind Style.paintColor? = some c)
    (paints : List Paint) : slot.Truthful d (slot.bind (paints.map (Paint.recolor c)) style a) := by
  obtain ⟨s, hs, hcolor⟩ := Option.bind_eq_some_iff.1 hknown
  have hid : s.id = style := by simpa using List.find?_some hs
  rw [Style.paintColor?] at hcolor
  split at hcolor
  · next hkind =>
    intro style' hbound
    rw [style?_bind, if_pos rfl] at hbound
    obtain rfl := Option.some.inj hbound
    refine ⟨s, List.mem_of_find?_eq_some hs, hid, hkind, c, hcolor, fun p hp c' hc' => ?_⟩
    rw [paints?_bind, if_pos rfl] at hp
    obtain ⟨q, -, rfl⟩ := List.mem_map.1 hp
    exact color?_recolor hc'
  · cases hcolor

end PaintSlot

theorem Attributes.Edit.keeps_truthful {e : Editor} {a b : Attributes} {slot : PaintSlot} (h : Attributes.Edit e a b)
    (ha : slot.Truthful e.document a) : slot.Truthful e.document b := by
  cases h with
  | fills fills some =>
    cases slot with
    | fill => exact PaintSlot.truthful_of_unbound rfl
    | stroke => exact ha.mono (List.Subset.refl _) rfl rfl
  | paintStyle slot' paints style color known =>
    by_cases hslot : slot = slot'
    · subst hslot
      exact PaintSlot.truthful_bind known paints
    · refine ha.mono (List.Subset.refl _) ?_ ?_
      · rw [PaintSlot.style?_bind, if_neg hslot]
      · rw [PaintSlot.paints?_bind, if_neg hslot]
  | name | visible | position | extent | opacity | cornerRadius | characters | fontSize | textStyle =>
    exact ha.mono (List.Subset.refl _) (by cases slot <;> rfl) (by cases slot <;> rfl)

namespace Editor

variable {e e' : Editor} {slot : PaintSlot}

theorem Move.keeps_truthful (h : Move e e') (ht : ∀ a ∈ e.document.attributes, slot.Truthful e.document a) :
    ∀ a ∈ e'.document.attributes, slot.Truthful e'.document a := by
  intro b hb
  have hstyles : e.document.styles ⊆ e'.document.styles := h.extends.styles.subset
  obtain ⟨a, ha, rfl | hedit | ⟨new, rfl⟩⟩ := h.origin hb
  · exact (ht b ha).mono hstyles rfl rfl
  · exact (hedit.keeps_truthful (ht a ha)).mono hstyles rfl rfl
  · exact (ht a ha).mono hstyles (by cases slot <;> rfl) (by cases slot <;> rfl)

/-- Every move of an editor keeps its document coherent. -/
theorem Move.keeps_coherent (h : Move e e') (hc : e.document.Coherent) : e'.document.Coherent where
  distinct := h.keeps_distinct hc.distinct
  fills := h.keeps_truthful hc.fills
  strokes := h.keeps_truthful hc.strokes

end Editor

end DesignCanvas
