import DesignCanvas.Audit.Repair
import DesignCanvas.Proofs.Document.Addressing

/-!
# Binding slots to styles

A fix of a paint finds or makes a paint style with the colour that is asked for, up to the eight bits of a channel, and
binds the slot to it (`Editor.fix_paint`). A fix of a text changes no paint (`Editor.fix_text`).
-/

namespace DesignCanvas

theorem Color.same_iff {c c' : Color} : c.same c' ↔ c.toHex = c'.toHex :=
  beq_iff_eq

theorem Style.paintColor?_of_hasColor {s : Style} {c : Color} (h : s.hasColor c) :
    ∃ c', s.paintColor? = some c' ∧ c'.same c := by
  obtain ⟨hkind, hcolor⟩ := Bool.and_eq_true_iff.1 h
  obtain ⟨c', hc', hsame⟩ := (Option.any_eq_true _ _).1 hcolor
  exact ⟨c', by rw [paintColor?, if_pos (beq_iff_eq.1 hkind), hc'], hsame⟩

theorem Document.style?_of_mem {d : Document} {s : Style} (hd : (d.styles.map Style.id).Nodup) (hs : s ∈ d.styles) :
    d.style? s.id = some s := by
  cases hfind : d.style? s.id with
  | none => exact absurd (List.find?_eq_none.1 hfind s hs) (by simp)
  | some s' =>
    have hid : s'.id = s.id := by simpa using List.find?_some hfind
    rw [List.inj_on_of_nodup_map hd (List.mem_of_find?_eq_some hfind) hs hid]

/-- The attributes with all solid paints of a slot in the colour of a style that the slot is bound to. -/
def PaintSlot.restyle (style : String) (c : Color) (slot : PaintSlot) (a : Attributes) : Attributes :=
  match slot.paints? a with
  | none => a
  | some paints => slot.bind (paints.map (Paint.recolor c)) style a

namespace Editor

variable {e : Editor}

/-- A style for a colour is there or is made, and no node is changed. -/
theorem paintStyleFor_spec (e : Editor) (c : Color) :
    (e.paintStyleFor c).1.document.nodes = e.document.nodes ∧
      (e.paintStyleFor c).2 ∈ (e.paintStyleFor c).1.document.styles ∧ (e.paintStyleFor c).2.hasColor c := by
  unfold paintStyleFor
  split
  · next s hs => exact ⟨rfl, List.mem_of_find?_eq_some hs, List.find?_some hs⟩
  · refine ⟨rfl, List.mem_append_right _ (List.mem_singleton.2 rfl), ?_⟩
    simp [addPaintStyle, Style.hasColor, Color.same_iff]

theorem fix_paint_cases (e : Editor) (id : String) (slot : PaintSlot) (c : Color) :
    (∃ x, e.fix id (.paint slot c) = ⟨(e.paintStyleFor c).1, .error x⟩) ∨
      ∃ e', (e.paintStyleFor c).1.bindPaintStyle id slot (e.paintStyleFor c).2.id = .ok e' ∧
        e.fix id (.paint slot c) = ⟨e', .ok (some (e.paintStyleFor c).2.name)⟩ := by
  rw [fix]
  dsimp only
  split
  · next e' hbind => exact .inr ⟨e', hbind, rfl⟩
  · next x _ => exact .inl ⟨x, rfl⟩

theorem fix_text_cases (e : Editor) (id family : String) (size : Float) :
    (∃ style, e.fix id (.text family size) = ⟨e, style⟩) ∨
      ∃ (s : Style) (e' : Editor), e.bindTextStyle id s.id = .ok e' ∧
        e.fix id (.text family size) = ⟨e', .ok (some s.name)⟩ := by
  rw [fix]
  split
  · exact .inl ⟨_, rfl⟩
  · next s _ =>
    split
    · next e' hbind => exact .inr ⟨s, e', hbind, rfl⟩
    · exact .inl ⟨_, rfl⟩

theorem styles_fix_paint (e : Editor) (id : String) (slot : PaintSlot) (c : Color) :
    (e.fix id (.paint slot c)).editor.document.styles = (e.paintStyleFor c).1.document.styles := by
  obtain ⟨x, hfix⟩ | ⟨e', hbind, hfix⟩ := e.fix_paint_cases id slot c <;> rw [hfix]
  obtain ⟨n, paints, color, -, -, -, rfl⟩ := bindPaintStyle_ok hbind
  rfl

theorem styles_fix_text (e : Editor) (id family : String) (size : Float) :
    (e.fix id (.text family size)).editor.document.styles = e.document.styles := by
  obtain ⟨style, hfix⟩ | ⟨s, e', hbind, hfix⟩ := e.fix_text_cases id family size <;> rw [hfix]
  obtain ⟨n, -, -, -, rfl⟩ := bindTextStyle_ok hbind
  rfl

theorem fix_paint (hd : e.document.Distinct) (id : String) (slot : PaintSlot) (c : Color) :
    ∃ style c', c'.same c ∧ (e.fix id (.paint slot c)).editor.document.nodes =
      Forest.map (fun a => if a.id = id then slot.restyle style c' a else a) e.document.nodes := by
  obtain ⟨hnodes, hmem, hcolor⟩ := e.paintStyleFor_spec c
  have hd' := (e.paintStyleFor_drifts c).reaches.keeps (fun _ _ => Move.keeps_distinct) hd
  obtain ⟨c', hc', hsame⟩ := Style.paintColor?_of_hasColor hcolor
  have hstyle := Document.style?_of_mem hd'.styles hmem
  refine ⟨(e.paintStyleFor c).2.id, c', hsame, ?_⟩
  rw [fix, ← hnodes]
  dsimp only
  rw [bindPaintStyle, hstyle, Option.bind_some, hc']
  dsimp only
  split
  · next e' hbind =>
    refine nodes_change hd'.nodes (fun a b hab => ?_) hbind
    split at hab
    · cases hab
    · next paints hpaints =>
      rw [PaintSlot.restyle, hpaints]
      exact (Except.ok.inj hab).symm
  · next error hbind =>
    refine (nodes_change_error hd'.nodes (fun a x hab => ?_) hbind).symm
    split at hab
    · next hpaints => rw [PaintSlot.restyle, hpaints]
    · cases hab

theorem fix_text (hd : e.document.Distinct) (id family : String) (size : Float) :
    ∃ style : Attributes → Option String, (e.fix id (.text family size)).editor.document.nodes =
      Forest.map (fun a => if a.id = id then { a with textStyle := style a } else a) e.document.nodes := by
  have hself : Forest.map (fun a => if a.id = id then { a with textStyle := a.textStyle } else a) e.document.nodes =
      e.document.nodes := Forest.map_eq_self fun a _ => ite_self a
  obtain ⟨r, hfix⟩ | ⟨s, e', hbind, hfix⟩ := e.fix_text_cases id family size
  · rw [hfix]
    exact ⟨Attributes.textStyle, hself.symm⟩
  · rw [hfix]
    obtain ⟨n, hn, -, -, rfl⟩ := bindTextStyle_ok hbind
    exact ⟨fun _ => some s.id, Document.nodes_setAttributes_label hd.nodes hn fun a => { a with textStyle := some s.id }⟩

end Editor

end DesignCanvas
