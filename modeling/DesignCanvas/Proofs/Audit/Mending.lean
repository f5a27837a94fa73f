import DesignCanvas.Proofs.Audit.Colors

/-!
# What fixes mend

A fix that is for a node never fails, and it finds a style unless it is for a text whose font no text style has
(`Editor.fix_mended`). It leaves no node with more to put right than before, and what it was for is put right if it
found a style. This is a relation between documents (`Document.Mended`) that holds after one fix and after any number
of them (`Editor.fixAll_mended`).
-/

namespace DesignCanvas

/-! ## What there is to put right -/

/-- The node has what a fix changes. -/
def Fix.suits : Fix → Attributes → Bool
  | .paint slot _, a => (slot.paints? a).isSome
  | .text .., a => a.kind == .text

/-- The style for a fix is there or is made if it is not; only paint styles are made. -/
def Document.serves (d : Document) : Fix → Bool
  | .paint .. => true
  | .text family size => d.styles.any (Style.hasFont family size)

/-- The fixes that an audit asks for at a node that it comes to. -/
def Attributes.fixes (a : Attributes) : AuditKind → List Fix
  | .components => []
  | .styles => [PaintSlot.fill, .stroke].filterMap fun s => s.fix? a
  | .textStyles => if a.kind = .text ∧ a.textStyle = none then a.textFix?.toList else []

/-- The second node is the first one for every walk and has no more to put right. -/
structure Attributes.Eased (a b : Attributes) : Prop where
  id : b.id = a.id
  kind : b.kind = a.kind
  suits : ∀ f : Fix, f.suits a → f.suits b
  fixes : ∀ kind, b.fixes kind ⊆ a.fixes kind

namespace Attributes

variable {a b c : Attributes} {f : Fix} {kind : AuditKind}

theorem Eased.refl (a : Attributes) : a.Eased a :=
  ⟨rfl, rfl, fun _ h => h, fun _ => List.Subset.refl _⟩

theorem Eased.trans (h : a.Eased b) (h' : b.Eased c) : a.Eased c where
  id := h'.id.trans h.id
  kind := h'.kind.trans h.kind
  suits f hf := h'.suits f (h.suits f hf)
  fixes kind := List.Subset.trans (h'.fixes kind) (h.fixes kind)

theorem mem_fixes_styles : f ∈ a.fixes .styles ↔ ∃ slot c, PaintSlot.state slot a = .loose c ∧ f = .paint slot c := by
  rw [fixes, List.mem_filterMap]
  constructor
  · rintro ⟨slot, -, hfix⟩
    exact ⟨slot, PaintSlot.fix?_eq_some.1 hfix⟩
  · rintro ⟨slot, c, hstate, rfl⟩
    exact ⟨slot, by cases slot <;> simp, PaintSlot.fix?_eq_some.2 ⟨c, hstate, rfl⟩⟩

theorem mem_fixes_textStyles : f ∈ a.fixes .textStyles ↔
    a.kind = .text ∧ a.textStyle = none ∧ ∃ family size, a.fontFamily? = some family ∧ a.fontSize = some size ∧
      f = .text family size := by
  unfold fixes textFix?
  dsimp only
  split
  · next h =>
    cases a.fontFamily? <;> cases a.fontSize <;> simp [h]
  · next h =>
    refine iff_of_false List.not_mem_nil ?_
    rintro ⟨hkind, hstyle, -⟩
    exact h ⟨hkind, hstyle⟩

theorem suits_of_mem_fixes (h : f ∈ a.fixes kind) : f.suits a := by
  cases kind with
  | components => exact absurd h List.not_mem_nil
  | styles =>
    obtain ⟨slot, c, hstate, rfl⟩ := mem_fixes_styles.1 h
    cases hpaints : slot.paints? a with
    | none => simp [PaintSlot.state, hpaints] at hstate
    | some paints => simp [Fix.suits, hpaints]
  | textStyles =>
    obtain ⟨hkind, -, family, size, -, -, rfl⟩ := mem_fixes_textStyles.1 h
    simp [Fix.suits, hkind]

end Attributes

/-! ## A bound slot and a styled text -/

namespace PaintSlot

variable {slot slot' : PaintSlot} {style : String} {c : Color} {a : Attributes}

theorem state_restyle (slot : PaintSlot) (style : String) (c c' : Color) (a : Attributes) :
    slot.state (slot.restyle style c a) ≠ .loose c' := by
  unfold state
  cases hpaints : slot.paints? a with
  | none => simp [restyle, hpaints]
  | some paints =>
    have hstyle : slot.style? (slot.restyle style c a) = some style := by
      rw [restyle, hpaints]
      dsimp only
      rw [style?_bind, if_pos rfl]
    rw [hstyle]
    cases ((slot.paints? (slot.restyle style c a)).getD []).filterMap Paint.visibleSolid? <;> simp

theorem eased_restyle (slot : PaintSlot) (style : String) (c : Color) (a : Attributes) :
    a.Eased (slot.restyle style c a) := by
  cases hpaints : slot.paints? a with
  | none =>
    rw [restyle, hpaints]
    exact .refl a
  | some paints =>
    have hbind : slot.restyle style c a = slot.bind (paints.map (Paint.recolor c)) style a := by rw [restyle, hpaints]
    refine ⟨id_restyle, ?_, fun f hf => ?_, fun kind f hf => ?_⟩
    · rw [hbind]
      cases slot <;> rfl
    · cases f with
      | paint slot' c' =>
        rw [hbind, Fix.suits, paints?_bind]
        split
        · rfl
        · exact hf
      | text family size =>
        rw [hbind]
        cases slot <;> exact hf
    · cases kind with
      | components => exact hf
      | styles =>
        obtain ⟨slot', c', hstate, rfl⟩ := Attributes.mem_fixes_styles.1 hf
        have hslot : slot' ≠ slot := fun h => state_restyle slot style c c' a (h ▸ hstate)
        rw [hbind, state, paints?_bind, style?_bind, if_neg hslot, if_neg hslot] at hstate
        exact Attributes.mem_fixes_styles.2 ⟨slot', c', hstate, rfl⟩
      | textStyles =>
        rw [hbind] at hf
        cases slot <;> exact hf

end PaintSlot

theorem Attributes.eased_textStyle (a : Attributes) (style : String) : a.Eased { a with textStyle := some style } := by
  refine ⟨rfl, rfl, fun f hf => ?_, fun kind f hf => ?_⟩
  · cases f with
    | paint slot c => cases slot <;> exact hf
    | text family size => exact hf
  · cases kind with
    | components => exact hf
    | styles => exact hf
    | textStyles =>
      obtain ⟨-, hstyle, -⟩ := mem_fixes_textStyles.1 hf
      cases hstyle

/-! ## One fix -/

/-- Fixes were carried out: no node has more to put right than before, the same nodes are selected, the same fixes can
be served, and what was served is put right. -/
structure Document.Mended (d d' : Document) (plan : List (String × Fix)) : Prop where
  nodes : ∃ g : Attributes → Attributes, d'.nodes = Forest.map g d.nodes ∧ (∀ a, Attributes.Eased a (g a)) ∧
    ∀ (a : Attributes) (f : Fix), (a.id, f) ∈ plan → d.serves f → ∀ kind, f ∉ (g a).fixes kind
  selection : d'.selection = d.selection
  serves : d'.serves = d.serves

/-- A fix is for a node that has what it changes. -/
def Document.Fits (d : Document) (p : String × Fix) : Prop :=
  ∃ a ∈ d.attributes, a.id = p.1 ∧ p.2.suits a

namespace Editor

variable {e : Editor} {a : Attributes}

theorem paintStyleFor_selection (e : Editor) (c : Color) :
    (e.paintStyleFor c).1.document.selection = e.document.selection := by
  unfold paintStyleFor
  split <;> rfl

theorem paintStyleFor_serves (e : Editor) (c : Color) :
    (e.paintStyleFor c).1.document.serves = e.document.serves := by
  funext f
  cases f with
  | paint slot c' => rfl
  | text family size =>
    unfold paintStyleFor
    split
    · rfl
    · simp [addPaintStyle, Document.serves, Style.hasFont]

theorem fix_paint_eq (hd : e.document.Distinct) (ha : a ∈ e.document.attributes) (slot : PaintSlot) (c : Color)
    (hpaints : (slot.paints? a).isSome) :
    ∃ style c', e.fix a.id (.paint slot c) =
      ⟨{ (e.paintStyleFor c).1 with document := { (e.paintStyleFor c).1.document with
          nodes := Forest.map (fun b => if b.id = a.id then slot.restyle style c' b else b) e.document.nodes } },
        .ok (some (e.paintStyleFor c).2.name)⟩ := by
  obtain ⟨hnodes, hmem, hcolor⟩ := e.paintStyleFor_spec c
  have hd' := (e.paintStyleFor_drifts c).reaches.keeps (fun _ _ => Move.keeps_distinct) hd
  obtain ⟨c', hc', -⟩ := Style.paintColor?_of_hasColor hcolor
  have hstyle := Document.style?_of_mem hd'.styles hmem
  obtain ⟨paints, hpaints⟩ := Option.isSome_iff_exists.1 hpaints
  have ha' : a ∈ (e.paintStyleFor c).1.document.attributes := by
    rw [Document.attributes, hnodes]
    exact ha
  refine ⟨(e.paintStyleFor c).2.id, c', ?_⟩
  rw [fix]
  dsimp only
  rw [bindPaintStyle, hstyle, Option.bind_some, hc']
  dsimp only
  rw [change_eq_ok hd'.nodes ha' (f := slot.restyle (e.paintStyleFor c).2.id c')
    (by rw [hpaints, PaintSlot.restyle, hpaints]), hnodes]

theorem fix_text_eq (hd : e.document.Distinct) (ha : a ∈ e.document.attributes) (hkind : a.kind = .text)
    {family : String} {size : Float} {s : Style} (hs : e.document.styles.find? (Style.hasFont family size) = some s) :
    e.fix a.id (.text family size) =
      ⟨{ e with document := { e.document with
          nodes := Forest.map (fun b => if b.id = a.id then { b with textStyle := some s.id } else b)
            e.document.nodes } }, .ok (some s.name)⟩ := by
  have hstyle := Document.style?_of_mem hd.styles (List.mem_of_find?_eq_some hs)
  have hfont : s.kind == .text := by
    have h := List.find?_some hs
    rw [Style.hasFont, Bool.and_eq_true, Bool.and_eq_true] at h
    exact h.1.1
  rw [fix, hs]
  dsimp only
  rw [bindTextStyle, hstyle, if_pos (by simpa using hfont),
    change_eq_ok hd.nodes ha (f := fun b => { b with textStyle := some s.id }) (if_pos hkind)]

theorem fix_of_not_serves {f : Fix} (h : ¬ e.document.serves f) (id : String) : e.fix id f = ⟨e, .ok none⟩ := by
  cases f with
  | paint slot c => exact absurd rfl h
  | text family size =>
    have hnone : e.document.styles.find? (Style.hasFont family size) = none := by
      simpa [Document.serves] using h
    rw [fix, hnone]

/-- A fix that is for a node finds a style if it can be served, and mends the document. -/
theorem fix_mended (hd : e.document.Distinct) {id : String} {f : Fix} (hfits : e.document.Fits (id, f)) :
    (∃ style, (e.fix id f).style = .ok style ∧ style.isSome = e.document.serves f) ∧
      e.document.Mended (e.fix id f).editor.document [(id, f)] := by
  obtain ⟨a, ha, rfl, hsuits⟩ := hfits
  by_cases hserves : e.document.serves f
  · cases f with
    | paint slot c =>
      obtain ⟨style, c', heq⟩ := fix_paint_eq hd ha slot c hsuits
      rw [heq]
      refine ⟨⟨_, rfl, rfl⟩, ⟨_, rfl, fun b => ?_, fun b f hmem _ kind hf => ?_⟩, e.paintStyleFor_selection c,
        e.paintStyleFor_serves c⟩
      · split
        · exact PaintSlot.eased_restyle slot style c' b
        · exact .refl b
      · -- a fix of the same slot would need it to be loose, but it is bound now
        obtain ⟨hid, rfl⟩ := Prod.mk.inj (List.mem_singleton.1 hmem)
        rw [if_pos hid] at hf
        cases kind with
        | components => exact absurd hf List.not_mem_nil
        | styles =>
          obtain ⟨slot', c'', hstate, heq⟩ := Attributes.mem_fixes_styles.1 hf
          injection heq with hslot hc
          subst hslot
          exact PaintSlot.state_restyle slot style c' c'' b hstate
        | textStyles =>
          obtain ⟨-, -, family, size, -, -, heq⟩ := Attributes.mem_fixes_textStyles.1 hf
          cases heq
    | text family size =>
      obtain ⟨s, hs⟩ := Option.isSome_iff_exists.1 (List.find?_isSome.2 (List.any_eq_true.1 hserves))
      rw [fix_text_eq hd ha (beq_iff_eq.1 hsuits) hs]
      refine ⟨⟨_, rfl, hserves.symm⟩, ⟨_, rfl, fun b => ?_, fun b f hmem _ kind hf => ?_⟩, rfl, rfl⟩
      · split
        · exact b.eased_textStyle s.id
        · exact .refl b
      · -- the text has a style now
        obtain ⟨hid, rfl⟩ := Prod.mk.inj (List.mem_singleton.1 hmem)
        rw [if_pos hid] at hf
        cases kind with
        | components => exact absurd hf List.not_mem_nil
        | styles =>
          obtain ⟨slot, c, -, heq⟩ := Attributes.mem_fixes_styles.1 hf
          cases heq
        | textStyles =>
          obtain ⟨-, hstyle, -⟩ := Attributes.mem_fixes_textStyles.1 hf
          cases hstyle
  · rw [fix_of_not_serves hserves]
    refine ⟨⟨none, rfl, (Bool.eq_false_iff.2 hserves).symm⟩, ⟨id, ?_, .refl, fun b f hmem hf => ?_⟩, rfl, rfl⟩
    · exact (Forest.map_id' _).symm
    · obtain ⟨-, rfl⟩ := Prod.mk.inj (List.mem_singleton.1 hmem)
      exact absurd hf hserves

end Editor

/-! ## Many fixes -/

namespace Document.Mended

variable {d d₁ d₂ : Document} {plan plan' : List (String × Fix)}

theorem refl (d : Document) : d.Mended d [] :=
  ⟨⟨id, (Forest.map_id' _).symm, .refl, by simp⟩, rfl, rfl⟩

theorem trans (h : d.Mended d₁ plan) (h' : d₁.Mended d₂ plan') : d.Mended d₂ (plan ++ plan') := by
  obtain ⟨g, hnodes, heased, hgone⟩ := h.nodes
  obtain ⟨g', hnodes', heased', hgone'⟩ := h'.nodes
  refine ⟨⟨fun a => g' (g a), ?_, fun a => (heased a).trans (heased' _), fun a f hmem hserves kind hf => ?_⟩,
    h'.selection.trans h.selection, h'.serves.trans h.serves⟩
  · rw [hnodes', hnodes, Forest.map_map]
  · rcases List.mem_append.1 hmem with hmem | hmem
    · exact hgone a f hmem hserves kind ((heased' _).fixes kind hf)
    · refine hgone' (g a) f ?_ ?_ kind hf
      · rwa [(heased a).id]
      · rwa [h.serves]

theorem fits (h : d.Mended d₁ plan) {p : String × Fix} (hfits : d.Fits p) : d₁.Fits p := by
  obtain ⟨g, hnodes, heased, -⟩ := h.nodes
  obtain ⟨a, ha, hid, hsuits⟩ := hfits
  refine ⟨g a, ?_, (heased a).id.trans hid, (heased a).suits _ hsuits⟩
  rw [Document.attributes, hnodes, Forest.labels_map]
  exact List.mem_map_of_mem ha

end Document.Mended

namespace Editor

variable {e : Editor} {plan : List (String × Fix)}

theorem fix_distinct (hd : e.document.Distinct) (id : String) (f : Fix) : (e.fix id f).editor.document.Distinct :=
  (e.fix_drifts id f).reaches.keeps (fun _ _ => Move.keeps_distinct) hd

theorem fixAll_distinct (hd : e.document.Distinct) (plan : List (String × Fix)) :
    (e.fixAll plan).document.Distinct := by
  induction plan generalizing e with
  | nil => exact hd
  | cons p plan ih => exact ih (fix_distinct hd p.1 p.2)

theorem fixAll_mended (hd : e.document.Distinct) (hfits : ∀ p ∈ plan, e.document.Fits p) :
    e.document.Mended (e.fixAll plan).document plan := by
  induction plan generalizing e with
  | nil => exact .refl _
  | cons p plan ih =>
    obtain ⟨hp, hplan⟩ := List.forall_mem_cons.1 hfits
    have hstep := (fix_mended hd hp).2
    exact hstep.trans (ih (fix_distinct hd p.1 p.2) fun q hq => hstep.fits (hplan q hq))

theorem fixAll_eq_self (h : ∀ p ∈ plan, ¬ e.document.serves p.2) : e.fixAll plan = e := by
  induction plan with
  | nil => rfl
  | cons p plan ih =>
    obtain ⟨hp, hplan⟩ := List.forall_mem_cons.1 h
    rw [fixAll, fix_of_not_serves hp, ih hplan]

end Editor

end DesignCanvas
