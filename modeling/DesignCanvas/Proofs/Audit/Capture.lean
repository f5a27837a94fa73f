import DesignCanvas.Proofs.Audit.Completion

/-!
# Slots that an audit does not write

An audit of paint styles that puts right what it finds writes the slots with loose paints of the nodes that it comes to
(`Editor.mem_written_audit`) and no others (`Editor.styleAt?_fixAll`). The styles that it makes get the next free numbers
(`Editor.audit_numbered`), but an id with such a number may stand in a slot already. So a slot that is not written looks
up to the same style as before unless it has an id with one of these numbers (`Editor.capturesNone_iff`).
-/

namespace DesignCanvas

/-! ## Slots and what they look up to -/

/-- What a node can be bound to a style with. -/
inductive StyleSlot where
  | paint (slot : PaintSlot)
  | text
  deriving DecidableEq, Repr

def StyleSlot.style? : StyleSlot → Attributes → Option String
  | .paint slot, a => slot.style? a
  | .text, a => a.textStyle

def Fix.slot : Fix → StyleSlot
  | .paint slot _ => .paint slot
  | .text .. => .text

/-- The fix bound its slot to a style. -/
def Fixed.binds (f : Fixed) : Bool :=
  match f.style with
  | .ok (some _) => true
  | _ => false

namespace Document

/-- The id of the style in a slot of the node at a position. -/
def styleAt? (d : Document) (p : Nat × StyleSlot) : Option String :=
  d.attributes[p.1]?.bind p.2.style?

/-- The style that a slot of the node at a position looks up to. -/
def lookUp? (d : Document) (p : Nat × StyleSlot) : Option Style :=
  (d.styleAt? p).bind d.style?

def position (d : Document) (id : String) : Nat :=
  d.attributes.findIdx (Attributes.hasId id)

end Document

namespace Editor

/-- The slot that a fix writes, with the position of its node. -/
def written? (e : Editor) (id : String) (f : Fix) : Option (Nat × StyleSlot) :=
  if (e.fix id f).binds then some (e.document.position id, f.slot) else none

/-- The slots that fixes write when they are carried out one after another. -/
def written (e : Editor) : List (String × Fix) → List (Nat × StyleSlot)
  | [] => []
  | (id, f) :: plan => (e.written? id f).toList ++ (e.fix id f).editor.written plan

/-- An audit of paint styles that puts right what it finds leaves every slot that it does not write with the style
that it looked up to before, or with none if there was none. -/
def CapturesNone (e : Editor) : Prop :=
  ∀ p ∉ e.written (e.document.plan .styles), (e.audit .styles true).editor.document.lookUp? p = e.document.lookUp? p

end Editor

/-! ## Slots that are not written -/

namespace Document

variable {d : Document} {id : String} {n : Node} {p : Nat × StyleSlot}

theorem styleAt?_setAttributes (hn : d.find? id = some n) {a : Attributes}
    (ha : p.1 = d.position id → p.2.style? a = p.2.style? n.label) :
    (d.setAttributes id a).styleAt? p = d.styleAt? p := by
  obtain ⟨l₁, l₂, hl, hl₁, hl'⟩ := attributes_setAttributes hn a
  have hposition : d.position id = l₁.length := by
    have hid : Attributes.hasId id n.label := Forest.label_of_find? hn
    have hnone : l₁.findIdx (Attributes.hasId id) = l₁.length :=
      List.findIdx_eq_length.2 fun b hb => beq_eq_false_iff_ne.2 (hl₁ b hb)
    simp [position, hl, List.findIdx_append, hnone, List.findIdx_cons, hid]
  rw [hposition] at ha
  rw [styleAt?, styleAt?, hl, hl', List.getElem?_append, List.getElem?_append]
  split
  · rfl
  · rw [List.getElem?_cons, List.getElem?_cons]
    split
    · next hge hzero => exact ha (by omega)
    · rfl

end Document

namespace Editor

variable {e e' : Editor} {id style : String} {p : Nat × StyleSlot}

theorem styleAt?_bindPaintStyle {slot : PaintSlot} (h : e.bindPaintStyle id slot style = .ok e')
    (hp : p ≠ (e.document.position id, .paint slot)) : e'.document.styleAt? p = e.document.styleAt? p := by
  obtain ⟨n, paints, color, hn, -, -, rfl⟩ := bindPaintStyle_ok h
  refine Document.styleAt?_setAttributes hn fun hposition => ?_
  obtain ⟨i, s⟩ := p
  cases s with
  | paint slot' =>
    refine (PaintSlot.style?_bind _).trans (if_neg ?_)
    rintro rfl
    exact hp (congrArg (·, StyleSlot.paint slot') hposition)
  | text => cases slot <;> rfl

theorem styleAt?_bindTextStyle (h : e.bindTextStyle id style = .ok e')
    (hp : p ≠ (e.document.position id, .text)) : e'.document.styleAt? p = e.document.styleAt? p := by
  obtain ⟨n, hn, -, -, rfl⟩ := bindTextStyle_ok h
  refine Document.styleAt?_setAttributes hn fun hposition => ?_
  obtain ⟨i, s⟩ := p
  cases s with
  | paint slot => cases slot <;> rfl
  | text => exact absurd (congrArg (·, StyleSlot.text) hposition) hp

theorem styleAt?_fix {f : Fix} (hp : p ∉ e.written? id f) :
    (e.fix id f).editor.document.styleAt? p = e.document.styleAt? p := by
  have hne : (e.fix id f).binds → p ≠ (e.document.position id, f.slot) := by
    rintro hbinds rfl
    exact hp (if_pos hbinds)
  cases f with
  | paint slot c =>
    obtain ⟨hnodes, -⟩ := e.paintStyleFor_spec c
    have hattributes : (e.paintStyleFor c).1.document.attributes = e.document.attributes := congrArg Forest.labels hnodes
    have hstyle : (e.paintStyleFor c).1.document.styleAt? p = e.document.styleAt? p := by
      rw [Document.styleAt?, Document.styleAt?, hattributes]
    obtain ⟨x, hfix⟩ | ⟨e', hbind, hfix⟩ := e.fix_paint_cases id slot c
    · rw [hfix]
      exact hstyle
    · rw [hfix] at hne ⊢
      rw [← hstyle]
      refine styleAt?_bindPaintStyle hbind ?_
      rw [Document.position, hattributes]
      exact hne rfl
  | text family size =>
    obtain ⟨style, hfix⟩ | ⟨s, e', hbind, hfix⟩ := e.fix_text_cases id family size
    · rw [hfix]
    · rw [hfix] at hne ⊢
      exact styleAt?_bindTextStyle hbind (hne rfl)

/-- Fixes change no slots but those that they write. -/
theorem styleAt?_fixAll {plan : List (String × Fix)} (hp : p ∉ e.written plan) :
    (e.fixAll plan).document.styleAt? p = e.document.styleAt? p := by
  induction plan generalizing e with
  | nil => rfl
  | cons q plan ih =>
    rw [written, List.mem_append, not_or, Option.mem_toList] at hp
    rw [fixAll, ih hp.2, styleAt?_fix hp.1]

end Editor

/-! ## Slots that are written -/

theorem Document.Mended.position_eq {d d' : Document} {plan : List (String × Fix)} (h : d.Mended d' plan) (id : String) :
    d'.position id = d.position id := by
  obtain ⟨g, hnodes, heased, -⟩ := h.nodes
  have hid : Attributes.hasId id ∘ g = Attributes.hasId id := by
    funext a
    rw [Function.comp_apply, Attributes.hasId, (heased a).id]
    rfl
  rw [position, attributes, hnodes, Forest.labels_map, List.findIdx_map, hid]
  rfl

namespace Editor

variable {e : Editor} {p : Nat × StyleSlot}

theorem mem_written (hd : e.document.Distinct) {plan : List (String × Fix)} (hfits : ∀ q ∈ plan, e.document.Fits q)
    (hserves : ∀ q ∈ plan, e.document.serves q.2) :
    p ∈ e.written plan ↔ ∃ q ∈ plan, p = (e.document.position q.1, q.2.slot) := by
  induction plan generalizing e with
  | nil => simp [written]
  | cons q plan ih =>
    obtain ⟨hq, hplan⟩ := List.forall_mem_cons.1 hfits
    obtain ⟨hserved, hrest⟩ := List.forall_mem_cons.1 hserves
    obtain ⟨⟨style, hstyle, hsome⟩, hmended⟩ := fix_mended hd hq
    have hwritten : e.written? q.1 q.2 = some (e.document.position q.1, q.2.slot) := by
      obtain ⟨name, rfl⟩ := Option.isSome_iff_exists.1 (hsome.trans hserved)
      rw [written?, Fixed.binds, hstyle]
      rfl
    have hfollowing := ih (fix_distinct hd q.1 q.2) (fun r hr => hmended.fits (hplan r hr))
      (fun r hr => hmended.serves ▸ hrest r hr)
    rw [written, hwritten, Option.toList_some, List.singleton_append, List.mem_cons, hfollowing, List.exists_mem_cons_iff]
    simp only [hmended.position_eq]

theorem mem_written_audit (hd : e.document.Distinct) : p ∈ e.written (e.document.plan .styles) ↔
    ∃ n ∈ e.document.roots.flatMap Tree.all, ∃ (slot : PaintSlot) (c : Color),
      slot.state n.label = .loose c ∧ p = (e.document.position n.id, .paint slot) := by
  rw [mem_written hd (e.document.plan_fits .styles) fun q => Document.serves_of_mem_plan_styles e.document]
  constructor
  · rintro ⟨⟨id, f⟩, hq, rfl⟩
    obtain ⟨n, hn, rfl, slot, c, hstate, rfl⟩ := Document.mem_paintPlan.1 hq
    exact ⟨n, hn, slot, c, hstate, rfl⟩
  · rintro ⟨n, hn, slot, c, hstate, rfl⟩
    exact ⟨(n.id, .paint slot c), Document.mem_paintPlan.2 ⟨n, hn, rfl, slot, c, hstate, rfl⟩, rfl⟩

end Editor

/-! ## Ids of new styles -/

/-- Styles were added that have the ids with the next `k` numbers. -/
def Style.Numbered (styles styles' : List Style) (k : Nat) : Prop :=
  ∃ added : List Style, styles' = styles ++ added ∧ added.length = k ∧
    ∀ id, id ∈ added.map Style.id ↔ ∃ n, id = styleId n ∧ Upcoming styles k n

theorem Style.numbered_self (styles : List Style) : Numbered styles styles 0 := by
  refine ⟨[], (List.append_nil _).symm, rfl, fun id => iff_of_false List.not_mem_nil ?_⟩
  rintro ⟨n, -, -, hlt⟩
  exact Nat.not_lt_zero _ hlt

theorem Style.Numbered.length_eq {styles styles' : List Style} {k : Nat} (h : Numbered styles styles' k) :
    styles'.length = styles.length + k := by
  obtain ⟨added, rfl, rfl, -⟩ := h
  exact List.length_append

namespace Editor

variable {e : Editor} {styles : List Style} {k : Nat}

theorem numbered_addPaintStyle {name : String} {c : Color}
    (h : Style.Numbered (e.addPaintStyle name c).1.document.styles styles k) :
    Style.Numbered e.document.styles styles (k + 1) := by
  obtain ⟨added, hstyles, hlength, hids⟩ := h
  refine ⟨(e.addPaintStyle name c).2 :: added, ?_, by rw [List.length_cons, hlength], fun id => ?_⟩
  · rw [hstyles, styles_addPaintStyle, List.append_assoc, List.singleton_append]
  · rw [List.map_cons, List.mem_cons, id_addPaintStyle, hids]
    simp only [upcoming_addPaintStyle name c, and_or_left, exists_or, exists_eq_right]

theorem numbered_paintStyleFor {c : Color}
    (h : Style.Numbered (e.paintStyleFor c).1.document.styles styles k) :
    ∃ k', Style.Numbered e.document.styles styles k' := by
  unfold paintStyleFor at h
  split at h
  · exact ⟨k, h⟩
  · exact ⟨k + 1, numbered_addPaintStyle h⟩

/-- The styles that fixes make have the ids with the next numbers. -/
theorem fixAll_numbered (e : Editor) (plan : List (String × Fix)) :
    ∃ k, Style.Numbered e.document.styles (e.fixAll plan).document.styles k := by
  induction plan generalizing e with
  | nil => exact ⟨0, Style.numbered_self _⟩
  | cons p plan ih =>
    obtain ⟨id, f⟩ := p
    obtain ⟨k, h⟩ := ih (e.fix id f).editor
    cases f with
    | paint slot c =>
      rw [styles_fix_paint] at h
      exact numbered_paintStyleFor h
    | text family size =>
      rw [styles_fix_text] at h
      exact ⟨k, h⟩

/-- An audit makes as many styles as colours are missing, with the ids of the next numbers. -/
theorem audit_numbered (e : Editor) :
    Style.Numbered e.document.styles (e.audit .styles true).editor.document.styles
      (e.document.missing.map Color.toHex).dedup.length := by
  obtain ⟨k, h⟩ := e.fixAll_numbered (e.document.plan .styles)
  rw [← audit_editor] at h
  have hlength := h.length_eq
  rw [styles_added, Nat.add_left_cancel_iff] at hlength
  rwa [hlength]

end Editor

theorem Document.style?_eq_iff {d d' : Document} {k : Nat} (h : Style.Numbered d.styles d'.styles k) (id : String) :
    d'.style? id = d.style? id ↔ ∀ n, id = styleId n → ¬ Style.Upcoming d.styles k n := by
  obtain ⟨added, hstyles, -, hids⟩ := h
  have happend : d'.style? id = (d.style? id).or (added.find? fun s => s.id == id) := by
    rw [style?, hstyles, List.find?_append]
    rfl
  rw [happend]
  constructor
  · rintro hsame n rfl hupcoming
    -- the new style with the number is found, where none was
    have hnone : d.style? (styleId n) = none := by simpa [style?] using hupcoming.1.2
    rw [hnone, Option.none_or, List.find?_eq_none] at hsame
    obtain ⟨s, hs, hid⟩ := List.mem_map.1 ((hids _).2 ⟨n, rfl, hupcoming⟩)
    exact hsame s hs (beq_iff_eq.2 hid)
  · intro hnot
    have hnew : added.find? (fun s => s.id == id) = none := by
      refine List.find?_eq_none.2 fun s hs hid => ?_
      obtain ⟨n, hn, hupcoming⟩ := (hids id).1 (beq_iff_eq.1 hid ▸ List.mem_map_of_mem hs)
      exact hnot n hn hupcoming
    rw [hnew, Option.or_none]

namespace Editor

/-- An audit captures a slot that it does not write just if the slot has the id of a style that it makes. -/
theorem capturesNone_iff (e : Editor) : e.CapturesNone ↔
    ∀ p ∉ e.written (e.document.plan .styles), ∀ n, e.document.styleAt? p = some (styleId n) →
      ¬ Style.Upcoming e.document.styles (e.document.missing.map Color.toHex).dedup.length n := by
  refine forall₂_congr fun p hp => ?_
  have hstyle : (e.audit .styles true).editor.document.styleAt? p = e.document.styleAt? p := by
    rw [audit_editor]
    exact styleAt?_fixAll hp
  rw [Document.lookUp?, Document.lookUp?, hstyle]
  cases e.document.styleAt? p with
  | none => simp
  | some id => simp [Document.style?_eq_iff e.audit_numbered]

end Editor

/-- A selected rectangle with a loose fill, and one that is not selected with a style that is not there. -/
def Document.astray (style : String) : Document where
  nodes := [
    .leaf { Attributes.bare "1:1" "Card" .rectangle with fills := some [.solid ⟨1.0, 1.0, 1.0⟩ 1.0 true none] },
    .leaf { Attributes.bare "1:2" "Badge" .rectangle with
      fills := some [.solid ⟨0.0, 0.0, 0.0⟩ 1.0 true none], fillStyle := some style }]
  selection := ["1:1"]
  styles := []
  unavailableFonts := []
  images := .empty

theorem Document.eq_of_styleAt?_astray {style id : String} {p : Nat × StyleSlot}
    (h : (astray style).styleAt? p = some id) : id = style := by
  obtain ⟨a, ha, hstyle⟩ := Option.bind_eq_some_iff.1 h
  have hmem : a ∈ (astray style).attributes := List.mem_of_getElem? ha
  obtain ⟨i, slot⟩ := p
  obtain rfl | rfl := List.mem_pair.1 hmem
  · obtain (_ | _) | _ := slot <;> cases hstyle
  · obtain (_ | _) | _ := slot <;> cases hstyle
    rfl

namespace Editor

/-- The style that is made gets the number one. -/
theorem capturesNone_astray : (opening (.astray "S:2")).CapturesNone := by
  refine (capturesNone_iff _).2 fun p _ n hn hupcoming => ?_
  have hid : styleId n = styleId 2 := Document.eq_of_styleAt?_astray hn
  obtain rfl := styleId_inj.1 hid
  exact absurd hupcoming.2 (by decide +kernel)

/-- Before the audit the rectangle has no style, and afterwards it has the one that was made for the other one. -/
theorem not_capturesNone_astray :
    let e := opening (.astray "S:1")
    let p := (1, StyleSlot.paint .fill)
    (e.document.styles.map Style.id).Nodup ∧ ¬ e.CapturesNone ∧ p ∉ e.written (e.document.plan .styles) ∧
      e.document.lookUp? p = none ∧
      (e.audit .styles true).editor.document.lookUp? p =
        some ⟨"S:1", "color/ffffff", .paint, some ⟨1.0, 1.0, 1.0⟩, none, none⟩ := by
  intro e p
  have hwritten : p ∉ e.written (e.document.plan .styles) := by decide +kernel
  have hbefore : e.document.lookUp? p = none := by decide +kernel
  have hafter : (e.audit .styles true).editor.document.lookUp? p =
      some ⟨"S:1", "color/ffffff", .paint, some ⟨1.0, 1.0, 1.0⟩, none, none⟩ := by decide +kernel
  refine ⟨by decide, fun h => ?_, hwritten, hbefore, hafter⟩
  have hsame := h p hwritten
  rw [hbefore, hafter] at hsame
  cases hsame

end Editor

end DesignCanvas
