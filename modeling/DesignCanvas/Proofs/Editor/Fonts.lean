import DesignCanvas.Proofs.Document.Registered
import DesignCanvas.Proofs.Editor.Writing

/-!
# Texts and their fonts

Only fonts whose family is available are ever loaded (`Editor.Move.keeps_fonts`), and a text is only written when all of
its fonts are loaded. So quiet moves keep what the nodes say, but for texts whose fonts can all be loaded
(`Editor.Drifts.keepsText`).
-/

namespace DesignCanvas

theorem Document.loads_iff {d : Document} {a : Attributes} :
    d.loads a ↔ ∀ f ∈ a.requiredFonts, f.family ∉ d.unavailableFonts := by
  simp [loads]

/-- A node after changes that write no text whose fonts cannot all be loaded: it has the kind and the font from before,
and it has the text and the size from before too unless it is a text whose fonts can all be loaded. -/
structure Attributes.KeepsText (d : Document) (before after : Attributes) : Prop where
  id : after.id = before.id
  kind : after.kind = before.kind
  fontName : after.fontName = before.fontName
  text : (after.characters = before.characters ∧ after.fontSize = before.fontSize) ∨
    (before.kind = .text ∧ d.loads before)

namespace Attributes.KeepsText

variable {d d' : Document} {a b c : Attributes}

theorem refl (a : Attributes) : a.KeepsText d a :=
  ⟨rfl, rfl, rfl, .inl ⟨rfl, rfl⟩⟩

theorem trans (h : a.KeepsText d b) (h' : b.KeepsText d c) : a.KeepsText d c where
  id := h'.id.trans h.id
  kind := h'.kind.trans h.kind
  fontName := h'.fontName.trans h.fontName
  text := by
    rcases h.text with ⟨hcharacters, hsize⟩ | hwritable
    · rcases h'.text with ⟨hcharacters', hsize'⟩ | ⟨htext, hloads⟩
      · exact .inl ⟨hcharacters'.trans hcharacters, hsize'.trans hsize⟩
      · -- which fonts a text needs only hangs on its font name
        rw [Document.loads, requiredFonts, h.fontName] at hloads
        exact .inr ⟨h.kind.symm.trans htext, hloads⟩
    · exact .inr hwritable

theorem congr (h : a.KeepsText d b) (hfonts : d'.unavailableFonts = d.unavailableFonts) : a.KeepsText d' b where
  id := h.id
  kind := h.kind
  fontName := h.fontName
  text := h.text.imp_right fun ⟨htext, hloads⟩ => ⟨htext, by rwa [Document.loads, hfonts]⟩

end Attributes.KeepsText

namespace Editor

variable {e e' : Editor} {a : Attributes}

/-- The families of all loaded fonts are available. -/
def LoadsAvailable (e : Editor) : Prop :=
  ∀ f ∈ e.loadedFonts, f.family ∉ e.document.unavailableFonts

theorem loadsAvailable_opening (d : Document) : (opening d).LoadsAvailable :=
  fun _ hf => absurd hf List.not_mem_nil

theorem Move.keeps_fonts (h : Move e e') (hfonts : e.LoadsAvailable) : e'.LoadsAvailable := by
  unfold LoadsAvailable
  rw [h.extends.unavailableFonts]
  cases h with
  | select | edit | addPaintStyle => exact hfonts
  | loadFont _ font h =>
    obtain ⟨hfont, rfl⟩ := loadFont_ok h
    intro f hf
    dsimp only at hf
    split at hf
    · exact hfonts f hf
    · rcases List.mem_cons.1 hf with rfl | hf
      · exact hfont
      · exact hfonts f hf
  | copy id _ new h =>
    obtain ⟨n, nodes, -, -, rfl, -⟩ := copyNode_ok h
    exact hfonts
  | remove id _ h =>
    obtain ⟨nodes, -, rfl⟩ := removeNode_ok h
    exact hfonts
  | addImage bytes _ hash h =>
    obtain ⟨-, rfl⟩ := addImage_ok h
    exact hfonts

theorem loads_of_loaded (hfonts : e.LoadsAvailable) (h : ∀ f ∈ a.requiredFonts, f ∈ e.loadedFonts) :
    e.document.loads a :=
  Document.loads_iff.2 fun f hf => hfonts f (h f hf)

end Editor

theorem Attributes.Edit.keepsText {e : Editor} {a b : Attributes} (h : Attributes.Edit e a b)
    (hfonts : e.LoadsAvailable) : a.KeepsText e.document b := by
  cases h with
  | characters text kind loaded => exact ⟨rfl, rfl, rfl, .inr ⟨kind, Editor.loads_of_loaded hfonts loaded⟩⟩
  | fontSize size kind loaded => exact ⟨rfl, rfl, rfl, .inr ⟨kind, Editor.loads_of_loaded hfonts loaded⟩⟩
  | paintStyle slot =>
    cases slot with
    | fill | stroke => exact ⟨rfl, rfl, rfl, .inl ⟨rfl, rfl⟩⟩
  | name | visible | position | extent | opacity | cornerRadius | fills | textStyle =>
    exact ⟨rfl, rfl, rfl, .inl ⟨rfl, rfl⟩⟩

namespace Editor

variable {e e' : Editor} {a : Attributes}

/-- After a quiet move every node is still there, and its text is only another one if its fonts are loaded. -/
theorem QuietMove.keepsText (h : QuietMove e e') (hfonts : e.LoadsAvailable) (ha : a ∈ e.document.attributes) :
    ∃ b ∈ e'.document.attributes, a.KeepsText e.document b := by
  cases h with
  | edit id n c hn hc =>
    obtain ⟨l₁, l₂, hl, -, hl'⟩ := Document.attributes_setAttributes hn c
    rw [hl] at ha
    rw [hl']
    rcases List.mem_append.1 ha with ha | ha
    · exact ⟨a, List.mem_append_left _ ha, .refl a⟩
    · rcases List.mem_cons.1 ha with rfl | ha
      · exact ⟨c, by simp, hc.keepsText hfonts⟩
      · exact ⟨a, by simp [ha], .refl a⟩
  | loadFont _ font h =>
    obtain ⟨-, rfl⟩ := loadFont_ok h
    exact ⟨a, ha, .refl a⟩
  | addImage bytes _ hash h =>
    obtain ⟨-, rfl⟩ := addImage_ok h
    exact ⟨a, ha, .refl a⟩
  | addPaintStyle name color => exact ⟨a, ha, .refl a⟩

theorem Drifts.keepsText (h : Drifts e e') (hfonts : e.LoadsAvailable) (ha : a ∈ e.document.attributes) :
    ∃ b ∈ e'.document.attributes, a.KeepsText e.document b := by
  induction h with
  | refl => exact ⟨a, ha, .refl a⟩
  | @tail e₁ e₂ hdrifts hm ih =>
    obtain ⟨b, hb, hkept⟩ := ih
    have hreaches : Reaches e e₁ := Drifts.reaches hdrifts
    have hfonts₁ : e₁.LoadsAvailable := hreaches.keeps (fun _ _ => Move.keeps_fonts) hfonts
    obtain ⟨c, hc, hkept'⟩ := hm.keepsText hfonts₁ hb
    exact ⟨c, hc, hkept.trans (hkept'.congr hreaches.extends.unavailableFonts.symm)⟩

end Editor

end DesignCanvas
