import DesignCanvas.Proofs.Document.Distinct

/-!
# Registered pictures

The image of every picture in a document is registered, for fills and strokes alike. Every move of an editor keeps this
(`Editor.Move.keeps_registered`): fills only show images that were shown in their place before or are registered, a
copy shows what its original shows. And no move takes anything out of the registries (`Editor.Move.extends`), so what is
shown once stays known.
-/

namespace DesignCanvas

open Paint (hashes)

namespace Attributes

/-- The fingerprints of the images that a node shows. -/
def pictures (a : Attributes) : List String :=
  hashes (a.fills.getD [] ++ a.strokes.getD [])

theorem pictures_eq (a : Attributes) : a.pictures = hashes (a.fills.getD []) ++ hashes (a.strokes.getD []) :=
  List.filterMap_append

theorem pictures_bind {slot : PaintSlot} {a : Attributes} {paints : List Paint} (h : slot.paints? a = some paints)
    (c : Color) (style : String) : (slot.bind (paints.map (Paint.recolor c)) style a).pictures = a.pictures := by
  rw [pictures_eq, pictures_eq]
  cases slot with
  | fill =>
    rw [show a.fills = some paints from h]
    exact congrArg (· ++ _) (Paint.hashes_recolor c paints)
  | stroke =>
    rw [show a.strokes = some paints from h]
    exact congrArg (_ ++ ·) (Paint.hashes_recolor c paints)

theorem Edit.pictures {e : Editor} {a b : Attributes} (h : Edit e a b) :
    ∀ hash ∈ b.pictures, hash ∈ a.pictures ∨ hash ∈ e.document.images.keys := by
  cases h with
  | fills fills some registered =>
    intro hash hhash
    rw [pictures_eq] at hhash
    rw [pictures_eq, List.mem_append]
    rcases List.mem_append.1 hhash with hfill | hstroke
    · exact (registered hash hfill).imp_left .inl
    · exact .inl (.inr hstroke)
  | paintStyle slot paints style color known some =>
    rw [pictures_bind some]
    exact fun _ => .inl
  | name | visible | position | extent | opacity | cornerRadius | characters | fontSize | textStyle =>
    exact fun _ => .inl

end Attributes

namespace Document

/-- The image of every picture in the document is registered. -/
def Registered (d : Document) : Prop :=
  ∀ a ∈ d.attributes, ∀ hash ∈ a.pictures, hash ∈ d.images.keys

instance (d : Document) : Decidable d.Registered :=
  inferInstanceAs (Decidable (∀ a ∈ d.attributes, ∀ hash ∈ a.pictures, hash ∈ d.images.keys))

/-- The later document knows all images of the earlier one, has its styles before any others, and lacks the same
fonts. -/
structure Extends (later earlier : Document) : Prop where
  images : earlier.images.keys ⊆ later.images.keys
  styles : earlier.styles <+: later.styles
  unavailableFonts : later.unavailableFonts = earlier.unavailableFonts

namespace Extends

variable {d d' d'' : Document}

theorem of_eq (himages : d'.images = d.images) (hstyles : d'.styles = d.styles)
    (hfonts : d'.unavailableFonts = d.unavailableFonts) : d'.Extends d :=
  ⟨himages ▸ List.Subset.refl _, hstyles ▸ List.prefix_refl _, hfonts⟩

theorem refl (d : Document) : d.Extends d :=
  .of_eq rfl rfl rfl

theorem trans (h : d''.Extends d') (h' : d'.Extends d) : d''.Extends d where
  images := List.Subset.trans h'.images h.images
  styles := h'.styles.trans h.styles
  unavailableFonts := h.unavailableFonts.trans h'.unavailableFonts

end Extends

end Document

namespace Editor

variable {e e' : Editor}

theorem Move.extends (h : Move e e') : e'.document.Extends e.document := by
  cases h with
  | select | edit => exact .of_eq rfl rfl rfl
  | loadFont _ font h =>
    obtain ⟨-, rfl⟩ := loadFont_ok h
    exact .refl e.document
  | copy id _ new h =>
    obtain ⟨n, nodes, -, -, rfl, -⟩ := copyNode_ok h
    exact .of_eq rfl rfl rfl
  | remove id _ h =>
    obtain ⟨nodes, -, rfl⟩ := removeNode_ok h
    exact .of_eq rfl rfl rfl
  | addImage bytes _ hash h =>
    obtain ⟨-, rfl⟩ := addImage_ok h
    exact ⟨fun _ hkey => Images.mem_keys_insert.2 (.inr hkey), List.prefix_refl _, rfl⟩
  | addPaintStyle name color => exact ⟨List.Subset.refl _, List.prefix_append _ _, rfl⟩

theorem Reaches.extends (h : Reaches e e') : e'.document.Extends e.document :=
  h.keeps (P := fun e' => e'.document.Extends e.document) (fun _ _ hm h => hm.extends.trans h) (.refl e.document)

/-- Every move keeps the images of all pictures registered. -/
theorem Move.keeps_registered (h : Move e e') (hr : e.document.Registered) : e'.document.Registered := by
  intro b hb hash hhash
  have hkeys : e.document.images.keys ⊆ e'.document.images.keys := h.extends.images
  obtain ⟨a, ha, rfl | hedit | ⟨new, rfl⟩⟩ := h.origin hb
  · exact hkeys (hr b ha hash hhash)
  · exact hkeys ((hedit.pictures hash hhash).elim (hr a ha hash) id)
  · exact hkeys (hr a ha hash hhash)

end Editor

end DesignCanvas
