import DesignCanvas.Proofs.Editor.Copy
import DesignCanvas.Proofs.Editor.History

/-!
# Steps that change nothing

A step that does not change its node leaves everything in the document as it was (`Step.Clean`), also where it comes
to grief on the way: fonts that were loaded are no part of the document, and a copy that cannot be placed is taken
out again. Only filling with pictures can leave an image behind, but never another node.
-/

namespace DesignCanvas

/-! ## Documents with the same contents -/

/-- Two documents with the same contents and the same selected nodes. Their selections can differ in ids that no
node has. -/
structure Document.Alike (d d' : Document) : Prop where
  nodes : d'.nodes = d.nodes
  styles : d'.styles = d.styles
  unavailableFonts : d'.unavailableFonts = d.unavailableFonts
  images : d'.images = d.images
  roots : d'.roots = d.roots

namespace Document

variable {d₁ d₂ d₃ : Document}

theorem Alike.refl (d : Document) : d.Alike d :=
  ⟨rfl, rfl, rfl, rfl, rfl⟩

theorem Alike.trans (h : d₁.Alike d₂) (h' : d₂.Alike d₃) : d₁.Alike d₃ where
  nodes := h'.nodes.trans h.nodes
  styles := h'.styles.trans h.styles
  unavailableFonts := h'.unavailableFonts.trans h.unavailableFonts
  images := h'.images.trans h.images
  roots := h'.roots.trans h.roots

theorem Alike.of_eq (h : d₂ = d₁) : d₁.Alike d₂ :=
  h ▸ .refl d₁

theorem alike_deselect {d : Document} {id : String} (hid : d.find? id = none) :
    d.Alike { d with selection := d.selection.filter (· != id) } := by
  refine ⟨rfl, rfl, rfl, rfl, ?_⟩
  change (d.selection.filter (· != id)).filterMap d.find? = d.selection.filterMap d.find?
  rw [List.filterMap_filter]
  refine List.filterMap_congr fun x _ => ?_
  by_cases hx : x = id
  · rw [hx, hid]
    simp
  · simp [hx]

end Document

/-! ## Steps -/

namespace Step

open Editor

variable {e : Editor} {id : String} {s : Step}

/-- The step changed its node, or else left the document as it was. -/
def Clean (e : Editor) (s : Step) : Prop :=
  s.verdict = .ok true ∨ e.document.Alike s.editor.document

theorem pass_clean (e : Editor) : Clean e (pass e) :=
  Or.inr (.refl _)

theorem fail_clean (e : Editor) (error : EditError) : Clean e (fail e error) :=
  Or.inr (.refl _)

theorem ofEdit_clean {e' : Editor} (h : e'.document = e.document) (r : Edit) : Clean e (ofEdit e' r) := by
  cases r with
  | ok e'' => exact Or.inl rfl
  | error x => exact Or.inr (.of_eq h)

theorem onNode_clean {step : Attributes → Step} (h : ∀ a, Clean e (step a)) : Clean e (onNode e id step) := by
  unfold onNode
  split
  · next n _ => exact h n.label
  · exact fail_clean e _

theorem ite_clean {c : Prop} [Decidable c] (h : Clean e s) : Clean e (if c then s else pass e) := by
  split
  · exact h
  · exact pass_clean e

theorem loadFont_document {e' : Editor} {font : Font} (h : e.loadFont font = .ok e') :
    e'.document = e.document := by
  obtain ⟨-, rfl⟩ := loadFont_ok h
  rfl

theorem loadFonts_document (fs : List Font) (e : Editor) : (e.loadFonts fs).1.document = e.document := by
  induction fs generalizing e with
  | nil => rfl
  | cons f fs ih =>
    rw [loadFonts]
    split
    · next e' hload => rw [ih e', loadFont_document hload]
    · rfl

theorem withFonts_clean (a : Attributes) (change : Editor → Edit) : Clean e (withFonts e a change) := by
  have hload := loadFonts_document a.requiredFonts e
  unfold withFonts
  split
  · next e' hl =>
    rw [hl] at hload
    exact ofEdit_clean hload _
  · next e' x hl =>
    rw [hl] at hload
    exact Or.inr (.of_eq hload)

/-- A copy that cannot be placed is taken out again, and its id was that of no node before. -/
theorem copy_clean (e : Editor) (id : String) : Clean e (copy e id) := by
  unfold copy
  split
  · exact fail_clean e _
  · next e' new hcopy =>
    split
    · exact Or.inl rfl
    · rw [removeNode_copyNode hcopy]
      exact Or.inr (Document.alike_deselect (find?_copyNode hcopy))

theorem writeText_clean (rule : String → String) (e : Editor) (id : String) : Clean e (writeText rule e id) :=
  onNode_clean fun _ => withFonts_clean _ _

theorem addImage_nodes {e' : Editor} {bytes : ByteArray} {hash : String} (h : e.addImage bytes = .ok (e', hash)) :
    e'.document.nodes = e.document.nodes := by
  obtain ⟨-, rfl⟩ := addImage_ok h
  rfl

theorem putImage_nodes (bytes : ByteArray) (a : Attributes) (e : Editor) :
    (putImage bytes a e).verdict = .ok true ∨ (putImage bytes a e).editor.document.nodes = e.document.nodes := by
  unfold putImage
  split
  · exact Or.inr rfl
  · next e' hash himage =>
    cases e'.setFills a.id (withImage hash (a.fills.getD [])) with
    | ok e'' => exact Or.inl rfl
    | error x => exact Or.inr (addImage_nodes himage)

theorem fillPicture_nodes (source : ImageSource) (kind : PictureKind) (smallest : Nat) (e : Editor) (id : String) :
    (fillPicture source kind smallest e id).verdict = .ok true ∨
      (fillPicture source kind smallest e id).editor.document.nodes = e.document.nodes := by
  unfold fillPicture onNode
  split
  · next n _ =>
    dsimp only
    split
    · exact Or.inr rfl
    · next bytes _ => exact putImage_nodes bytes n.label e
  · exact Or.inr rfl

end Step

end DesignCanvas
