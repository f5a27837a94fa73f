import DesignCanvas.Proofs.Assistant.Coherent

/-!
# Registries in a run

What one move of an editor cannot take back, no request of a run can (`Assistant.states_pairwise`). So what pictures
show stays registered: the registered images and the styles only grow, and the same fonts stay unavailable
(`Assistant.states_registered`).
-/

namespace DesignCanvas

namespace Assistant

/-- A relation between editors that moves lead along holds between any state of a run and every later one. -/
theorem states_pairwise {R : Editor → Editor → Prop} (hrefl : ∀ e, R e e)
    (htrans : ∀ e₁ e₂ e₃, R e₁ e₂ → R e₂ e₃ → R e₁ e₃) (hmove : ∀ e e', Editor.Move e e' → R e e')
    (a : Assistant) (rs : List (Settings × Request)) :
    (a.states rs).Pairwise fun b c => R b.editor c.editor := by
  have hlater : ∀ (e : Editor) (a : Assistant) (rs : List (Settings × Request)), R e a.editor →
      ∀ b ∈ a.states rs, R e b.editor := fun e a rs h =>
    states_keep (P := R e) (fun e₁ e₂ hstep h => htrans e e₁ e₂ h (hmove e₁ e₂ hstep)) a rs h
  induction rs generalizing a with
  | nil => exact List.pairwise_singleton _ _
  | cons q rs ih =>
    obtain ⟨s, r⟩ := q
    have hnext : R a.editor (a.handle s r).1.editor := (a.handle_reaches s r).keeps (P := R a.editor)
      (fun e₁ e₂ hstep h => htrans a.editor e₁ e₂ h (hmove e₁ e₂ hstep)) (hrefl a.editor)
    exact List.pairwise_cons.2 ⟨hlater a.editor _ rs hnext, ih _⟩

/-- If the images of all pictures are registered at first, then they are after every request of a run, where each state
has all registered images and styles of the states before it, the styles in their places, and the same unavailable
fonts. -/
theorem states_registered (a : Assistant) (rs : List (Settings × Request)) (h : a.editor.document.Registered) :
    (∀ b ∈ a.states rs, b.editor.document.Registered) ∧
      (a.states rs).Pairwise fun b c => c.editor.document.Extends b.editor.document := by
  refine ⟨states_keep (P := fun e => e.document.Registered) (fun _ _ => Editor.Move.keeps_registered) a rs h, ?_⟩
  exact states_pairwise (R := fun e e' => e'.document.Extends e.document) (fun e => .refl e.document)
    (fun _ _ _ h h' => h'.trans h) (fun _ _ => Editor.Move.extends) a rs

end Assistant

/-- A card with a photograph that has a picture in its fill and another one in its border, next to a button with a
colour that no style has. -/
def Document.illustrated : Document where
  nodes := [.branch (.bare "1:1" "Card" .frame)
    [.leaf { Attributes.bare "1:2" "Photo" .rectangle with
      fills := some [.ofColor ⟨1.0, 1.0, 1.0⟩, .image "a1" .fit false 0.5], strokes := some [.ofImage "b2"] },
    .leaf { Attributes.bare "1:3" "Button" .ellipse with fills := some [.ofColor ⟨0.0, 1.0, 0.0⟩] }]]
  selection := ["1:2", "1:3", "9:9"]
  styles := [⟨"S:1", "Brand", .paint, some ⟨1.0, 0.0, 0.0⟩, none, none⟩]
  unavailableFonts := ["Serif"]
  images := (Images.empty.insert "b2" 20).insert "a1" 10

namespace Assistant

/-- Styles are made for the colours; the copy of the photograph gets a picture of its own, that of the button does not;
both are painted over and removed. -/
theorem states_registered_illustrated :
    let source : ImageSource := fun url => if url.endsWith "596/1/1" then .ok ⟨#[7]⟩ else .error (.status url 404)
    let rs := [(.offline, .audit .styles true), (.offline, .command "복제"),
      ({ Settings.offline with source }, .fillPictures "food"), (.offline, .command "색상을 #00ff00으로 변경"),
      (.offline, .rename [⟨"9:9", "Missing"⟩]), (.offline, .command "삭제")]
    let a := opening Document.illustrated .off .off
    Document.illustrated.Registered ∧ (∀ b ∈ a.states rs, b.editor.document.Registered) ∧
      (a.states rs).Pairwise fun b c => c.editor.document.Extends b.editor.document :=
  ⟨by decide, states_registered _ _ (by decide)⟩

end Assistant

end DesignCanvas
