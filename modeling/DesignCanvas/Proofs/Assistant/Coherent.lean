import DesignCanvas.Proofs.Assistant.Handle
import DesignCanvas.Proofs.Document.Coherent

/-!
# Truthful bindings in a run

What every move of an editor keeps is kept by whatever an assistant is asked for (`Assistant.states_keep`). So a
document that is coherent at first is coherent after every request of a run (`Assistant.states_coherent`).
-/

namespace DesignCanvas

namespace Assistant

/-- What every move keeps holds of the editors of a whole run if it holds of the first one. -/
theorem states_keep {P : Editor → Prop} (hmove : ∀ e e', Editor.Move e e' → P e → P e') (a : Assistant)
    (rs : List (Settings × Request)) (h : P a.editor) : ∀ b ∈ a.states rs, P b.editor := by
  induction rs generalizing a with
  | nil =>
    intro b hb
    rw [List.mem_singleton.1 hb]
    exact h
  | cons q rs ih =>
    obtain ⟨s, r⟩ := q
    have hnext : P (a.handle s r).1.editor := (a.handle_reaches s r).keeps hmove h
    intro b hb
    rcases List.mem_cons.1 hb with rfl | hb
    · exact h
    · exact ih _ hnext b hb

/-- If the document is coherent at first, then it is after every request of a run. -/
theorem states_coherent (a : Assistant) (rs : List (Settings × Request)) (h : a.editor.document.Coherent) :
    ∀ b ∈ a.states rs, b.editor.document.Coherent :=
  states_keep (P := fun e => e.document.Coherent) (fun _ _ => Editor.Move.keeps_coherent) a rs h

end Assistant

/-- A button that is bound to a style in its fill and its border, next to a shape whose colours no style has. -/
def Document.branded : Document where
  nodes := [.branch (.bare "1:1" "Frame" .frame)
    [.leaf { Attributes.bare "1:2" "Button" .rectangle with
      fills := some [.solid ⟨1.0, 0.0, 0.0⟩ 0.5 true none, .gradientLinear], fillStyle := some "S:1"
      strokes := some [.ofColor ⟨0.0, 0.0, 1.0⟩], strokeStyle := some "S:2" },
    .leaf { Attributes.bare "1:3" "Shape" .ellipse with
      fills := some [.ofColor ⟨0.0, 1.0, 0.0⟩], strokes := some [.ofColor ⟨0.0, 0.0, 1.0⟩] }]]
  selection := ["1:2", "1:3"]
  styles := [⟨"S:1", "Brand", .paint, some ⟨1.0, 0.0, 0.0⟩, none, none⟩,
    ⟨"S:2", "Border", .paint, some ⟨0.0, 0.0, 1.0⟩, none, none⟩]
  unavailableFonts := []
  images := .empty

namespace Assistant

/-- An audit makes a style for the fill of the shape and binds all that can be, before nodes are copied, painted and
removed. -/
theorem states_coherent_branded :
    Document.branded.Coherent ∧
      ∀ b ∈ (opening Document.branded .off .off).states
          [(.offline, .audit .styles true), (.offline, .command "복제"), (.offline, .command "색상을 #00ff00으로 변경"),
            ({ Settings.offline with source := ⟨fun _ _ => .ok ⟨#[0]⟩⟩ }, .fillPictures "food"), (.offline, .command "삭제")],
        b.editor.document.Coherent :=
  ⟨by decide, states_coherent _ _ (by decide)⟩

end Assistant

end DesignCanvas
