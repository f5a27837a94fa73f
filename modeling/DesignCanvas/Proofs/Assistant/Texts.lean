import DesignCanvas.Proofs.Assistant.Selection
import DesignCanvas.Proofs.Editor.Deletion
import DesignCanvas.Proofs.Editor.Fonts

/-!
# Texts in a run

A request to copy or to delete leaves the nodes that stay as they are, and all others get by with quiet moves. So as
long as a node is there, whatever is asked for leaves it its kind and its font, and its text too unless all fonts of the
text can be loaded (`Assistant.texts_need_fonts`).
-/

namespace DesignCanvas

namespace Editor

variable {e : Editor} {a : Attributes}

theorem mem_attributes_duplicate (hd : (e.document.attributes.map Attributes.id).Nodup)
    (ha : a ∈ e.document.attributes) : a ∈ (e.apply .duplicate).editor.document.attributes := by
  have hrestored := (copied_history (.none hd) fun _ => Document.mem_ids_of_root).1.restored
  rw [Document.attributes, ← hrestored] at ha
  rw [Document.attributes, (e.apply_ran .duplicate).nodes]
  exact (Forest.labels_prune _ _).subset ha

theorem mem_attributes_delete (hd : (e.document.attributes.map Attributes.id).Nodup) (ha : a ∈ e.document.attributes)
    (hleft : a.id ∈ (e.apply .delete).editor.document.attributes.map Attributes.id) :
    a ∈ (e.apply .delete).editor.document.attributes := by
  obtain ⟨b, hb, hid⟩ := List.mem_map.1 hleft
  have hbefore : b ∈ e.document.attributes := by
    rw [Document.attributes, nodes_delete hd] at hb
    exact (Forest.labels_prune _ _).subset hb
  rwa [← Document.eq_of_id hd hbefore ha hid]

theorem nodes_choose (e : Editor) (is : List String) : (e.choose is).editor.document.nodes = e.document.nodes := by
  unfold choose
  dsimp only
  split <;> rfl

end Editor

/-- A request leaves a node that it does not remove its text, unless all fonts of the text can be loaded. -/
theorem Request.carryOut_keepsText {s : Settings} {e : Editor} {r : Request} {a : Attributes}
    (hd : (e.document.attributes.map Attributes.id).Nodup) (hfonts : e.LoadsAvailable) (ha : a ∈ e.document.attributes)
    (hleft : a.id ∈ (r.carryOut s e).1.document.attributes.map Attributes.id) :
    ∃ b ∈ (r.carryOut s e).1.document.attributes, a.KeepsText e.document b := by
  by_cases hdelete : r.intent? = some .delete
  · rw [carryOut_command hdelete] at hleft ⊢
    exact ⟨a, Editor.mem_attributes_delete hd ha hleft, .refl a⟩
  by_cases hduplicate : r.intent? = some .duplicate
  · rw [carryOut_command hduplicate]
    exact ⟨a, Editor.mem_attributes_duplicate hd ha, .refl a⟩
  cases hchoose : r.chooses with
  | true =>
    refine ⟨a, ?_, .refl a⟩
    cases r with
    | selectNode id =>
      rw [carryOut, conclude_editor, Document.attributes, Editor.nodes_choose]
      exact ha
    | selectNodes is =>
      rw [carryOut, conclude_editor, Document.attributes, Editor.nodes_choose]
      exact ha
    | _ => cases hchoose
  | false => exact (carryOut_drifts hchoose hduplicate hdelete s e).keepsText hfonts ha

namespace Assistant

/-- What single requests leave a node, a run of them leaves it, as long as it is there. -/
theorem states_keepText {a : Assistant} {before : Attributes} (rs : List (Settings × Request))
    (hd : (a.editor.document.attributes.map Attributes.id).Nodup) (hfonts : a.editor.LoadsAvailable)
    (hbefore : before ∈ a.editor.document.attributes)
    (hleft : ∀ b ∈ a.states rs, before.id ∈ b.editor.document.attributes.map Attributes.id) :
    ∀ b ∈ a.states rs, ∃ after ∈ b.editor.document.attributes, before.KeepsText a.editor.document after := by
  induction rs generalizing a before with
  | nil =>
    intro b hb
    rw [List.mem_singleton.1 hb]
    exact ⟨before, hbefore, .refl before⟩
  | cons q rs ih =>
    obtain ⟨s, r⟩ := q
    obtain ⟨hnow, hlater⟩ := List.forall_mem_cons.1 hleft
    have hreaches := a.handle_reaches s r
    obtain ⟨next, hnext, hkept⟩ :
        ∃ next ∈ (a.handle s r).1.editor.document.attributes, before.KeepsText a.editor.document next := by
      have hthere := hlater _ (self_mem_states _ rs)
      rw [handle_editor] at hthere ⊢
      exact Request.carryOut_keepsText hd hfonts hbefore hthere
    have hd' := hreaches.keeps (P := fun e => (e.document.attributes.map Attributes.id).Nodup)
      (fun _ _ => Editor.Move.keeps_nodup) hd
    have hfonts' := hreaches.keeps (fun _ _ => Editor.Move.keeps_fonts) hfonts
    refine List.forall_mem_cons.2 ⟨⟨before, hbefore, .refl before⟩, fun b hb => ?_⟩
    obtain ⟨after, hafter, hkept'⟩ := ih hd' hfonts' hnext (hkept.id ▸ hlater) b hb
    exact ⟨after, hafter, hkept.trans (hkept'.congr hreaches.extends.unavailableFonts.symm)⟩

/-- Texts are never written without their fonts: in a run of requests on a document with distinct ids, a node that is
there all the time has the kind and the font that it began with, and it has the text and the size that it began with
unless it is a text none of whose fonts is of an unavailable family. -/
theorem texts_need_fonts (d : Document) (file : SessionFile) (journal : Journal) (rs : List (Settings × Request))
    {before : Attributes} (hd : (d.attributes.map Attributes.id).Nodup) (hbefore : before ∈ d.attributes)
    (hleft : ∀ b ∈ (opening d file journal).states rs, before.id ∈ b.editor.document.attributes.map Attributes.id) :
    ∀ b ∈ (opening d file journal).states rs, ∃ after ∈ b.editor.document.attributes, after.id = before.id ∧
      after.kind = before.kind ∧ after.fontName = before.fontName ∧
      ((after.characters = before.characters ∧ after.fontSize = before.fontSize) ∨
        (before.kind = .text ∧ ∀ f ∈ before.requiredFonts, f.family ∉ d.unavailableFonts)) := by
  intro b hb
  obtain ⟨after, hafter, hkept⟩ := states_keepText rs hd (Editor.loadsAvailable_opening d) hbefore hleft b hb
  have htext := hkept.text.imp_right fun ⟨htext, hloads⟩ => And.intro htext (Document.loads_iff.1 hloads)
  exact ⟨after, hafter, hkept.id, hkept.kind, hkept.fontName, htext⟩

end Assistant

/-- A note of two fonts, one of which cannot be loaded. -/
def Attributes.note : Attributes :=
  { Attributes.bare "1:3" "Note" .text with
    characters := some "Draft", fontName := some (.mixed [⟨"Inter", "Bold"⟩, ⟨"Lost", "Regular"⟩])
    fontSize := some 12.0 }

/-- A frame with a title, whose font can be loaded, and a note, one of whose fonts cannot. -/
def Document.annotated : Document where
  nodes := [.branch (.bare "1:1" "Frame" .frame)
    [.leaf { Attributes.bare "1:2" "Title" .text with
      characters := some "Welcome", fontName := some (.single ⟨"Inter", "Bold"⟩), fontSize := some 32.0 },
    .leaf .note]]
  selection := ["1:1"]
  styles := []
  unavailableFonts := ["Lost"]
  images := .empty

namespace Assistant

/-- The fonts of the note are loaded up to the one that cannot be, and copies of both are written and removed. -/
theorem texts_need_fonts_annotated :
    let rs : List (Settings × Request) := [(.offline, .fillTexts "a"), (.offline, .command "폰트 크기 24"),
      (.offline, .command "복제"), (.offline, .fillFields [⟨"Note", "", ["b", "c"], 0⟩]), (.offline, .command "삭제")]
    let bs := (opening Document.annotated .off .off).states rs
    (Document.annotated.attributes.map Attributes.id).Nodup ∧ Attributes.note ∈ Document.annotated.attributes ∧
      (∀ b ∈ bs, Attributes.note.id ∈ b.editor.document.attributes.map Attributes.id) ∧
      ∀ b ∈ bs, ∃ after ∈ b.editor.document.attributes, after.id = Attributes.note.id ∧
        after.kind = Attributes.note.kind ∧ after.fontName = Attributes.note.fontName ∧
        ((after.characters = Attributes.note.characters ∧ after.fontSize = Attributes.note.fontSize) ∨
          (Attributes.note.kind = .text ∧
            ∀ f ∈ Attributes.note.requiredFonts, f.family ∉ Document.annotated.unavailableFonts)) := by
  intro rs bs
  have hd : (Document.annotated.attributes.map Attributes.id).Nodup := by decide
  have hnote : Attributes.note ∈ Document.annotated.attributes := by decide +kernel
  have hleft : ∀ b ∈ bs, Attributes.note.id ∈ b.editor.document.attributes.map Attributes.id := by decide +kernel
  exact ⟨hd, hnote, hleft, texts_need_fonts Document.annotated .off .off rs hd hnote hleft⟩

end Assistant

end DesignCanvas
