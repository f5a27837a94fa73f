import DesignCanvas.Proofs.Editor.Copy
import DesignCanvas.Proofs.Editor.Move
import Mathlib.Data.List.Nodup

/-!
# Distinct ids

In a document with distinct ids no two nodes of the whole forest and no two styles have the same id. Every move of
an editor keeps this: copies and new styles get ids that are new (`Editor.Move.keeps_distinct`).
-/

namespace DesignCanvas

/-- No two nodes and no two styles have the same id. -/
structure Document.Distinct (d : Document) : Prop where
  nodes : (d.attributes.map Attributes.id).Nodup
  styles : (d.styles.map Style.id).Nodup

instance (d : Document) : Decidable d.Distinct :=
  decidable_of_iff ((d.attributes.map Attributes.id).Nodup ∧ (d.styles.map Style.id).Nodup)
    ⟨fun h => ⟨h.1, h.2⟩, fun h => ⟨h.nodes, h.styles⟩⟩

theorem Attributes.Edit.id_eq {e : Editor} {a b : Attributes} (h : Attributes.Edit e a b) : b.id = a.id := by
  cases h with
  | paintStyle slot => cases slot <;> rfl
  | _ => rfl

namespace Document

variable {d : Document} {id : String}

theorem attributes_setAttributes {n : Node} (hn : d.find? id = some n) (a : Attributes) :
    ∃ l₁ l₂, d.attributes = l₁ ++ n.label :: l₂ ∧ (∀ b ∈ l₁, b.id ≠ id) ∧
      (d.setAttributes id a).attributes = l₁ ++ a :: l₂ := by
  have hfirst := Forest.label_find? (Attributes.hasId id) d.nodes
  rw [show Forest.find? (Attributes.hasId id) d.nodes = some n from hn, Option.map_some] at hfirst
  cases hm : Forest.modify? (Attributes.hasId id) (fun _ => a) d.nodes with
  | none =>
    have hlabel := Forest.label_of_find? hn
    exact absurd hlabel (Forest.not_of_modify?_eq_none hm _ (List.mem_of_find?_eq_some hfirst.symm))
  | some nodes =>
    obtain ⟨l₁, b, l₂, hl, hb, hl₁, hl'⟩ := Forest.labels_modify? hm
    have hbn : n.label = b := by
      rw [hl, List.find?_append, List.find?_eq_none.2 hl₁] at hfirst
      simpa [hb] using hfirst
    refine ⟨l₁, l₂, by rw [attributes, hl, hbn], fun c hc => ?_, ?_⟩
    · simpa [Attributes.hasId] using hl₁ c hc
    · simpa [setAttributes, hm, attributes] using hl'

end Document

namespace Editor

variable {e e' : Editor} {id new : String}

/-- A copy keeps the ids of nodes distinct. -/
theorem copyNode_nodup (h : e.copyNode id = .ok (e', new)) (hd : (e.document.attributes.map Attributes.id).Nodup) :
    (e'.document.attributes.map Attributes.id).Nodup := by
  obtain ⟨n, nodes, hn, hnodes, rfl, rfl⟩ := copyNode_ok h
  have hids : (n.ids.map (· ++ copySuffix (e.copyNumber n.ids))).Nodup := by
    refine List.Nodup.map (fun _ _ => (String.append_left_inj _).1) ?_
    exact hd.sublist ((Forest.labels_infix_of_find? hn).map _).sublist
  have hnew : ∀ x ∈ n.ids.map (· ++ copySuffix (e.copyNumber n.ids)), x ∉ e.document.attributes.map Attributes.id := by
    intro x hx hmem
    obtain ⟨id, hid, rfl⟩ := List.mem_map.1 hx
    obtain ⟨a, ha, haid⟩ := List.mem_map.1 hmem
    exact ne_copy_id hid ha haid
  have hall := List.nodup_append'.2 ⟨hids, hd, hnew⟩
  rw [← Tree.ids_extendIds, Tree.ids, Document.attributes, ← List.map_append] at hall
  exact ((Forest.labels_insertAfter? hnodes).perm.map _).nodup_iff.2 hall

theorem removeNode_nodup (h : e.removeNode id = .ok e') (hd : (e.document.attributes.map Attributes.id).Nodup) :
    (e'.document.attributes.map Attributes.id).Nodup := by
  obtain ⟨nodes, hnodes, rfl⟩ := removeNode_ok h
  obtain ⟨v, -, hl⟩ := Forest.labels_remove? hnodes
  exact hd.sublist (hl.sublist.map _)

theorem QuietMove.keeps_ids (h : QuietMove e e') :
    e'.document.attributes.map Attributes.id = e.document.attributes.map Attributes.id ∧
      e'.document.selection = e.document.selection := by
  cases h with
  | edit id n a hn ha =>
    obtain ⟨l₁, l₂, hl, -, hl'⟩ := Document.attributes_setAttributes hn a
    refine ⟨?_, rfl⟩
    rw [hl, hl']
    simp [ha.id_eq]
  | loadFont _ font h =>
    obtain ⟨-, rfl⟩ := loadFont_ok h
    exact ⟨rfl, rfl⟩
  | addImage bytes _ hash h =>
    obtain ⟨-, rfl⟩ := addImage_ok h
    exact ⟨rfl, rfl⟩
  | addPaintStyle name color => exact ⟨rfl, rfl⟩

theorem Move.keeps_nodup (h : Move e e') (hd : (e.document.attributes.map Attributes.id).Nodup) :
    (e'.document.attributes.map Attributes.id).Nodup := by
  cases h with
  | select ids => exact hd
  | edit id n a hn ha =>
    rw [(QuietMove.edit id n a hn ha).keeps_ids.1]
    exact hd
  | loadFont _ font h =>
    rw [(QuietMove.loadFont _ font h).keeps_ids.1]
    exact hd
  | copy id _ new h => exact copyNode_nodup h hd
  | remove id _ h => exact removeNode_nodup h hd
  | addImage bytes _ hash h =>
    rw [(QuietMove.addImage bytes _ hash h).keeps_ids.1]
    exact hd
  | addPaintStyle name color => exact hd

theorem Move.keeps_styles (h : Move e e') (hd : (e.document.styles.map Style.id).Nodup) :
    (e'.document.styles.map Style.id).Nodup := by
  cases h with
  | select ids => exact hd
  | edit id n a hn ha => exact hd
  | loadFont _ font h =>
    obtain ⟨-, rfl⟩ := loadFont_ok h
    exact hd
  | copy id _ new h =>
    obtain ⟨n, nodes, hn, hnodes, rfl, rfl⟩ := copyNode_ok h
    exact hd
  | remove id _ h =>
    obtain ⟨nodes, hnodes, rfl⟩ := removeNode_ok h
    exact hd
  | addImage bytes _ hash h =>
    obtain ⟨-, rfl⟩ := addImage_ok h
    exact hd
  | addPaintStyle name color =>
    have hnew := e.styleId_styleNumber
    simp only [Editor.addPaintStyle, List.map_append, List.map_cons, List.map_nil]
    refine List.nodup_append'.2 ⟨hd, List.nodup_singleton _, ?_⟩
    intro x hx hmem
    obtain ⟨s, hs, rfl⟩ := List.mem_map.1 hx
    exact hnew s hs (List.mem_singleton.1 hmem)

/-- Whatever is there after a move was there before, is what the move made of it, or is a copy of it. -/
theorem Move.origin (h : Move e e') {b : Attributes} (hb : b ∈ e'.document.attributes) :
    ∃ a ∈ e.document.attributes, b = a ∨ Attributes.Edit e a b ∨ ∃ new, b = { a with id := new } := by
  cases h with
  | select | addPaintStyle => exact ⟨b, hb, .inl rfl⟩
  | edit id n a hn ha =>
    obtain ⟨l₁, l₂, hl, -, hl'⟩ := Document.attributes_setAttributes hn a
    rw [hl'] at hb
    rw [hl]
    rcases List.mem_append.1 hb with hb | hb
    · exact ⟨b, List.mem_append_left _ hb, .inl rfl⟩
    · rcases List.mem_cons.1 hb with rfl | hb
      · exact ⟨n.label, by simp, .inr (.inl ha)⟩
      · exact ⟨b, by simp [hb], .inl rfl⟩
  | loadFont _ font h =>
    obtain ⟨-, rfl⟩ := loadFont_ok h
    exact ⟨b, hb, .inl rfl⟩
  | copy id _ new h =>
    obtain ⟨n, nodes, hn, hnodes, rfl, -⟩ := copyNode_ok h
    have hb : b ∈ (n.extendIds (copySuffix (e.copyNumber n.ids))).labels ++ e.document.attributes :=
      (Forest.labels_insertAfter? hnodes).perm.mem_iff.1 hb
    rcases List.mem_append.1 hb with hb | hb
    · rw [Tree.extendIds, Tree.labels_map] at hb
      obtain ⟨a, ha, rfl⟩ := List.mem_map.1 hb
      exact ⟨a, (Forest.labels_infix_of_find? hn).subset ha, .inr (.inr ⟨_, rfl⟩)⟩
    · exact ⟨b, hb, .inl rfl⟩
  | remove id _ h =>
    obtain ⟨nodes, hnodes, rfl⟩ := removeNode_ok h
    obtain ⟨v, -, hl⟩ := Forest.labels_remove? hnodes
    exact ⟨b, hl.sublist.subset hb, .inl rfl⟩
  | addImage bytes _ hash h =>
    obtain ⟨-, rfl⟩ := addImage_ok h
    exact ⟨b, hb, .inl rfl⟩

/-- Every move keeps the ids distinct. -/
theorem Move.keeps_distinct (h : Move e e') (hd : e.document.Distinct) : e'.document.Distinct :=
  ⟨h.keeps_nodup hd.nodes, h.keeps_styles hd.styles⟩

end Editor

end DesignCanvas
