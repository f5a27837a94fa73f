import DesignCanvas.Editor.Apply
import DesignCanvas.Proofs.Editor.Writing
import DesignCanvas.Proofs.Text.Search
import Mathlib.Data.List.Dedup

/-!
# Searching and replacing

A replacement takes one step for every selected node that a text is below. So a text below two selected nodes is
replaced in twice and counted twice, and the replacement edits each text once just if there is no such text
(`Editor.replacesOnce_iff`).
-/

namespace DesignCanvas

/-- The text with the first occurrence of another one replaced. -/
def Text.replacing (search replacement text : String) : String :=
  String.ofList (replaceFirst search.toList replacement.toList text.toList)

/-- The ids of the texts below the selected nodes that have `search` in them and whose fonts can be loaded. An id is
there as often as there are selected nodes above the text. -/
def Document.replaceable (d : Document) (search : String) : List String :=
  ((d.roots.flatMap (Tree.textsWith search)).filter fun t => d.loads t.label).map Tree.id

/-- A replacement edits each text that it is for once: the first occurrence is replaced, nothing else is changed, and
the texts are counted. -/
structure Editor.ReplacesOnce (e : Editor) (search replacement : String) : Prop where
  document : ∃ f, (e.replaceText search replacement).editor.document =
      { e.document with nodes := Forest.map f e.document.nodes } ∧
    (∀ a ∈ e.document.attributes, a.id ∈ e.document.replaceable search →
      ∃ text, f a = { a with characters := some text } ∧
        Text.Replaced search.toList replacement.toList a.text.toList text.toList) ∧
    ∀ a ∈ e.document.attributes, a.id ∉ e.document.replaceable search → f a = a
  changed : e.document.replaceable search ≠ [] →
    ∃ o, (e.replaceText search replacement).answer = .ok o ∧
      o.changed = (e.document.replaceable search).dedup.length
  refused : e.document.replaceable search = [] →
    (e.replaceText search replacement).answer = .error (.textNotFound search)

namespace Document

variable {d : Document} {search : String} {a : Attributes}

theorem mem_textsWith {t : Node} (ht : t ∈ d.roots.flatMap (Tree.textsWith search)) :
    t.label ∈ d.attributes ∧ t.label.kind = .text ∧ search.toList <:+: t.label.text.toList := by
  obtain ⟨n, hn, ht⟩ := List.mem_flatMap.1 ht
  obtain ⟨htext, hsearch⟩ := List.mem_filter.1 ht
  obtain ⟨hreached, hkind⟩ := List.mem_filter.1 htext
  refine ⟨mem_attributes_of_reached hn hreached, beq_iff_eq.1 hkind, ?_⟩
  obtain ⟨s, hs, hhas⟩ := (Option.any_eq_true _ _).1 hsearch
  rw [Attributes.text, hs]
  exact Text.contains_iff.1 hhas

theorem replaceable_eq (hd : (d.attributes.map Attributes.id).Nodup) :
    (d.textIdsWith search).filter d.loadsAt = d.replaceable search :=
  filter_loadsAt hd fun _ ht => (mem_textsWith ht).1

theorem infix_of_replaceable (hd : (d.attributes.map Attributes.id).Nodup) (ha : a ∈ d.attributes)
    (h : a.id ∈ d.replaceable search) : search.toList <:+: a.text.toList := by
  obtain ⟨t, ht, hid⟩ := List.mem_map.1 h
  obtain ⟨hmem, -, hinfix⟩ := mem_textsWith (List.mem_filter.1 ht).1
  rwa [eq_of_id hd hmem ha hid] at hinfix

end Document

namespace Editor

variable {e : Editor} {search replacement : String}

/-- A replacement rewrites each text as often as there are selected nodes above it, and counts it as often. -/
theorem replaceText_eq (search replacement : String) (hd : (e.document.attributes.map Attributes.id).Nodup) :
    let r := e.replaceText search replacement
    let n := (e.document.replaceable search).length
    r.editor.document = e.document.rewritten (Text.replacing search replacement)
        (fun a => (e.document.replaceable search).count a.id) ∧
      r.answer = if n = 0 then .error (.textNotFound search)
        else .ok ⟨n, s!"\"{search}\"를 \"{replacement}\"로 {n}개 변경했습니다."⟩ := by
  have htargets : ∀ id ∈ e.document.textIdsWith search, ∃ a ∈ e.document.attributes, a.id = id ∧ a.kind = .text := by
    intro id hid
    obtain ⟨t, ht, rfl⟩ := List.mem_map.1 hid
    obtain ⟨hmem, hkind, -⟩ := Document.mem_textsWith ht
    exact ⟨t.label, hmem, rfl, hkind⟩
  obtain ⟨hdocument, hchanged⟩ :=
    Batch.run_writeText "replace_text" (fun _ => Text.replacing search replacement) hd htargets
  rw [Document.replaceable_eq hd, Document.rewriteAll_const] at hdocument
  rw [List.countP_eq_length_filter, Document.replaceable_eq hd] at hchanged
  refine ⟨hdocument, ?_⟩
  rw [← hchanged]
  rfl

/-- A replacement edits each text once just if no two selected nodes are above a text to replace in. -/
theorem replacesOnce_iff (e : Editor) (search replacement : String)
    (hd : (e.document.attributes.map Attributes.id).Nodup) :
    e.ReplacesOnce search replacement ↔ (e.document.replaceable search).Nodup := by
  obtain ⟨hdocument, hanswer⟩ := replaceText_eq search replacement hd
  constructor
  · intro h
    by_cases hnone : e.document.replaceable search = []
    · rw [hnone]
      exact List.nodup_nil
    · obtain ⟨o, ho, hchanged⟩ := h.changed hnone
      rw [hanswer, if_neg (mt List.length_eq_zero_iff.1 hnone)] at ho
      rw [← Except.ok.inj ho] at hchanged
      exact List.dedup_eq_self.1 ((List.dedup_sublist _).eq_of_length hchanged.symm)
  · intro hnodup
    refine ⟨⟨_, hdocument, fun a ha hmem => ?_, fun a ha hnot => ?_⟩, fun hsome => ?_, fun hnone => ?_⟩
    · refine ⟨Text.replacing search replacement a.text, ?_, ?_⟩
      · simp only [List.count_eq_one_of_mem hnodup hmem]
        rfl
      · rw [Text.replacing, String.toList_ofList]
        exact Text.replaceFirst_replaced _ (Document.infix_of_replaceable hd ha hmem)
    · simp only [List.count_eq_zero_of_not_mem hnot]
      rfl
    · rw [hanswer, if_neg (mt List.length_eq_zero_iff.1 hsome), hnodup.dedup]
      exact ⟨_, rfl, rfl⟩
    · rw [hanswer, if_pos (List.length_eq_zero_iff.2 hnone)]

end Editor

/-- A selected frame with three texts, one of which cannot be written because of its font. -/
def Document.captions : Document where
  nodes := [.branch (.bare "1:1" "Frame" .frame)
    [.leaf { Attributes.bare "1:2" "First" .text with characters := some "a a" },
     .leaf { Attributes.bare "1:3" "Second" .text with
      characters := some "a", fontName := some (.single ⟨"Lost", "Regular"⟩) },
     .leaf { Attributes.bare "1:4" "Third" .text with characters := some "b" }]]
  selection := ["1:1"]
  styles := []
  unavailableFonts := ["Lost"]
  images := .empty

namespace Editor

theorem replacesOnce_captions :
    (Document.captions.attributes.map Attributes.id).Nodup ∧ (opening .captions).ReplacesOnce "a" "aa" :=
  ⟨by decide, (replacesOnce_iff (opening .captions) "a" "aa" (by decide)).2 (by decide)⟩

end Editor

/-- The same frame, selected together with its first text. -/
def Document.captionsOverlapping : Document :=
  { Document.captions with selection := ["1:1", "1:2"] }

namespace Editor

/-- A text that is selected together with the frame around it is replaced in twice and counted twice. -/
theorem not_replacesOnce_captionsOverlapping :
    let e := opening .captionsOverlapping
    let r := e.replaceText "a" "b"
    (e.document.attributes.map Attributes.id).Nodup ∧ ¬ e.ReplacesOnce "a" "b" ∧
      e.document.replaceable "a" = ["1:2", "1:2"] ∧ r.answer.toOption.map Outcome.changed = some 2 ∧
      r.editor.document.attributes.map Attributes.text = ["", "b b", "a", "b"] := by
  intro e r
  have htwice : r.answer.toOption.map Outcome.changed = some 2 := by decide
  refine ⟨by decide, fun h => ?_, by decide, htwice, by decide⟩
  obtain ⟨o, ho, hchanged⟩ := h.changed (by decide)
  rw [show r.answer = .ok o from ho] at htwice
  have hone : o.changed = 1 := hchanged.trans (by decide)
  exact absurd (hone.symm.trans (Option.some.inj htwice)) (by decide)

end Editor

end DesignCanvas
