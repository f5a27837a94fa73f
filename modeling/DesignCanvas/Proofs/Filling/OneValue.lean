import DesignCanvas.Proofs.Assistant.Handle
import DesignCanvas.Proofs.Filling.Fields
import DesignCanvas.Proofs.Tree.Places

/-!
# Writing one text everywhere

A command and a request write one text into every text below the selected nodes. Both leave the same document: each
text that a walk comes to holds the new text if its fonts can be loaded, however many selected nodes are above it, and
nothing else is changed (`Editor.writes_everywhere`).
-/

namespace DesignCanvas

/-- A text that is not below another one and at most ten levels down. -/
def Place.isOuterText (p : Place Attributes) : Bool :=
  p.label.kind == .text && decide (p.above.length ≤ 10) && p.above.all fun a => a.kind != .text

namespace Document

/-- The outer texts below each of the selected nodes whose fonts can be loaded. A text is there as often as there are
selected nodes that it is an outer text of. -/
def writable (d : Document) : List Attributes :=
  (d.roots.flatMap fun root => (root.places.filter Place.isOuterText).map Place.label).filter d.loads

/-- The document with one text in some of its nodes. -/
def writtenIn (d : Document) (text : String) (targets : List Attributes) : Document :=
  { d with nodes := Forest.map (fun a => if a ∈ targets then { a with characters := some text } else a) d.nodes }

end Document

theorem Tree.labels_texts (n : Node) :
    n.texts.map Tree.label = (n.places.filter Place.isOuterText).map Place.label := by
  have hstop : ∀ t : Node, t.isText = (fun a : Attributes => a.kind == .text) t.label := fun _ => rfl
  have hlabel : n.texts.map Tree.label =
      (((n.visited Tree.isText).map Visited.place).filter fun p => p.label.kind == .text).map Place.label := by
    rw [texts, reached, List.filter_map, List.filter_map, List.map_map, List.map_map]
    rfl
  -- what is reached are the places that are not too deep and below no text, so that only those that are texts remain
  rw [hlabel, Tree.places_visited (q := fun a => a.kind == .text) hstop, List.filter_filter]
  refine congrArg _ (List.filter_congr fun p _ => ?_)
  rw [Place.isOuterText, Place.within, Place.clear, Bool.and_assoc]
  rfl

theorem Attributes.iterate_rewrite_const (text : String) (n : Nat) (a : Attributes) :
    (rewrite fun _ => text)^[n + 1] a = { a with characters := some text } := by
  rw [Function.iterate_succ_apply]
  exact Function.iterate_fixed rfl n

namespace Document

variable {d : Document}

theorem writable_eq (d : Document) : d.writable = d.leaves.filter d.loads := by
  rw [writable, leaves, List.map_flatMap]
  simp only [Tree.labels_texts]

theorem filter_textIds (hd : (d.attributes.map Attributes.id).Nodup) :
    d.textIds.filter d.loadsAt = d.writable.map Attributes.id := by
  have hleaves : ∀ t ∈ d.roots.flatMap Tree.texts, t.label ∈ d.attributes := fun t ht =>
    (mem_leaves (List.mem_map_of_mem ht)).1
  rw [textIds, filter_loadsAt hd hleaves, writable_eq, leaves, List.filter_map, List.map_map]
  rfl

theorem rewritten_const (hd : (d.attributes.map Attributes.id).Nodup) (text : String) {targets : List Attributes}
    (htargets : targets ⊆ d.attributes) :
    d.rewritten (fun _ => text) (fun a => (targets.map Attributes.id).count a.id) = d.writtenIn text targets := by
  refine congrArg (fun nodes => { d with nodes }) (Forest.map_congr fun a ha => ?_)
  have hmem := id_mem_ids_iff hd htargets ha
  by_cases hwritten : a ∈ targets
  · obtain ⟨n, hn⟩ := Nat.exists_eq_add_one.2 (List.count_pos_iff.2 (hmem.2 hwritten))
    simp only [hn, if_pos hwritten]
    exact Attributes.iterate_rewrite_const text n a
  · simp only [List.count_eq_zero_of_not_mem (mt hmem.1 hwritten), if_neg hwritten]
    rfl

end Document

namespace Editor

variable {e : Editor}

theorem writeAll_eq (operation text : String) (hd : (e.document.attributes.map Attributes.id).Nodup) :
    (e.writeAll operation text).editor.document = e.document.writtenIn text e.document.writable ∧
      (e.writeAll operation text).changed = e.document.writable.length := by
  have hleaves : e.document.writable ⊆ e.document.leaves := by
    rw [Document.writable_eq]
    exact List.filter_subset_self _
  have hitems : ∀ id ∈ e.document.textIds, ∃ a ∈ e.document.attributes, a.id = id ∧ a.kind = .text := by
    intro id hid
    obtain ⟨t, ht, rfl⟩ := List.mem_map.1 hid
    obtain ⟨hmem, hkind⟩ := Document.mem_leaves (List.mem_map_of_mem ht)
    exact ⟨t.label, hmem, rfl, hkind⟩
  obtain ⟨hdocument, hchanged⟩ := Batch.run_writeText operation (fun _ _ => text) hd hitems
  rw [Document.filter_textIds hd, Document.rewriteAll_const, Document.rewritten_const hd text
    fun a ha => (Document.mem_leaves (hleaves ha)).1] at hdocument
  rw [List.countP_eq_length_filter, Document.filter_textIds hd, List.length_map] at hchanged
  exact ⟨hdocument, hchanged⟩

/-- A command and a request that write one text leave it in the same texts and count them alike. Both are refused if
there is none. -/
theorem writes_everywhere (s : Settings) (e : Editor) (text : String)
    (hd : (e.document.attributes.map Attributes.id).Nodup) (hroots : e.document.roots ≠ []) :
    let n := e.document.writable.length
    let d := e.document.writtenIn text e.document.writable
    let command := e.apply (.replaceAllText text)
    let request := (Request.fillTexts text).carryOut s e
    let operation := (Request.fillTexts text).operation
    command.editor.document = d ∧ request.1.document = d ∧
      (n = 0 → command.answer = .error .noText ∧ request.2.response = .error operation Refusal.noText.message) ∧
      (n ≠ 0 → ∃ m m', command.answer = .ok ⟨n, m⟩ ∧
        request.2.response = Request.changedResponse operation ⟨n, m'⟩) := by
  obtain ⟨hcommand, hcount⟩ := writeAll_eq "replace_all_text" text hd
  obtain ⟨hrequest, hcount'⟩ := writeAll_eq "apply_dummy_data" text hd
  have happly : e.apply (.replaceAllText text) = e.replaceAllText text := by
    rw [apply, onSelection_eq, if_neg hroots]
    rfl
  have hfill : e.fillTexts text = (e.writeAll "apply_dummy_data" text).finish .noText fun n =>
      s!"{n}개의 텍스트에 데이터를 적용했습니다." := by
    rw [fillTexts, onSelection_eq, if_neg hroots]
  rw [happly, replaceAllText, Request.carryOut, hfill, Batch.finish, Batch.finish, hcount, hcount']
  by_cases hn : e.document.writable.length = 0
  · rw [if_pos hn, if_pos hn]
    exact ⟨hcommand, hrequest, fun _ => ⟨rfl, rfl⟩, fun hsome => absurd hn hsome⟩
  · rw [if_neg hn, if_neg hn]
    exact ⟨hcommand, hrequest, fun hnone => absurd hnone hn, fun _ => ⟨_, _, rfl, rfl⟩⟩

end Editor

/-- A frame with a text that has another one below it and a text that cannot be written because of its font. Selected
are the frame, its first text and no node. -/
def Document.stacked : Document where
  nodes := [.branch (.bare "1:1" "Frame" .frame)
    [.branch (.bare "1:2" "Outer" .text) [.leaf (.bare "1:3" "Inner" .text)],
     .leaf { Attributes.bare "1:4" "Lost" .text with fontName := some (.single ⟨"Lost", "Regular"⟩) }]]
  selection := ["1:1", "1:2", "9:9"]
  styles := []
  unavailableFonts := ["Lost"]
  images := .empty

namespace Editor

/-- The one text that is written counts twice, since the frame and the text itself are both selected. -/
theorem writes_everywhere_stacked :
    let e := opening .stacked
    let command := e.apply (.replaceAllText "New")
    let request := (Request.fillTexts "New").carryOut .offline e
    (e.document.attributes.map Attributes.id).Nodup ∧ e.document.roots ≠ [] ∧
      command.editor.document = request.1.document ∧
      command.editor.document.attributes.map Attributes.characters = [none, some "New", none, none] ∧
      (∃ m, command.answer = .ok ⟨2, m⟩) ∧ request.2.response.changed = some 2 := by
  intro e command request
  have hd : (e.document.attributes.map Attributes.id).Nodup := by decide
  have hroots : e.document.roots ≠ [] := nofun
  obtain ⟨hcommand, hrequest, -, hchanged⟩ := writes_everywhere .offline e "New" hd hroots
  obtain ⟨m, m', hanswer, hresponse⟩ := hchanged (by decide)
  refine ⟨hd, hroots, hcommand.trans hrequest.symm, ?_, ⟨m, hanswer⟩, ?_⟩
  · rw [show command.editor.document = _ from hcommand]
    decide
  · rw [show request.2.response = _ from hresponse]
    exact congrArg some (show e.document.writable.length = 2 by decide)

end Editor

end DesignCanvas
