import DesignCanvas.Proofs.Editor.Writing
import DesignCanvas.Proofs.Filling.Turns

/-!
# Filling texts with fields

A fill writes the values that the texts below the selected nodes take, one after another, into those whose fonts can be
loaded (`Editor.fillFields_eq`). If the selected nodes do not overlap, each of these texts then holds the value that it
took (`Editor.fillsInTurn`).
-/

namespace DesignCanvas

namespace Document

/-- The texts below the selected nodes in the order of the tree. A text is there as often as there are selected nodes
above it. -/
def leaves (d : Document) : List Attributes :=
  (d.roots.flatMap Tree.texts).map Tree.label

/-- The texts that take a value from fields, each with the value. -/
def taken (d : Document) (fields : List Field) : List (Attributes × String) :=
  (d.leaves.zip (Field.handed fields (d.leaves.map Attributes.name))).filterMap fun p =>
    p.2.map fun value => (p.1, value)

/-- Those of them that can be written. -/
def filled (d : Document) (fields : List Field) : List (Attributes × String) :=
  (d.taken fields).filter fun p => d.loads p.1

end Document

/-- A fill gives each text that takes a value and can be written this value, changes nothing else and counts these
texts. -/
structure Editor.FillsInTurn (e : Editor) (fields : List Field) : Prop where
  document : ∃ f, (e.fillFields fields).editor.document = { e.document with nodes := Forest.map f e.document.nodes } ∧
    (∀ p ∈ e.document.filled fields, f p.1 = { p.1 with characters := some p.2 }) ∧
    ∀ a ∈ e.document.attributes, a ∉ (e.document.filled fields).map Prod.fst → f a = a
  changed : e.document.filled fields ≠ [] →
    ∃ o, (e.fillFields fields).answer = .ok o ∧ o.changed = (e.document.filled fields).length
  refused : e.document.filled fields = [] →
    (e.fillFields fields).answer = .error (if e.document.roots = [] then .emptySelection else .noText)

namespace Document

variable {d : Document} {fields : List Field} {a : Attributes}

theorem mem_leaves (ha : a ∈ d.leaves) : a ∈ d.attributes ∧ a.kind = .text := by
  obtain ⟨t, ht, rfl⟩ := List.mem_map.1 ha
  obtain ⟨root, hroot, ht⟩ := List.mem_flatMap.1 ht
  obtain ⟨hreached, hkind⟩ := List.mem_filter.1 ht
  exact ⟨mem_attributes_of_reached hroot hreached, beq_iff_eq.1 hkind⟩

theorem taken_sublist (d : Document) (fields : List Field) : ((d.taken fields).map Prod.fst).Sublist d.leaves := by
  have hzip : ∀ l : List (Attributes × Option String),
      ((l.filterMap fun p => p.2.map fun value => (p.1, value)).map Prod.fst).Sublist (l.map Prod.fst) := by
    intro l
    induction l with
    | nil => exact .slnil
    | cons p l ih =>
      obtain ⟨a, value⟩ := p
      cases value with
      | none => exact ih.cons _
      | some value => exact ih.cons_cons _
  refine (hzip _).trans ?_
  rw [List.map_fst_zip (by simp [Field.length_handed])]

theorem filled_sublist (d : Document) (fields : List Field) : ((d.filled fields).map Prod.fst).Sublist d.leaves :=
  (List.filter_sublist.map _).trans (d.taken_sublist fields)

theorem mem_leaves_of_filled {p : Attributes × String} (hp : p ∈ d.filled fields) : p.1 ∈ d.leaves :=
  (d.filled_sublist fields).subset (List.mem_map_of_mem hp)

theorem nodup_leaves (hroots : (d.roots.flatMap Tree.ids).Nodup) : (d.leaves.map Attributes.id).Nodup := by
  refine hroots.sublist ?_
  rw [leaves, List.map_map, List.map_flatMap]
  induction d.roots with
  | nil => exact .slnil
  | cons root roots ih =>
    rw [List.flatMap_cons, List.flatMap_cons]
    refine List.Sublist.append ?_ ih
    have htexts : (root.texts.map Tree.label).Sublist root.labels :=
      (List.filter_sublist.map _).trans root.labels_reached_sublist
    rw [Tree.ids, ← List.map_map]
    exact htexts.map _

/-- The rules that write the values. -/
def writes (d : Document) (fields : List Field) : List Rewrite :=
  (d.filled fields).map fun p => ⟨p.1.id, fun _ => p.2⟩

theorem rewriteAll_writes (d : Document) (fields : List Field) (a : Attributes) :
    (a.id ∉ (d.filled fields).map (fun p => p.1.id) ∧ a.rewriteAll (d.writes fields) = a) ∨
      ∃ p ∈ d.filled fields, p.1.id = a.id ∧
        a.rewriteAll (d.writes fields) = { a with characters := some p.2 } := by
  have hids : (d.writes fields).map Rewrite.id = (d.filled fields).map fun p => p.1.id := by
    rw [writes, List.map_map]
    rfl
  rcases Attributes.rewriteAll_cases (d.writes fields) a with hnone | ⟨r, hr, hid, text, htext⟩
  · rw [hids] at hnone
    exact .inl hnone
  · obtain ⟨p, hp, rfl⟩ := List.mem_map.1 hr
    exact .inr ⟨p, hp, hid, htext⟩

theorem leaves_eq_nil (hroots : d.roots = []) : d.leaves = [] := by
  rw [leaves, hroots]
  rfl

end Document

namespace Editor

variable {e : Editor} {fields : List Field}

/-- A fill writes the values that the texts take into those that can be written, and counts them. -/
theorem fillFields_eq (fields : List Field) (hd : (e.document.attributes.map Attributes.id).Nodup) :
    let r := e.fillFields fields
    let n := (e.document.filled fields).length
    r.editor.document = e.document.rewriteAll (e.document.writes fields) ∧
      r.answer = if n = 0 then .error (if e.document.roots = [] then .emptySelection else .noText)
        else .ok ⟨n, s!"{n}개의 텍스트에 데이터를 순서대로 적용했습니다."⟩ := by
  dsimp only
  rw [fillFields, onSelection_eq]
  by_cases hroots : e.document.roots = []
  · have hfilled : e.document.filled fields = [] := by
      rw [Document.filled, Document.taken, Document.leaves_eq_nil hroots]
      rfl
    simp only [Document.writes, hfilled, hroots, if_true]
    exact ⟨Document.rewriteAll_nil.symm, rfl⟩
  · have hassigned : (Pools.ofFields fields).assign e.document.leaves =
        (e.document.taken fields).map fun p => ⟨p.1.id, p.2⟩ := by
      rw [Pools.assign_eq, Document.taken, List.map_filterMap]
      exact List.filterMap_congr fun p _ => by rw [Option.map_map]; rfl
    have hloads : ∀ p ∈ e.document.taken fields, e.document.loadsAt p.1.id = e.document.loads p.1 := by
      intro p hp
      have hleaf := (e.document.taken_sublist fields).subset (List.mem_map_of_mem hp)
      exact Document.loadsAt_id hd (Document.mem_leaves hleaf).1
    have hitems : ∀ x ∈ (e.document.taken fields).map fun p => (⟨p.1.id, p.2⟩ : Pools.Assignment),
        ∃ a ∈ e.document.attributes, a.id = x.id ∧ a.kind = .text := by
      intro x hx
      obtain ⟨p, hp, rfl⟩ := List.mem_map.1 hx
      obtain ⟨hmem, hkind⟩ :=
        Document.mem_leaves ((e.document.taken_sublist fields).subset (List.mem_map_of_mem hp))
      exact ⟨p.1, hmem, rfl, hkind⟩
    have hwritten : (e.document.taken fields).filter
        ((fun x : Pools.Assignment => e.document.loadsAt x.id) ∘ fun p => ⟨p.1.id, p.2⟩) = e.document.filled fields :=
      List.filter_congr hloads
    -- of the values that are handed out, those in texts with fonts that can be loaded are written
    obtain ⟨hdocument, hchanged⟩ :=
      Batch.run_writeText "round_robin_fill" (fun (x : Pools.Assignment) _ => x.value) hd hitems
    rw [List.filter_map, List.map_map, hwritten, ← hassigned] at hdocument
    rw [List.countP_map, List.countP_eq_length_filter, hwritten, ← hassigned] at hchanged
    rw [if_neg hroots, if_neg hroots]
    refine ⟨hdocument, ?_⟩
    rw [← hchanged]
    rfl

/-- Without overlaps each text that takes a value and can be written holds it after a fill. -/
theorem fillsInTurn (fields : List Field) (hd : (e.document.attributes.map Attributes.id).Nodup)
    (hroots : (e.document.roots.flatMap Tree.ids).Nodup) : e.FillsInTurn fields := by
  obtain ⟨hdocument, hanswer⟩ := fillFields_eq fields hd
  have hnodup : ((e.document.filled fields).map fun p => p.1.id).Nodup := by
    have hsublist := (e.document.filled_sublist fields).map Attributes.id
    rw [List.map_map] at hsublist
    exact (Document.nodup_leaves hroots).sublist hsublist
  refine ⟨⟨_, hdocument, fun p hp => ?_, fun a ha hnot => ?_⟩, fun hsome => ?_, fun hnone => ?_⟩
  · -- the value is not written over, since no other text that is filled has the same id
    rcases e.document.rewriteAll_writes fields p.1 with ⟨hnot, -⟩ | ⟨q, hq, hid, hwritten⟩
    · exact absurd (List.mem_map_of_mem (f := fun p : Attributes × String => p.1.id) hp) hnot
    · obtain rfl := List.inj_on_of_nodup_map hnodup hq hp hid
      exact hwritten
  · rcases e.document.rewriteAll_writes fields a with ⟨-, hsame⟩ | ⟨q, hq, hid, -⟩
    · exact hsame
    · have hmem := (Document.mem_leaves (Document.mem_leaves_of_filled hq)).1
      obtain rfl := Document.eq_of_id hd hmem ha hid
      exact absurd (List.mem_map_of_mem hq) hnot
  · rw [hanswer, if_neg (mt List.length_eq_zero_iff.1 hsome)]
    exact ⟨_, rfl, rfl⟩
  · rw [hanswer, if_pos (List.length_eq_zero_iff.2 hnone)]

end Editor

/-- A selected frame with texts, one of which is named like the first of two fields and one of which cannot be written
because of its font. -/
def Document.cards : Document where
  nodes := [.branch (.bare "1:1" "Frame" .frame)
    [.leaf (.bare "1:2" "Text" .text),
     .leaf { Attributes.bare "1:3" "NAME" .text with fontName := some (.single ⟨"Lost", "Regular"⟩) },
     .leaf (.bare "1:4" "Text" .text), .leaf (.bare "1:5" "Text" .text), .leaf (.bare "1:6" "name" .text)]]
  selection := ["1:1"]
  styles := []
  unavailableFonts := ["Lost"]
  images := .empty

namespace Editor

theorem fillsInTurn_cards :
    let e := opening .cards
    let fields : List Field := [⟨"Name", "", ["A", "B", "C"], 2⟩, ⟨"Job", "", [], 5⟩]
    (e.document.attributes.map Attributes.id).Nodup ∧ (e.document.roots.flatMap Tree.ids).Nodup ∧
      e.FillsInTurn fields ∧
      (e.document.filled fields).map (fun p => (p.1.id, p.2)) = [("1:2", "A"), ("1:5", "C"), ("1:6", "A")] := by
  intro e fields
  have hd : (e.document.attributes.map Attributes.id).Nodup := by decide
  have hroots : (e.document.roots.flatMap Tree.ids).Nodup := by decide
  exact ⟨hd, hroots, fillsInTurn fields hd hroots, by decide⟩

end Editor

end DesignCanvas
