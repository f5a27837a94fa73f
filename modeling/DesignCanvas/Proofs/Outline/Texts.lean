import DesignCanvas.Outline.Records
import DesignCanvas.Proofs.Text.Blank
import DesignCanvas.Proofs.Tree.Walk

/-!
# Collected texts

The texts of a design are collected in three ways: the text nodes themselves, records of them that say where they are,
and their characters for the spelling. Each of these is a walk of its own with its own test of what is blank. They are
compared here with the places of the tree, which are the same for all three (`Tree.textSpots`): there is a record for
each of them that has something to read (`Document.forall₂_textRecords`), and the texts to be checked are those of the
records (`Document.textsToCheck_eq`).
-/

namespace DesignCanvas

/-! ## Places of texts -/

/-- The places of the texts of a tree that are in no other text, none of them deeper than a walk goes. -/
def Tree.textSpots (n : Node) : List (Visited Attributes) :=
  n.spots.filter fun v => v.within Tree.isText walkDepth && v.tree.isText

/-- The places of the texts below the selected nodes. -/
def Document.textSpots (d : Document) : List (Visited Attributes) :=
  d.roots.flatMap Tree.textSpots

/-- There are characters, and trimming them leaves some. -/
def Attributes.isLegible (a : Attributes) : Bool :=
  a.characters.any fun s => decide (Text.trimmed s ≠ "")

/-- A record tells the node at a place, its characters as they are, and the names of the nodes above it. -/
structure TextRecord.Of (v : Visited Attributes) (r : TextRecord) : Prop where
  nodeId : r.nodeId = v.tree.id
  name : r.name = v.tree.label.name
  text : v.tree.label.characters = some r.text
  path : r.path = " > ".intercalate (v.ancestors.map fun n => n.label.name)

theorem isWritten_iff (s : String) : isWritten s ↔ Text.trimmed s ≠ "" := by
  rw [Text.trimmed, Ne, String.ofList_eq_empty_iff, Text.trim_eq_nil_iff, isWritten, Text.allBlank,
    Bool.not_eq_true', ← Bool.not_eq_true, List.all_eq_true]

theorem Attributes.isWritten_text (a : Attributes) : isWritten a.text = a.isLegible := by
  rw [text, isLegible]
  cases a.characters with
  | none => rfl
  | some s =>
    rw [Option.getD_some, Option.any_some, Bool.eq_iff_iff, isWritten_iff, decide_eq_true_iff]

theorem Tree.textSpots_eq (n : Node) : n.textSpots = (n.visited Tree.isText).filter fun v => v.tree.isText := by
  rw [textSpots, visited_eq_filter, List.filter_filter]
  exact List.filter_congr fun v _ => Bool.and_comm ..

theorem Tree.map_textSpots (n : Node) : n.textSpots.map Visited.tree = n.texts := by
  rw [textSpots_eq, texts, reached, List.filter_map]
  rfl

/-! ## Records -/

namespace TextRecord

variable {v : Visited Attributes} {r : TextRecord}

theorem isSome_ofVisited? (v : Visited Attributes) :
    (ofVisited? v).isSome = (v.tree.isText && v.tree.label.isLegible) := by
  rw [ofVisited?, ← Attributes.isWritten_text]
  split <;> simp_all

theorem of_ofVisited? (h : ofVisited? v = some r) : r.Of v := by
  have hlegible : v.tree.label.isLegible := by
    have hsome := isSome_ofVisited? v
    rw [h, Option.isSome_some, eq_comm, Bool.and_eq_true] at hsome
    exact hsome.2
  rw [ofVisited?] at h
  split at h
  · obtain rfl := Option.some.inj h
    refine ⟨rfl, rfl, ?_, rfl⟩
    rw [Attributes.isLegible] at hlegible
    cases hs : v.tree.label.characters with
    | none => simp [hs] at hlegible
    | some s => simp [Attributes.text, hs]
  · cases h

end TextRecord

theorem Tree.forall₂_textRecords (n : Node) :
    List.Forall₂ TextRecord.Of (n.textSpots.filter fun v => v.tree.label.isLegible) n.textRecords := by
  rw [textSpots_eq, List.filter_filter, textRecords]
  refine forall₂_filter_filterMap (fun v => ?_) (fun _ _ => TextRecord.of_ofVisited?) _
  rw [TextRecord.isSome_ofVisited?, Bool.and_comm]

theorem TextRecord.filterMap_characters {vs : List (Visited Attributes)} {rs : List TextRecord}
    (h : List.Forall₂ Of vs rs) : vs.filterMap (fun v => v.tree.label.characters) = rs.map TextRecord.text := by
  induction h with
  | nil => rfl
  | cons hof _ ih => simp [hof.text, ih]

namespace Document

variable (d : Document)

theorem map_textSpots : d.textSpots.map Visited.tree = d.roots.flatMap Tree.texts := by
  simp only [textSpots, List.map_flatMap, Tree.map_textSpots]

theorem forall₂_textRecords :
    List.Forall₂ TextRecord.Of (d.textSpots.filter fun v => v.tree.label.isLegible) d.textRecords := by
  rw [textSpots, textRecords]
  induction d.roots with
  | nil => exact .nil
  | cons root roots ih =>
    rw [List.flatMap_cons, List.flatMap_cons, List.filter_append]
    exact List.rel_append root.forall₂_textRecords ih

theorem filter_isWritten :
    ((d.roots.flatMap Tree.texts).filterMap fun n => n.label.characters).filter isWritten =
      d.textRecords.map TextRecord.text := by
  rw [← map_textSpots, List.filterMap_map, List.filter_filterMap,
    ← TextRecord.filterMap_characters d.forall₂_textRecords, List.filterMap_filter]
  refine List.filterMap_congr fun v _ => ?_
  rw [← Attributes.isWritten_text, Function.comp_apply, Attributes.text]
  cases v.tree.label.characters with
  | none => simp
  | some s => simp [Option.filter]

theorem textsToCheck_eq :
    d.textsToCheck =
      if d.roots = [] then .error .emptySelection
      else if d.textRecords = [] then .error .nothingToCheck
      else .ok (d.textRecords.map TextRecord.text) := by
  have htexts := d.filter_isWritten
  rw [textsToCheck, selectedNodes]
  cases hroots : d.roots with
  | nil => rfl
  | cons root roots =>
    rw [hroots] at htexts
    simp only [htexts, bind, Except.bind, List.isEmpty_iff, List.map_eq_nil_iff, if_neg (List.cons_ne_nil _ _)]

/-- The text nodes below the selected nodes, the records and the texts to be checked are collected from the same places
in the same order. There is a record, with the node, its characters and the names above it, for each of them that has
something to read, and the check has just their characters. -/
theorem collects_texts :
    d.textSpots.map Visited.tree = d.roots.flatMap Tree.texts ∧
      List.Forall₂ TextRecord.Of (d.textSpots.filter fun v => v.tree.label.isLegible) d.textRecords ∧
      d.textsToCheck =
        if d.roots = [] then .error .emptySelection
        else if d.textRecords = [] then .error .nothingToCheck
        else .ok (d.textRecords.map TextRecord.text) :=
  ⟨d.map_textSpots, d.forall₂_textRecords, d.textsToCheck_eq⟩

end Document

end DesignCanvas
