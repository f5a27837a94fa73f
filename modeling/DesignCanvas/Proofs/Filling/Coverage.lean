import DesignCanvas.Proofs.Filling.Fields
import Mathlib.Data.Fintype.EquivFin
import Mathlib.Data.List.Dedup

/-!
# Which fields fill all texts

A text takes no value if the field that it is assigned has none, also when other fields have some. So a fill leaves no
text below a selected node without a value, whatever the document, just if all fields have values
(`Editor.fillsAll_iff`): a field without values is reached in turn by one of the texts in a long enough column
(`Editor.not_fillsAll_column`).
-/

namespace DesignCanvas

/-- After a fill every text below a selected node that can be written holds a value of a field, and at least as many
texts were counted. -/
structure Editor.FillsAll (e : Editor) (fields : List Field) : Prop where
  held : ∀ a ∈ e.document.leaves, e.document.loads a →
    ∃ b ∈ (e.fillFields fields).editor.document.attributes, b.id = a.id ∧
      ∃ f ∈ fields, ∃ value ∈ f.values, b.characters = some value
  changed : e.document.leaves.filter e.document.loads ≠ [] → ∃ o, (e.fillFields fields).answer = .ok o ∧
    ((e.document.leaves.filter e.document.loads).map Attributes.id).dedup.length ≤ o.changed

/-! ## Fields with values -/

namespace Document

variable {d : Document} {fields : List Field} {a : Attributes} {p : Attributes × String}

theorem value_of_mem_taken (hp : p ∈ d.taken fields) : ∃ f ∈ fields, p.2 ∈ f.values := by
  obtain ⟨q, hq, hqp⟩ := List.mem_filterMap.1 hp
  obtain ⟨value, hvalue, rfl⟩ := Option.map_eq_some_iff.1 hqp
  obtain ⟨before, name, heq⟩ := Field.exists_of_mem_handed (List.of_mem_zip hq).2
  obtain ⟨f, hf, hget⟩ := Option.bind_eq_some_iff.1 (heq.symm.trans hvalue)
  exact ⟨f, List.mem_of_getElem? hf, List.mem_of_getElem? hget⟩

theorem exists_mem_taken (hfields : fields ≠ []) (hvalues : ∀ f ∈ fields, f.values ≠ []) (ha : a ∈ d.leaves) :
    ∃ value, (a, value) ∈ d.taken fields := by
  have hlength : d.leaves.length ≤ (Field.handed fields (d.leaves.map Attributes.name)).length := by
    simp [Field.length_handed]
  rw [← List.map_fst_zip hlength] at ha
  obtain ⟨⟨a, v⟩, hmem, rfl⟩ := List.mem_map.1 ha
  obtain ⟨before, name, heq⟩ := Field.exists_of_mem_handed (List.of_mem_zip hmem).2
  have hi := Field.turn_lt hfields before name
  have hpos := List.length_pos_iff.2 (hvalues _ (List.getElem_mem hi))
  have hsome : v.isSome := by
    rw [show v = _ from heq, Field.valueAt, List.getElem?_eq_getElem hi, Option.bind_some,
      List.getElem?_eq_getElem (Nat.mod_lt _ hpos)]
    rfl
  obtain ⟨value, rfl⟩ := Option.isSome_iff_exists.1 hsome
  exact ⟨value, List.mem_filterMap.2 ⟨(a, some value), hmem, rfl⟩⟩

end Document

namespace Editor

variable {e : Editor} {fields : List Field}

theorem fillsAll_of_values (hd : (e.document.attributes.map Attributes.id).Nodup) (hfields : fields ≠ [])
    (hvalues : ∀ f ∈ fields, f.values ≠ []) : e.FillsAll fields := by
  obtain ⟨hdocument, hanswer⟩ := fillFields_eq fields hd
  have hfilled : ∀ a ∈ e.document.leaves, e.document.loads a → ∃ value, (a, value) ∈ e.document.filled fields := by
    intro a ha hloads
    obtain ⟨value, hvalue⟩ := Document.exists_mem_taken hfields hvalues ha
    exact ⟨value, List.mem_filter.2 ⟨hvalue, hloads⟩⟩
  refine ⟨fun a ha hloads => ?_, fun hsome => ?_⟩
  · rw [hdocument, Document.attributes_rewriteAll]
    refine ⟨_, List.mem_map_of_mem (Document.mem_leaves ha).1, Attributes.id_rewriteAll _ a, ?_⟩
    obtain ⟨value, hvalue⟩ := hfilled a ha hloads
    rcases e.document.rewriteAll_writes fields a with ⟨hnot, -⟩ | ⟨p, hp, -, hwritten⟩
    · exact absurd (List.mem_map_of_mem (f := fun p : Attributes × String => p.1.id) hvalue) hnot
    · obtain ⟨f, hf, hmem⟩ := Document.value_of_mem_taken (List.mem_filter.1 hp).1
      exact ⟨f, hf, p.2, hmem, by rw [hwritten]⟩
  · have hsubset : ((e.document.leaves.filter e.document.loads).map Attributes.id).dedup ⊆
        (e.document.filled fields).map fun p => p.1.id := by
      intro id hid
      obtain ⟨a, ha, rfl⟩ := List.mem_map.1 (List.mem_dedup.1 hid)
      obtain ⟨hleaf, hloads⟩ := List.mem_filter.1 ha
      obtain ⟨value, hvalue⟩ := hfilled a hleaf hloads
      exact List.mem_map_of_mem (f := fun p : Attributes × String => p.1.id) hvalue
    have hle := (List.subperm_of_subset (List.nodup_dedup _) hsubset).length_le
    rw [List.length_map] at hle
    obtain ⟨a, ha⟩ := List.exists_mem_of_ne_nil _ hsome
    have hpos := List.length_pos_of_mem (List.mem_dedup.2 (List.mem_map_of_mem (f := Attributes.id) ha))
    rw [hanswer, if_neg (by omega)]
    exact ⟨_, rfl, hle⟩

end Editor

/-! ## A field without values -/

/-- A name of so many letters. -/
def letters (n : Nat) : String :=
  String.ofList (List.replicate n 'a')

theorem length_letters (n : Nat) : (letters n).length = n := by
  simp [letters]

theorem letters_injective : Function.Injective letters := fun m n h => by
  rw [← length_letters m, h, length_letters]

theorem lowered_letters (n : Nat) : Text.lowered (letters n) = letters n := by
  have hlower : ∀ before, Text.lowerAfter before (List.replicate n 'a') = List.replicate n 'a' := by
    induction n with
    | zero => exact fun _ => rfl
    | succ n ih =>
      intro before
      rw [List.replicate_succ, Text.lowerAfter, if_neg (by decide), ih, show Text.lowerChar 'a' = ['a'] by decide]
      rfl
  rw [letters, Text.lowered, Text.lower, String.toList_ofList, hlower]

theorem exists_letters_notMem (texts : List String) : ∃ n, letters n ∉ texts := by
  obtain ⟨n, hn⟩ := Infinite.exists_notMem_finset (texts.map String.length).toFinset
  refine ⟨n, fun hmem => hn ?_⟩
  rw [List.mem_toFinset, ← length_letters n]
  exact List.mem_map_of_mem hmem

def Attributes.cell (s : String) (k : Nat) : Attributes :=
  { Attributes.bare (letters (k + 1)) s .text with characters := some s }

/-- A selected frame with so many texts, all with the same name and the same text. -/
def Document.column (s : String) (n : Nat) : Document where
  nodes := [.branch (.bare "" "Frame" .frame) (((List.range n).map (Attributes.cell s)).map .leaf)]
  selection := [""]
  styles := []
  unavailableFonts := []
  images := .empty

namespace Document

variable {s : String} {n : Nat}

theorem attributes_column :
    (column s n).attributes = .bare "" "Frame" .frame :: (List.range n).map (Attributes.cell s) := by
  rw [attributes, column, Forest.labels, Tree.labels, Forest.labels_leaves, Forest.labels, List.append_nil]

theorem nodup_column : ((column s n).attributes.map Attributes.id).Nodup := by
  have hids : (column s n).attributes.map Attributes.id = (List.range (n + 1)).map letters := by
    rw [attributes_column, List.range_succ_eq_map, List.map_cons, List.map_cons, List.map_map, List.map_map]
    rfl
  rw [hids]
  exact List.nodup_range.map letters_injective

theorem leaves_column : (column s n).leaves = (List.range n).map (Attributes.cell s) := by
  have hroots : (column s n).roots = (column s n).nodes := rfl
  have htexts : ∀ as : List Attributes, (∀ a ∈ as, a.kind = .text) →
      ((Tree.branch (.bare "" "Frame" .frame) (as.map .leaf)).texts).map Tree.label = as := by
    intro as has
    have hframe : ¬ (Tree.branch (.bare "" "Frame" .frame) (as.map .leaf) : Node).isText := Bool.false_ne_true
    rw [Tree.texts, Tree.reached, Tree.visited_eq, walkDepth, Tree.reach, if_neg hframe, Forest.reach_leaves,
      List.map_cons, List.map_map, List.filter_cons_of_neg hframe, List.filter_map, List.map_map]
    refine (List.map_id _).trans (List.filter_eq_self.2 fun a ha => ?_)
    exact beq_iff_eq.2 (has a ha)
  rw [leaves, hroots, column, List.flatMap_singleton]
  refine htexts _ fun a ha => ?_
  obtain ⟨k, -, rfl⟩ := List.mem_map.1 ha
  rfl

/-- The last text of a column takes no value if it is the turn of a field without values. -/
theorem taken_column {fields : List Field} {f : Field} {i : Nat} (hname : Field.index? fields s = none)
    (hf : fields[i]? = some f) (hvalues : f.values = []) :
    ∀ p ∈ (column s (i + 1)).taken fields, ∃ k < i, p.1 = .cell s k := by
  have hnames : ∀ n, ((List.range n).map (Attributes.cell s)).map Attributes.name = List.replicate n s := by
    intro n
    rw [List.map_map, ← List.length_range (n := n), ← List.map_const', List.length_range]
    rfl
  -- none of the texts is named like a field, so the one after `i` others has the field at position `i`
  have hturn : Field.turn fields (List.replicate i s) s = i := by
    have hlt : i < fields.length := (List.getElem?_eq_some_iff.1 hf).1
    rw [Field.turn, hname, Field.unmatched, List.countP_replicate, hname, Option.getD_none]
    exact Nat.mod_eq_of_lt hlt
  have hnone : Field.valueAt fields (Field.turns fields (List.replicate i s)) i = none := by
    rw [Field.valueAt, hf, Option.bind_some, hvalues]
    rfl
  have hlength : ((List.range i).map (Attributes.cell s)).length = (Field.handed fields (List.replicate i s)).length := by
    simp [Field.length_handed]
  intro p hp
  rw [taken, leaves_column, hnames, List.range_succ, List.map_append, List.replicate_succ', Field.handed_concat, hturn,
    hnone, List.map_singleton, List.zip_append hlength, List.filterMap_append] at hp
  rcases List.mem_append.1 hp with hp | hp
  · obtain ⟨q, hq, hqp⟩ := List.mem_filterMap.1 hp
    obtain ⟨value, -, rfl⟩ := Option.map_eq_some_iff.1 hqp
    obtain ⟨k, hk, hcell⟩ := List.mem_map.1 (List.of_mem_zip hq).1
    exact ⟨k, List.mem_range.1 hk, hcell.symm⟩
  · exact absurd hp List.not_mem_nil

end Document

namespace Editor

variable {fields : List Field}

/-- A field without values leaves a text of a column as it was. -/
theorem not_fillsAll_column {s : String} {f : Field} {i : Nat} (hname : Field.index? fields s = none)
    (hf : fields[i]? = some f) (hvalues : f.values = []) (hnew : ∀ f ∈ fields, s ∉ f.values) :
    ¬ (opening (.column s (i + 1))).FillsAll fields := by
  intro h
  have hd : ((opening (.column s (i + 1))).document.attributes.map Attributes.id).Nodup := Document.nodup_column
  obtain ⟨hdocument, -⟩ := fillFields_eq fields hd
  have hleaf : Attributes.cell s i ∈ (Document.column s (i + 1)).leaves := by
    rw [Document.leaves_column]
    exact List.mem_map_of_mem (List.mem_range.2 (Nat.lt_succ_self i))
  obtain ⟨b, hb, hid, f', hf', value, hvalue, hcharacters⟩ := h.held (.cell s i) hleaf rfl
  rw [hdocument, Document.attributes_rewriteAll] at hb
  obtain ⟨a, ha, rfl⟩ := List.mem_map.1 hb
  rw [Attributes.id_rewriteAll] at hid
  obtain rfl := Document.eq_of_id hd ha (Document.mem_leaves hleaf).1 hid
  rcases Document.rewriteAll_writes _ fields (Attributes.cell s i) with ⟨-, hsame⟩ | ⟨p, hp, hpid, -⟩
  · rw [hsame] at hcharacters
    obtain rfl : s = value := Option.some.inj hcharacters
    exact hnew f' hf' hvalue
  · obtain ⟨k, hk, hcell⟩ := Document.taken_column hname hf hvalues p (List.mem_filter.1 hp).1
    rw [hcell] at hpid
    have hsucc : k + 1 = i + 1 := letters_injective hpid
    omega

/-- Whatever the document, a fill leaves no text without a value just if there are fields and all of them have
values. -/
theorem fillsAll_iff (fields : List Field) :
    (∀ e : Editor, (e.document.attributes.map Attributes.id).Nodup → e.FillsAll fields) ↔
      fields ≠ [] ∧ ∀ f ∈ fields, f.values ≠ [] := by
  refine ⟨fun h => ⟨?_, fun f hf hvalues => ?_⟩, fun ⟨hfields, hvalues⟩ e hd => fillsAll_of_values hd hfields hvalues⟩
  · rintro rfl
    obtain ⟨b, -, -, f, hf, -⟩ := (h (opening (.column "" 1)) Document.nodup_column).held (.cell "" 0)
      (by rw [Editor.opening, Document.leaves_column]; exact List.mem_singleton.2 rfl) rfl
    exact absurd hf List.not_mem_nil
  · obtain ⟨i, hi⟩ := List.mem_iff_getElem?.1 hf
    -- the texts of the column are named like no field and hold no value of one
    obtain ⟨n, hn⟩ := exists_letters_notMem
      (fields.map (fun f => Text.lowered f.name) ++ fields.flatMap Field.values)
    rw [List.mem_append, not_or] at hn
    have hname : Field.index? fields (letters n) = none := by
      rw [Field.index?, List.findIdx?_eq_none_iff]
      intro f hf
      rw [lowered_letters, beq_eq_false_iff_ne]
      intro heq
      exact hn.1 (List.mem_map.2 ⟨f, hf, heq⟩)
    refine not_fillsAll_column hname hi hvalues (fun f hf hmem => ?_) (h _ Document.nodup_column)
    exact hn.2 (List.mem_flatMap.2 ⟨f, hf, hmem⟩)

end Editor

/-- A selected frame with two texts. -/
def Document.draft : Document where
  nodes := [.branch (.bare "1:1" "Frame" .frame)
    [.leaf { Attributes.bare "1:2" "First" .text with characters := some "old" },
     .leaf { Attributes.bare "1:3" "Second" .text with characters := some "old" }]]
  selection := ["1:1"]
  styles := []
  unavailableFonts := []
  images := .empty

namespace Editor

/-- The first text is assigned the field without values and is left as it is. -/
theorem not_fillsAll_draft :
    let e := opening .draft
    let fields : List Field := [⟨"a", "", [], 0⟩, ⟨"b", "", ["x"], 0⟩]
    let r := e.fillFields fields
    (e.document.attributes.map Attributes.id).Nodup ∧ (∃ f ∈ fields, f.values ≠ []) ∧ ¬ e.FillsAll fields ∧
      r.answer.toOption.map Outcome.changed = some 1 ∧
      r.editor.document.attributes.map Attributes.text = ["", "old", "x"] := by
  intro e fields r
  have hone : r.answer.toOption.map Outcome.changed = some 1 := by decide +kernel
  refine ⟨by decide, by decide, fun h => ?_, hone, by decide +kernel⟩
  obtain ⟨o, ho, hchanged⟩ := h.changed (by decide)
  rw [show r.answer = .ok o from ho] at hone
  have htwo : 2 ≤ o.changed := hchanged
  rw [Option.some.inj hone] at htwo
  exact absurd htwo (by decide)

end Editor

end DesignCanvas
