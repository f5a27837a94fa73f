import DesignCanvas.Proofs.Document.Distinct
import DesignCanvas.Proofs.Tree.Single
import DesignCanvas.Proofs.Tree.Walk

/-!
# Addressing by id

In a document whose nodes have distinct ids, an id stands for one node. So changing, copying and removing through an
id is changing, copying and removing at every node that has it, and the whole forest afterwards is given by an
equation: `Editor.nodes_change`, `Editor.nodes_copyNode`, `Editor.nodes_removeNode`.
-/

namespace DesignCanvas

theorem Forest.countP_hasId {ns : List Node} {id : String} (hd : ((labels ns).map Attributes.id).Nodup)
    (h : id ∈ (labels ns).map Attributes.id) : (labels ns).countP (Attributes.hasId id) = 1 := by
  have hcount := List.count_eq_one_of_mem hd h
  rwa [List.count, List.countP_map] at hcount

namespace Document

variable {d : Document} {id : String} {n : Node} {a : Attributes}

theorem label_mem_attributes (h : d.find? id = some n) : n.label ∈ d.attributes := by
  have hlabel := Forest.label_find? (Attributes.hasId id) d.nodes
  rw [show Forest.find? (Attributes.hasId id) d.nodes = some n from h, Option.map_some] at hlabel
  exact List.mem_of_find?_eq_some hlabel.symm

theorem id_of_find? (h : d.find? id = some n) : n.id = id :=
  beq_iff_eq.1 (Forest.label_of_find? h)

theorem find?_isSome : (d.find? id).isSome ↔ id ∈ d.attributes.map Attributes.id := by
  rw [find?, Forest.find?_isSome, List.mem_map]
  exact exists_congr fun a => and_congr_right fun _ => beq_iff_eq

theorem mem_attributes_of_root (hn : n ∈ d.roots) (ha : a ∈ n.labels) : a ∈ d.attributes := by
  obtain ⟨id, -, hid⟩ := List.mem_filterMap.1 hn
  exact (Forest.labels_infix_of_find? hid).subset ha

theorem mem_attributes_of_reached {stop : Node → Bool} {root : Node} (hroot : root ∈ d.roots)
    (hn : n ∈ root.reached stop) : n.label ∈ d.attributes :=
  mem_attributes_of_root hroot (Tree.label_mem_of_reached hn)

theorem ids_roots (d : Document) :
    d.roots.map Tree.id = d.selection.filter fun id => (d.find? id).isSome := by
  rw [roots, List.map_filterMap]
  induction d.selection with
  | nil => rfl
  | cons id ids ih =>
    cases hid : d.find? id with
    | none => rw [List.filterMap_cons_none (by rw [hid]; rfl), List.filter_cons_of_neg (by simp [hid]), ih]
    | some n =>
      rw [List.filterMap_cons_some (b := id) (by rw [hid, Option.map_some, id_of_find? hid]),
        List.filter_cons_of_pos (by simp [hid]), ih]

theorem mem_ids_of_root (h : id ∈ d.roots.map Tree.id) : id ∈ d.attributes.map Attributes.id := by
  rw [ids_roots] at h
  exact find?_isSome.1 (List.mem_filter.1 h).2

/-- The node is selected by its id. -/
def selects (d : Document) (a : Attributes) : Bool :=
  a.id ∈ d.selection

theorem mem_ids_roots (ha : a ∈ d.attributes) : a.id ∈ d.roots.map Tree.id ↔ d.selects a := by
  have hid : (d.find? a.id).isSome := find?_isSome.2 (List.mem_map_of_mem ha)
  rw [ids_roots, List.mem_filter, and_iff_left hid, selects, decide_eq_true_iff]

theorem roots_map {d' : Document} {g : Attributes → Attributes} (hid : ∀ a, (g a).id = a.id)
    (hnodes : d'.nodes = Forest.map g d.nodes) (hselection : d'.selection = d.selection) :
    d'.roots = d.roots.map (Tree.map g) := by
  have hfind : ∀ id, d'.find? id = (d.find? id).map (Tree.map g) := by
    intro id
    rw [find?, hnodes, Forest.find?_map (q := Attributes.hasId id) fun a => by rw [Attributes.hasId, hid]; rfl]
    rfl
  rw [roots, roots, hselection, List.map_filterMap]
  exact List.filterMap_congr fun id _ => hfind id

section Distinct

variable (hd : (d.attributes.map Attributes.id).Nodup)

include hd

theorem eq_of_id {b : Attributes} (ha : a ∈ d.attributes) (hb : b ∈ d.attributes) (h : a.id = b.id) : a = b :=
  List.inj_on_of_nodup_map hd ha hb h

theorem id_mem_ids_iff {as : List Attributes} (has : as ⊆ d.attributes) (ha : a ∈ d.attributes) :
    a.id ∈ as.map Attributes.id ↔ a ∈ as := by
  refine ⟨fun hid => ?_, List.mem_map_of_mem⟩
  obtain ⟨b, hb, hid⟩ := List.mem_map.1 hid
  rwa [← eq_of_id hd (has hb) ha hid]

theorem find?_of_mem (ha : a ∈ d.attributes) : ∃ n, d.find? a.id = some n ∧ n.label = a := by
  obtain ⟨n, hn⟩ := Option.isSome_iff_exists.1 (find?_isSome.2 (List.mem_map_of_mem ha))
  exact ⟨n, hn, eq_of_id hd (label_mem_attributes hn) ha (id_of_find? hn)⟩

theorem countP_hasId (h : id ∈ d.attributes.map Attributes.id) :
    (Forest.labels d.nodes).countP (Attributes.hasId id) = 1 :=
  Forest.countP_hasId hd h

theorem nodes_setAttributes (h : d.find? id = some n) (a : Attributes) :
    (d.setAttributes id a).nodes = Forest.map (fun b => if b.id = id then a else b) d.nodes := by
  have hid : id ∈ d.attributes.map Attributes.id := find?_isSome.1 (by rw [h]; rfl)
  rw [setAttributes, Forest.modify?_eq_map (countP_hasId hd hid)]
  exact Forest.map_congr fun b _ => by simp [Attributes.hasId]

theorem nodes_setAttributes_label (h : d.find? id = some n) (f : Attributes → Attributes) :
    (d.setAttributes id (f n.label)).nodes = Forest.map (fun b => if b.id = id then f b else b) d.nodes := by
  rw [nodes_setAttributes hd h]
  refine Forest.map_congr fun b hb => ?_
  by_cases hid : b.id = id
  · have hbn : b = n.label := eq_of_id hd hb (label_mem_attributes h) (hid.trans (id_of_find? h).symm)
    rw [if_pos hid, if_pos hid, hbn]
  · rw [if_neg hid, if_neg hid]

end Distinct

end Document

namespace Editor

variable {e e' : Editor} {id new : String} {a : Attributes}

section Distinct

variable (hd : (e.document.attributes.map Attributes.id).Nodup)

include hd

/-- What a rule makes of a node stands in its place, and nothing else is changed. -/
theorem change_eq (ha : a ∈ e.document.attributes) (rule : Attributes → Except EditError Attributes) :
    e.change a.id rule = (rule a).map fun b => { e with document := { e.document with
      nodes := Forest.map (fun c => if c.id = a.id then b else c) e.document.nodes } } := by
  obtain ⟨n, hn, rfl⟩ := Document.find?_of_mem hd ha
  rw [change, hn]
  cases hrule : rule n.label with
  | error x => simp only [hrule, Except.map]
  | ok b => simp only [hrule, Except.map, ← Document.nodes_setAttributes hd hn, Document.setAttributes]

theorem change_eq_ok (ha : a ∈ e.document.attributes) {rule : Attributes → Except EditError Attributes}
    {f : Attributes → Attributes} (hrule : rule a = .ok (f a)) :
    e.change a.id rule = .ok { e with document := { e.document with
      nodes := Forest.map (fun b => if b.id = a.id then f b else b) e.document.nodes } } := by
  have hself : Forest.map (fun b => if b.id = a.id then f a else b) e.document.nodes =
      Forest.map (fun b => if b.id = a.id then f b else b) e.document.nodes := by
    refine Forest.map_congr fun b hb => ?_
    split
    · next hid => rw [Document.eq_of_id hd hb ha hid]
    · rfl
  rw [change_eq hd ha, hrule, ← hself]
  rfl

theorem nodes_change {rule : Attributes → Except EditError Attributes} {f : Attributes → Attributes}
    (hrule : ∀ a b, rule a = .ok b → b = f a) (h : e.change id rule = .ok e') :
    e'.document.nodes = Forest.map (fun a => if a.id = id then f a else a) e.document.nodes := by
  obtain ⟨n, a, hn, ha, rfl⟩ := change_ok h
  obtain rfl := hrule _ _ ha
  exact Document.nodes_setAttributes_label hd hn f

theorem nodes_change_error {rule : Attributes → Except EditError Attributes} {f : Attributes → Attributes}
    {x : EditError} (hrule : ∀ a x, rule a = .error x → f a = a) (h : e.change id rule = .error x) :
    Forest.map (fun a => if a.id = id then f a else a) e.document.nodes = e.document.nodes := by
  refine Forest.map_eq_self fun a ha => ?_
  split
  · next hid =>
    rw [← hid, change_eq hd ha] at h
    cases hok : rule a with
    | ok b => rw [hok] at h; cases h
    | error x => exact hrule a x hok
  · rfl

theorem nodes_copyNode (h : e.copyNode id = .ok (e', new)) :
    ∃ copy : Node, copy.id = new ∧ e'.document.nodes = Forest.graft (Attributes.hasId id) copy e.document.nodes := by
  obtain ⟨n, nodes, hn, hnodes, rfl, rfl⟩ := copyNode_ok h
  have hid : id ∈ e.document.attributes.map Attributes.id := Document.find?_isSome.1 (by rw [hn]; rfl)
  rw [Forest.insertAfter?_eq_graft (Document.countP_hasId hd hid)] at hnodes
  exact ⟨_, Tree.id_extendIds _ n, (Option.some.inj hnodes).symm⟩

theorem nodes_removeNode (h : id ∈ e.document.attributes.map Attributes.id) :
    ∃ e', e.removeNode id = .ok e' ∧
      e'.document.nodes = Forest.prune (Attributes.hasId id) e.document.nodes := by
  rw [removeNode, Forest.remove?_eq_prune (Document.countP_hasId hd h)]
  exact ⟨_, rfl, rfl⟩

end Distinct

end Editor

end DesignCanvas
