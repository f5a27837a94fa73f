import DesignCanvas.Proofs.Editor.Naming
import DesignCanvas.Proofs.Tree.Places

/-!
# Names inside reusable parts

Renaming what is selected passes over the reusable parts that it comes to from the selected nodes, but it does not look
at what these nodes themselves are inside of. So it leaves the names in and of reusable parts alone just if every
selected node that is inside such a part is one itself (`Editor.leavesParts_iff`).
-/

namespace DesignCanvas

/-- The node is a component, a set of components or an instance. -/
def Attributes.isReusable (a : Attributes) : Bool :=
  a.kind.isReusable

theorem Attributes.not_isReusable_of_role? {a : Attributes} {inAutoLayout : Bool} {role : Role}
    (h : a.role? inAutoLayout = some role) : a.isReusable = false := by
  rw [role?] at h
  split at h
  · cases h
  · next hkind => exact Bool.eq_false_iff.2 hkind

namespace Editor

/-- What is reusable and what is at any depth inside of it has the name that it had. -/
def SparesParts (e e' : Editor) : Prop :=
  ∀ p ∈ Forest.places e.document.nodes, p.spared Attributes.isReusable = false →
    ∃ n, e'.document.find? p.label.id = some n ∧ n.label.name = p.label.name

/-- No renaming of what is selected changes a name in or of a reusable part. -/
def LeavesParts (e : Editor) : Prop :=
  (∀ name, e.SparesParts (e.renameSelected name).editor) ∧ e.SparesParts e.renameByRole.editor

end Editor

namespace Document

variable {d : Document}

theorem label_mem_of_place {p : Place Attributes} (hp : p ∈ Forest.places d.nodes) : p.label ∈ d.attributes := by
  rw [attributes, ← Forest.labels_places]
  exact List.mem_map_of_mem hp

section Distinct

variable (hd : (d.attributes.map Attributes.id).Nodup)

include hd

theorem eq_of_place {p p' : Place Attributes} (hp : p ∈ Forest.places d.nodes) (hp' : p' ∈ Forest.places d.nodes)
    (h : p.label.id = p'.label.id) : p = p' := by
  have hids : ((Forest.places d.nodes).map fun p => p.label.id).Nodup := by
    rwa [attributes, ← Forest.labels_places, List.map_map] at hd
  exact List.inj_on_of_nodup_map hids hp hp' h

theorem name_renamed (rs : List Renaming) {a : Attributes} (ha : a ∈ d.attributes) :
    ∃ n, (d.renamed rs).find? a.id = some n ∧ n.label.name = (Renaming.last? rs a.id).getD a.name := by
  obtain ⟨n, hn, rfl⟩ := find?_of_mem hd ha
  refine ⟨n.map (Attributes.renamed rs), by rw [find?_renamed, hn]; rfl, ?_⟩
  rw [Tree.label_map]
  rfl

end Distinct

/-- If no selected node is inside a reusable part without being one, a walk that stops at reusable parts comes to no
node inside of one. -/
theorem spared_of_visited (h : ∀ p ∈ Forest.places d.nodes, p.label.id ∈ d.selection →
      p.label.isReusable = false → p.clear Attributes.isReusable)
    {root : Node} (hroot : root ∈ d.roots) {v : Visited Attributes} (hv : v ∈ root.visited Tree.isReusable)
    (hlabel : v.tree.isReusable = false) :
    ∃ p ∈ Forest.places d.nodes, p.label.id = v.tree.id ∧ p.spared Attributes.isReusable := by
  obtain ⟨id, hid, hfind⟩ := List.mem_filterMap.1 hroot
  obtain ⟨outer, hplaces⟩ := Forest.places_find? hfind
  have hvisited : v.place ∈ root.places ∧ v.place.within Attributes.isReusable walkDepth := by
    rw [← List.mem_filter, ← Tree.places_visited (q := Attributes.isReusable) (fun _ => rfl)]
    exact List.mem_map_of_mem hv
  have hclear : v.place.clear Attributes.isReusable := (Bool.and_eq_true_iff.1 hvisited.2).2
  have hspared : v.place.spared Attributes.isReusable :=
    Bool.and_eq_true_iff.2 ⟨by rw [show Attributes.isReusable v.place.label = false from hlabel]; rfl, hclear⟩
  -- a reusable root would be the only node that the walk comes to
  have hroot' : root.label.isReusable = false := by
    by_contra hreusable
    rw [Bool.not_eq_false] at hreusable
    have hmem := List.mem_filter.2 ⟨hvisited.1, hspared⟩
    rw [Tree.filter_spared_eq_nil hreusable] at hmem
    exact List.not_mem_nil hmem
  have houter : outer.all fun a => !a.isReusable := by
    have hplace : ⟨[], root.label⟩ ∈ root.places := by cases root <;> simp [Tree.places, Tree.label]
    have hmem := hplaces.subset (List.mem_map_of_mem hplace)
    have hselected : root.id ∈ d.selection := by rwa [id_of_find? hfind]
    have hroot_clear := h _ hmem hselected hroot'
    rwa [Place.clear, Place.under, List.append_nil] at hroot_clear
  refine ⟨v.place.under outer, hplaces.subset (List.mem_map_of_mem hvisited.1), rfl, ?_⟩
  rw [Place.spared, Place.clear, Place.under, List.all_append, houter, Bool.true_and]
  exact hspared

theorem last?_renamingsTo (name : String) {root : Node} (hroot : root ∈ d.roots) (hkind : root.isReusable = false) :
    Renaming.last? (d.renamingsTo name) root.id = some name := by
  have hself : root ∈ root.reached Tree.isReusable := root.mem_reached_self _
  have hmem : ⟨root.id, name⟩ ∈ d.renamingsTo name :=
    List.mem_map.2 ⟨root, List.mem_filter.2 ⟨List.mem_flatMap.2 ⟨root, hroot, hself⟩, by rw [hkind]; rfl⟩, rfl⟩
  cases hlast : Renaming.last? (d.renamingsTo name) root.id with
  | none => exact absurd rfl (Renaming.last?_eq_none.1 hlast _ hmem)
  | some other =>
    obtain ⟨n, -, hn⟩ := List.mem_map.1 (Renaming.last?_eq_some hlast)
    rw [(Renaming.mk.inj hn).2]

end Document

namespace Editor

theorem sparesParts_renamed {e e' : Editor} {rs : List Renaming} (hd : (e.document.attributes.map Attributes.id).Nodup)
    (he' : e'.document = e.document.renamed rs)
    (h : ∀ r ∈ rs, ∃ p ∈ Forest.places e.document.nodes, p.label.id = r.id ∧ p.spared Attributes.isReusable) :
    e.SparesParts e' := by
  intro p hp hspared
  obtain ⟨n, hn, hname⟩ := Document.name_renamed hd rs (Document.label_mem_of_place hp)
  have hnone : Renaming.last? rs p.label.id = none := by
    refine Renaming.last?_eq_none.2 fun r hr hid => ?_
    obtain ⟨p', hp', hid', hspared'⟩ := h r hr
    obtain rfl := Document.eq_of_place hd hp' hp (hid'.trans hid)
    rw [hspared] at hspared'
    cases hspared'
  exact ⟨n, by rw [he', hn], by rw [hname, hnone, Option.getD_none]⟩

section Distinct

variable {e : Editor} (hd : (e.document.attributes.map Attributes.id).Nodup)

include hd

/-- A selected node that is in a reusable part without being one gets whatever name is asked for, one that it did not
have among others. -/
theorem clear_of_sparesParts (hselected : ∀ name, e.SparesParts (e.renameSelected name).editor)
    {p : Place Attributes} (hp : p ∈ Forest.places e.document.nodes) (hid : p.label.id ∈ e.document.selection)
    (hkind : p.label.isReusable = false) : p.clear Attributes.isReusable := by
  by_contra hclear
  have hspared : p.spared Attributes.isReusable = false := by
    rw [Place.spared, Bool.eq_false_iff.2 hclear, Bool.and_false]
  obtain ⟨root, hfind, hlabel⟩ := Document.find?_of_mem hd (Document.label_mem_of_place hp)
  have hroot : root ∈ e.document.roots := List.mem_filterMap.2 ⟨_, hid, hfind⟩
  have hkind' : root.isReusable = false := by rwa [← hlabel] at hkind
  have hname : ∀ name, name = p.label.name := by
    intro name
    obtain ⟨n, hn, hkept⟩ := hselected name p hp hspared
    obtain ⟨n', hn', hgiven⟩ :=
      Document.name_renamed hd (e.document.renamingsTo name) (Document.label_mem_of_place hp)
    have hlast := Document.last?_renamingsTo name hroot hkind'
    rw [Tree.id, hlabel] at hlast
    rw [document_renameSelected hd name, hn'] at hn
    obtain rfl := Option.some.inj hn
    rw [← hkept, hgiven, hlast, Option.getD_some]
  exact absurd ((hname "").trans (hname "Layer").symm) (by decide)

variable (h : ∀ p ∈ Forest.places e.document.nodes, p.label.id ∈ e.document.selection →
  p.label.isReusable = false → p.clear Attributes.isReusable)

include h

theorem sparesParts_renameSelected (name : String) : e.SparesParts (e.renameSelected name).editor := by
  refine sparesParts_renamed hd (document_renameSelected hd name) fun r hr => ?_
  obtain ⟨n, hn, rfl⟩ := List.mem_map.1 hr
  obtain ⟨hreached, hkind⟩ := List.mem_filter.1 hn
  obtain ⟨root, hroot, hn⟩ := List.mem_flatMap.1 hreached
  obtain ⟨v, hv, rfl⟩ := List.mem_map.1 hn
  exact Document.spared_of_visited h hroot hv (by simpa using hkind)

theorem sparesParts_renameByRole : e.SparesParts e.renameByRole.editor := by
  refine sparesParts_renamed hd (document_renameByRole hd) fun r hr => ?_
  obtain ⟨v, hv, hr⟩ := List.mem_filterMap.1 hr
  obtain ⟨root, hroot, hv⟩ := List.mem_flatMap.1 hv
  obtain ⟨role, hrole, rfl⟩ := Option.map_eq_some_iff.1 hr
  exact Document.spared_of_visited h hroot hv (Attributes.not_isReusable_of_role? hrole)

end Distinct

/-- Renaming what is selected leaves the names in and of reusable parts alone just if no selected node is inside such a
part without being one. -/
theorem leavesParts_iff (e : Editor) (hd : (e.document.attributes.map Attributes.id).Nodup) :
    e.LeavesParts ↔ ∀ p ∈ Forest.places e.document.nodes, p.label.id ∈ e.document.selection →
      p.label.isReusable = false → p.clear Attributes.isReusable := by
  constructor
  · intro hleaves p hp hid hkind
    exact clear_of_sparesParts hd hleaves.1 hp hid hkind
  · intro h
    exact ⟨sparesParts_renameSelected hd h, sparesParts_renameByRole hd h⟩

end Editor

/-- A frame with a component that has a shape in it, and a shape that is in no component. -/
def Document.catalogue (selection : List String) : Document where
  nodes := [.branch (.bare "1:1" "Frame" .frame)
    [.branch (.bare "1:2" "Button" .component) [.leaf (.bare "1:3" "Icon" .rectangle)],
     .leaf (.bare "1:4" "Shape" .rectangle)]]
  selection
  styles := []
  unavailableFonts := []
  images := .empty

namespace Editor

theorem leavesParts_catalogue :
    let e := opening (.catalogue ["1:1", "1:2"])
    (e.document.attributes.map Attributes.id).Nodup ∧ e.LeavesParts ∧
      (e.renameSelected "Layer").editor.document.attributes.map Attributes.name =
        ["Layer", "Button", "Icon", "Layer"] := by
  intro e
  have hd : (e.document.attributes.map Attributes.id).Nodup := by decide
  exact ⟨hd, (leavesParts_iff e hd).2 (by decide +kernel), by decide +kernel⟩

/-- The shape in the component is selected itself, and the walk from it does not see what it is inside of. -/
theorem not_leavesParts_catalogue :
    let e := opening (.catalogue ["1:1", "1:3"])
    (e.document.attributes.map Attributes.id).Nodup ∧ ¬ e.LeavesParts ∧
      (e.renameSelected "Layer").editor.document.attributes.map Attributes.name =
        ["Layer", "Button", "Layer", "Layer"] := by
  intro e
  refine ⟨by decide, fun h => ?_, by decide +kernel⟩
  obtain ⟨n, hn, hname⟩ := h.1 "Layer"
    ⟨[.bare "1:1" "Frame" .frame, .bare "1:2" "Button" .component], .bare "1:3" "Icon" .rectangle⟩
    (by decide +kernel) (by decide)
  let icon (e : Editor) := (e.document.find? "1:3").map fun n => n.label.name
  have hkept : icon (e.renameSelected "Layer").editor = some "Icon" :=
    (congrArg (Option.map fun n => n.label.name) hn).trans (congrArg some hname)
  have hgiven : icon (e.renameSelected "Layer").editor = some "Layer" := by decide +kernel
  exact absurd (hkept.symm.trans hgiven) (by decide)

end Editor

end DesignCanvas
