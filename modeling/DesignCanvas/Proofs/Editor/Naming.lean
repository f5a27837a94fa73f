import DesignCanvas.Proofs.Assistant.History
import DesignCanvas.Proofs.Document.Addressing

/-!
# Renaming nodes one after another

Renamings are carried out one at a time, and they may name a node more than once or no node at all. In a document with
distinct ids they leave what they would leave if all nodes were renamed at once, each after the last renaming for its id
(`Editor.history_renamings`).
-/

namespace DesignCanvas

/-- The name that the last of some renamings for an id gives, if there is one. -/
def Renaming.last? (rs : List Renaming) (id : String) : Option String :=
  (rs.reverse.find? fun r => r.id == id).map Renaming.name

/-- The attributes with the name that some renamings leave. -/
def Attributes.renamed (rs : List Renaming) (a : Attributes) : Attributes :=
  { a with name := (Renaming.last? rs a.id).getD a.name }

/-- The document with the names that some renamings leave. -/
def Document.renamed (d : Document) (rs : List Renaming) : Document :=
  { d with nodes := Forest.map (Attributes.renamed rs) d.nodes }

namespace Renaming

variable {r : Renaming} {rs : List Renaming} {id : String}

theorem last?_cons (r : Renaming) (rs : List Renaming) (id : String) :
    last? (r :: rs) id = (last? rs id).or (if r.id = id then some r.name else none) := by
  rw [last?, List.reverse_cons, List.find?_append, last?, List.find?_singleton]
  cases rs.reverse.find? fun r => r.id == id with
  | some r' => rfl
  | none => by_cases hid : r.id = id <;> simp [hid]

theorem last?_append (rs rs' : List Renaming) (id : String) :
    last? (rs ++ rs') id = (last? rs' id).or (last? rs id) := by
  rw [last?, List.reverse_append, List.find?_append, Option.map_or]
  rfl

theorem last?_eq_none : last? rs id = none ↔ ∀ r ∈ rs, r.id ≠ id := by
  simp [last?]

theorem last?_eq_some {name : String} (h : last? rs id = some name) : ⟨id, name⟩ ∈ rs := by
  obtain ⟨r, hr, rfl⟩ := Option.map_eq_some_iff.1 h
  have hid : r.id = id := beq_iff_eq.1 (List.find?_some (p := fun r : Renaming => r.id == id) hr)
  rw [← hid]
  exact List.mem_reverse.1 (List.mem_of_find?_eq_some hr)

end Renaming

namespace Attributes

variable {a : Attributes} {rs : List Renaming}

theorem renamed_cons (r : Renaming) (rs : List Renaming) (a : Attributes) :
    a.renamed (r :: rs) = (a.renamed [r]).renamed rs := by
  simp only [renamed, Renaming.last?_cons]
  cases Renaming.last? rs a.id <;> rfl

theorem renamed_renamed (rs : List Renaming) (a : Attributes) : (a.renamed rs).renamed rs = a.renamed rs := by
  simp only [renamed]
  cases Renaming.last? rs a.id <;> rfl

end Attributes

namespace Document

variable {d : Document} {rs : List Renaming} {id : String}

theorem renamed_cons (d : Document) (r : Renaming) (rs : List Renaming) :
    d.renamed (r :: rs) = (d.renamed [r]).renamed rs := by
  refine congrArg (fun nodes => { d with nodes }) ?_
  exact (Forest.map_congr fun a _ => Attributes.renamed_cons r rs a).trans (Forest.map_map ..).symm

theorem renamed_nil (d : Document) : d.renamed [] = d :=
  congrArg (fun nodes => { d with nodes }) (Forest.map_eq_self fun _ _ => rfl)

theorem renamed_renamed (d : Document) (rs : List Renaming) : (d.renamed rs).renamed rs = d.renamed rs :=
  congrArg (fun nodes => { d with nodes })
    ((Forest.map_map ..).trans (Forest.map_congr fun a _ => a.renamed_renamed rs))

theorem ids_renamed : (d.renamed rs).attributes.map Attributes.id = d.attributes.map Attributes.id := by
  rw [attributes, renamed, Forest.labels_map, List.map_map]
  rfl

theorem find?_renamed : (d.renamed rs).find? id = (d.find? id).map (Tree.map (Attributes.renamed rs)) :=
  Forest.find?_map (fun _ => rfl) d.nodes

theorem isSome_find?_renamed : ((d.renamed rs).find? id).isSome = (d.find? id).isSome := by
  rw [find?_renamed, Option.isSome_map]

theorem renamed_of_find?_eq_none {r : Renaming} (h : d.find? r.id = none) : d.renamed [r] = d := by
  refine congrArg (fun nodes => { d with nodes }) (Forest.map_eq_self fun a ha => ?_)
  have hid : r.id ≠ a.id := fun hid => by
    have hsome : (d.find? r.id).isSome := find?_isSome.2 (hid ▸ List.mem_map_of_mem ha)
    rw [h] at hsome
    exact absurd hsome (by simp)
  simp [Attributes.renamed, Renaming.last?, hid]

end Document

namespace Editor

theorem step_renaming {e : Editor} (hd : (e.document.attributes.map Attributes.id).Nodup) (r : Renaming) :
    (r.step e).editor.document = e.document.renamed [r] ∧
      Taken.succeeded ⟨r.id, e, r.step e⟩ = (e.document.find? r.id).isSome := by
  cases hfind : e.document.find? r.id with
  | none =>
    have hstep : r.step e = .fail e (.nodeNotFound r.id) := by
      rw [Renaming.step, Step.setName, setName, change, hfind]
      rfl
    rw [hstep, Document.renamed_of_find?_eq_none hfind]
    exact ⟨rfl, rfl⟩
  | some n =>
    have hid : n.label.id = r.id := Document.id_of_find? hfind
    have hn : n.label ∈ e.document.attributes := Document.label_mem_attributes hfind
    have hstep : r.step e = .done { e with document := { e.document with
        nodes := Forest.map (fun a => if a.id = n.label.id then { a with name := r.name } else a)
          e.document.nodes } } := by
      rw [Renaming.step, Step.setName, setName, ← hid]
      exact congrArg (Step.ofEdit e) (change_eq_ok hd hn rfl)
    rw [hstep]
    refine ⟨congrArg (fun nodes => { e.document with nodes }) (Forest.map_congr fun a _ => ?_), rfl⟩
    by_cases ha : r.id = a.id
    · simp [Attributes.renamed, Renaming.last?, hid, ha]
    · simp [Attributes.renamed, Renaming.last?, hid, ha, Ne.symm ha]

/-- Renamings one after another leave every node the name of the last one for its id, and those succeed that are for a
node. -/
theorem history_renamings {e : Editor} (hd : (e.document.attributes.map Attributes.id).Nodup) (rs : List Renaming) :
    let taken := Batch.history Renaming.id Renaming.step e rs
    (Batch.last e taken).document = e.document.renamed rs ∧
      taken.countP Taken.succeeded = rs.countP fun r => (e.document.find? r.id).isSome := by
  induction rs generalizing e with
  | nil => exact ⟨e.document.renamed_nil.symm, rfl⟩
  | cons r rs ih =>
    obtain ⟨hstep, hsucceeded⟩ := step_renaming hd r
    obtain ⟨hlast, hcount⟩ := ih (e := (r.step e).editor) (by rwa [hstep, Document.ids_renamed])
    refine ⟨?_, ?_⟩
    · rw [Batch.history, Batch.last, hlast, hstep, ← Document.renamed_cons]
    · rw [Batch.history, List.countP_cons, hcount, hsucceeded, List.countP_cons, hstep]
      simp only [Document.isSome_find?_renamed]

variable {e : Editor}

theorem document_runRenamings (hd : (e.document.attributes.map Attributes.id).Nodup) (operation : String)
    (rs : List Renaming) (message : Nat → String) :
    (e.runRenamings operation rs message).editor.document = e.document.renamed rs := by
  rw [runRenamings, Batch.run_eq]
  exact (history_renamings hd rs).1

theorem answer_runRenamings (hd : (e.document.attributes.map Attributes.id).Nodup) (operation : String)
    (rs : List Renaming) (message : Nat → String) :
    (e.runRenamings operation rs message).answer =
      let n := rs.countP fun r => (e.document.find? r.id).isSome
      if n = 0 then .error .nothingToRename else .ok ⟨n, message n⟩ := by
  rw [runRenamings, Batch.run_eq, ← (history_renamings hd rs).2]
  rfl

theorem document_onSelection (hd : (e.document.attributes.map Attributes.id).Nodup)
    (renamings : List Node → List Renaming) (hnil : renamings [] = []) (operation : String) (message : Nat → String) :
    (e.onSelection fun ns => e.runRenamings operation (renamings ns) message).editor.document =
      e.document.renamed (renamings e.document.roots) := by
  rw [onSelection_eq]
  split
  · next hroots =>
    rw [hroots, hnil]
    exact e.document.renamed_nil.symm
  · exact document_runRenamings hd _ _ _

theorem document_renameSelected (hd : (e.document.attributes.map Attributes.id).Nodup) (name : String) :
    (e.renameSelected name).editor.document = e.document.renamed (e.document.renamingsTo name) :=
  document_onSelection hd (fun ns : List Node =>
    ((ns.flatMap (Tree.reached Tree.isReusable)).filter fun n : Node => !n.isReusable).map
      fun n : Node => ⟨n.id, name⟩) rfl _ _

theorem document_renameByRole (hd : (e.document.attributes.map Attributes.id).Nodup) :
    e.renameByRole.editor.document = e.document.renamed e.document.renamingsByRole :=
  document_onSelection hd (fun ns => (ns.flatMap (Tree.visited Tree.isReusable)).filterMap roleRenaming?) rfl _ _

end Editor

end DesignCanvas
