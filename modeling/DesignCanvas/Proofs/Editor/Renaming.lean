import DesignCanvas.Proofs.Editor.Naming

/-!
# Renaming from a plan

A plan lists ids with the names for them, and its names are drawn one after another, one for each id, also for an id
that no node has. So no name goes to the node of another entry (`Batch.drawNames_eq`): every node is left with the name
of the last entry for it, nothing else in the document is changed, and the entries are counted that are for a node
(`Editor.rename_aligned`).
-/

namespace DesignCanvas

/-- Names the nodes with some ids one after another. Each takes the first of the names that are left, or the empty name
if none is left, whether the node is there or not. -/
def Batch.drawNames (operation : String) : List String → List String → Batch → Batch
  | [], _, b => b
  | id :: ids, names, b =>
    drawNames operation ids names.tail (b.take operation id (Step.setName (names.headD "") b.editor id))

theorem Batch.drawNames_eq (operation : String) (rs : List Renaming) (b : Batch) :
    drawNames operation (rs.map Renaming.id) (rs.map Renaming.name) b =
      rs.foldl (fun b r => b.take operation r.id (r.step b.editor)) b := by
  induction rs generalizing b with
  | nil => rfl
  | cons r rs ih =>
    have hdrawn : Step.setName ((r :: rs).map Renaming.name |>.headD "") b.editor r.id = r.step b.editor := rfl
    rw [List.map_cons, drawNames, hdrawn, List.map_cons, List.tail_cons, ih, List.foldl_cons]

namespace Editor

variable {e : Editor}

theorem editor_renaming (e : Editor) (r : Renaming) :
    (r.step e).editor = { e with document := (r.step e).editor.document } := by
  rw [Renaming.step, Step.setName, setName]
  cases hchange : e.change r.id fun a => .ok { a with name := r.name } with
  | error x => rfl
  | ok e' =>
    obtain ⟨n, a, -, -, rfl⟩ := change_ok hchange
    rfl

theorem editor_renamings (e : Editor) (rs : List Renaming) :
    let last := Batch.last e (Batch.history Renaming.id Renaming.step e rs)
    last = { e with document := last.document } := by
  induction rs generalizing e with
  | nil => rfl
  | cons r rs ih =>
    intro last
    have hrest : last = { (r.step e).editor with document := last.document } := ih (r.step e).editor
    rw [hrest, editor_renaming e r]

theorem editor_rename (hd : (e.document.attributes.map Attributes.id).Nodup) (rs : List Renaming) :
    (e.rename rs).editor = { e with document := e.document.renamed rs } := by
  have hdocument := (history_renamings hd rs).1
  rw [rename, runRenamings, Batch.run_eq]
  exact (editor_renamings e rs).trans (congrArg (fun document => { e with document }) hdocument)

theorem drawNames_rename (e : Editor) (rs : List Renaming) :
    e.rename rs = (Batch.drawNames "rename_layers" (rs.map Renaming.id) (rs.map Renaming.name) (.start e)).finish
      .nothingToRename fun n => s!"{n}개의 레이어 이름을 변경했습니다." := by
  rw [Batch.drawNames_eq]
  rfl

/-- A plan leaves every node that it has entries for the name of the last of them, and everything else as it was. It
counts the entries for which there is a node, and is refused, with nothing changed, just if there are none. -/
theorem rename_aligned (e : Editor) (rs : List Renaming) (hd : (e.document.attributes.map Attributes.id).Nodup) :
    let r := e.rename rs
    let named := rs.countP fun c => (e.document.find? c.id).isSome
    r = (Batch.drawNames "rename_layers" (rs.map Renaming.id) (rs.map Renaming.name) (.start e)).finish
        .nothingToRename (fun n => s!"{n}개의 레이어 이름을 변경했습니다.") ∧
      r.editor = { e with document := { e.document with
        nodes := Forest.map (fun a => { a with name := (Renaming.last? rs a.id).getD a.name }) e.document.nodes } } ∧
      (named ≠ 0 → r.answer = .ok ⟨named, s!"{named}개의 레이어 이름을 변경했습니다."⟩) ∧
      (r.answer = .error .nothingToRename ∧ r.editor.document = e.document ↔ named = 0) := by
  intro r named
  have heditor : r.editor = { e with document := e.document.renamed rs } := editor_rename hd rs
  have hanswer : r.answer = if named = 0 then .error .nothingToRename
      else .ok ⟨named, s!"{named}개의 레이어 이름을 변경했습니다."⟩ := answer_runRenamings hd _ rs _
  refine ⟨drawNames_rename e rs, heditor, fun hsome => by rw [hanswer, if_neg hsome], ?_, fun hnone => ?_⟩
  · rintro ⟨hrefused, -⟩
    by_contra hsome
    rw [hanswer, if_neg hsome] at hrefused
    cases hrefused
  · refine ⟨by rw [hanswer, if_pos hnone], ?_⟩
    rw [heditor]
    -- no entry is the last one for a node, as none is for a node
    refine congrArg (fun nodes => { e.document with nodes }) (Forest.map_eq_self fun a ha => ?_)
    have hlast : Renaming.last? rs a.id = none := by
      refine Renaming.last?_eq_none.2 fun c hc hid => ?_
      have hmem : a.id ∈ e.document.attributes.map Attributes.id := List.mem_map_of_mem ha
      exact List.countP_eq_zero.1 hnone c hc (Document.find?_isSome.2 (hid ▸ hmem))
    rw [Attributes.renamed, hlast]
    rfl

end Editor

/-- A page with two shapes. -/
def Document.pair : Document where
  nodes := [.branch (.bare "1:1" "Page" .page)
    [.leaf (.bare "1:2" "Left" .rectangle), .leaf (.bare "1:3" "Right" .ellipse)]]
  selection := []
  styles := []
  unavailableFonts := []
  images := .empty

namespace Editor

/-- The plan names one shape twice and asks in between for nodes that are not there. -/
theorem rename_aligned_pair :
    let e := opening .pair
    let rs : List Renaming :=
      [⟨"9:9", "Lost"⟩, ⟨"1:3", "A"⟩, ⟨"9:9", "Lost"⟩, ⟨"1:2", "B"⟩, ⟨"1:3", "C"⟩, ⟨"8:8", "Gone"⟩]
    let named := rs.countP fun c => (e.document.find? c.id).isSome
    (e.document.attributes.map Attributes.id).Nodup ∧ named = 3 ∧
      (e.rename rs).answer = .ok ⟨3, "3개의 레이어 이름을 변경했습니다."⟩ ∧
      (e.rename rs).editor.document.attributes.map Attributes.name = ["Page", "B", "C"] := by
  intro e rs named
  have hd : (e.document.attributes.map Attributes.id).Nodup := by decide
  have hnamed : rs.countP (fun c => (e.document.find? c.id).isSome) = 3 := by decide
  obtain ⟨-, heditor, hanswer, -⟩ := rename_aligned e rs hd
  rw [hnamed] at hanswer
  refine ⟨hd, hnamed, hanswer (by decide), ?_⟩
  rw [heditor]
  decide

end Editor

end DesignCanvas
