import DesignCanvas.Assistant.Handle
import DesignCanvas.Proofs.Editor.History

/-!
# Histories of requests

The requests that work node by node, with the steps that they take (`Request.history`). Their results say of these
steps what a batch says of its own (`Editor.Ran`): the editor is the one that the last step left, but for the
selection, and the answer counts the steps that changed their nodes.
-/

namespace DesignCanvas

/-! ## Intents -/

namespace Intent

/-- What an intent does to one node. -/
def step : Intent → Editor → String → Step
  | replaceText search replacement =>
    Step.writeText fun s => String.ofList (Text.replaceFirst search.toList replacement.toList s.toList)
  | replaceAllText text => Step.writeText fun _ => text
  | setColor _ color => Step.setColor color
  | resizeWidth width => Step.setWidth (Decimal.ofInt width)
  | resizeHeight height => Step.setHeight (Decimal.ofInt height)
  | setOpacity percent => Step.setOpacity (opacityOfPercent percent)
  | duplicate => Step.copy
  | delete => Step.remove
  | setFontSize size => Step.setFontSize (Decimal.ofInt size)
  | move dx dy => Step.moveBy (Decimal.ofInt dx) (Decimal.ofInt dy)
  | reveal => Step.setVisible true
  | hide => Step.setVisible false
  | rename name => Step.setName name
  | setCornerRadius radius => Step.setCornerRadius (Decimal.ofInt radius)

/-- The nodes that an intent works on: the selected ones, or the texts below them. -/
def targets (d : Document) : Intent → List String
  | replaceText search _ => d.textIdsWith search
  | replaceAllText _ => d.textIds
  | _ => d.roots.map Tree.id

/-- The steps that an intent takes. -/
def history (e : Editor) (i : Intent) : List Taken :=
  Batch.history (fun id => id) i.step e (i.targets e.document)

end Intent

/-! ## Requests -/

def Step.seek (e : Editor) (id : String) : Step :=
  if (e.document.find? id).isSome then done e else pass e

namespace Document

/-- One name for the selected nodes and all below them, but for reusable parts. -/
def renamingsTo (d : Document) (name : String) : List Renaming :=
  ((d.roots.flatMap (Tree.reached Tree.isReusable)).filter fun n => !n.isReusable).map fun n => ⟨n.id, name⟩

/-- Names after their roles for the selected nodes and all below them, but for reusable parts. -/
def renamingsByRole (d : Document) : List Renaming :=
  (d.roots.flatMap (Tree.visited Tree.isReusable)).filterMap roleRenaming?

/-- The ids of the nodes below the selected ones that a picture can be put into. -/
def fillableIds (d : Document) : List String :=
  (d.roots.flatMap Tree.fillable).map Tree.id

def assignments (d : Document) (fields : List Field) : List Pools.Assignment :=
  (Pools.ofFields fields).assign ((d.roots.flatMap Tree.texts).map Tree.label)

end Document

namespace Request

/-- Requests that fill with pictures. -/
def fills : Request → Bool
  | fillPictures _ => true
  | _ => false

/-- The intent of a command that is understood. -/
def intent? : Request → Option Intent
  | command text => (Command.parse text).toOption
  | _ => none

/-- Requests that choose what is selected. -/
def chooses : Request → Bool
  | selectNode _ | selectNodes _ => true
  | _ => false

/-- Requests that work node by node and say how many nodes they changed. -/
def stepwise : Request → Bool
  | command _ | rename _ | renameSelected _ | renameByRole | fillTexts _ | fillFields _ | fillPictures _
  | selectNode _ | selectNodes _ => true
  | summary | layers | countNamed _ | audit _ _ | compare _ | spelling => false

/-- The steps that a request takes, one for each node that it works on. A command that is not understood takes
none. -/
def history (s : Settings) (e : Editor) : Request → List Taken
  | command text =>
    match Command.parse text with
    | .ok intent => intent.history e
    | .error _ => []
  | rename changes => Batch.history Renaming.id Renaming.step e changes
  | renameSelected name => Batch.history Renaming.id Renaming.step e (e.document.renamingsTo name)
  | renameByRole => Batch.history Renaming.id Renaming.step e e.document.renamingsByRole
  | fillTexts value => Batch.history (fun id => id) (Step.writeText fun _ => value) e e.document.textIds
  | fillFields fields => Batch.history Pools.Assignment.id Pools.Assignment.step e (e.document.assignments fields)
  | fillPictures kind =>
    Batch.history Prod.fst (Step.fillTurn s.source (.ofName kind) s.smallestEdge) e e.document.fillableIds.zipIdx
  | selectNode id => Batch.history (fun id => id) Step.seek e [id]
  | selectNodes ids => Batch.history (fun id => id) Step.seek e ids
  | summary | layers | countNamed _ | audit _ _ | compare _ | spelling => []

variable {s : Settings} {e : Editor} {r : Request}

theorem chain_history (s : Settings) (e : Editor) (r : Request) : Batch.Chain e (r.history s e) := by
  cases r with
  | command text =>
    rw [history]
    split
    · exact Batch.chain_history _ _ _ _
    · trivial
  | rename | renameSelected | renameByRole | fillTexts | fillFields | fillPictures | selectNode | selectNodes =>
    exact Batch.chain_history _ _ _ _
  | summary | layers | countNamed | audit | compare | spelling => trivial

/-- The steps of requests are those of intents, those of choices and the filling with pictures. -/
inductive Origin (s : Settings) (fills : Bool) (t : Taken) : Prop
  | intent (i : Intent) (step : t.step = i.step t.before t.node)
  | choice (step : t.step = Step.seek t.before t.node)
  | picture (fills : fills = true) (source : ImageSource) (kind : PictureKind)
      (step : t.step = Step.fillPicture source kind s.smallestEdge t.before t.node)

theorem origin_of_mem_history (s : Settings) (e : Editor) (r : Request) :
    ∀ t ∈ r.history s e, Origin s r.fills t := by
  cases r with
  | command text =>
    rw [history]
    split
    · next i _ => exact Batch.forall_history (fun _ _ => .intent i rfl) _ _
    · simp
  | rename changes => exact Batch.forall_history (fun _ c => .intent (.rename c.name) rfl) _ _
  | renameSelected name => exact Batch.forall_history (fun _ c => .intent (.rename c.name) rfl) _ _
  | renameByRole => exact Batch.forall_history (fun _ c => .intent (.rename c.name) rfl) _ _
  | fillTexts value => exact Batch.forall_history (fun _ _ => .intent (.replaceAllText value) rfl) _ _
  | fillFields fields => exact Batch.forall_history (fun _ a => .intent (.replaceAllText a.value) rfl) _ _
  | fillPictures kind =>
    exact Batch.forall_history (fun _ turn => .picture rfl (s.source.after turn.2) (.ofName kind) rfl) _ _
  | selectNode id => exact Batch.forall_history (fun _ _ => .choice rfl) _ _
  | selectNodes ids => exact Batch.forall_history (fun _ _ => .choice rfl) _ _
  | summary | layers | countNamed | audit | compare | spelling => simp [history]

end Request

/-! ## Results -/

namespace Editor

/-- The result of an operation with a given history. -/
structure Ran (e : Editor) (h : List Taken) (r : Result Outcome) : Prop where
  editor : r.editor = Batch.last e h ∨
    (0 < h.countP Taken.succeeded ∧ ∃ ids, r.editor = (Batch.last e h).select ids)
  answer : (h.countP Taken.succeeded = 0 ∧ ∃ refusal, r.answer = .error refusal) ∨
    (0 < h.countP Taken.succeeded ∧ ∃ message, r.answer = .ok ⟨h.countP Taken.succeeded, message⟩)
  notices : ∃ operation, r.trace.notices = h.filterMap (Taken.notice? operation)

namespace Ran

variable {e : Editor} {h : List Taken}

theorem refuse (e : Editor) (refusal : Refusal) : Ran e [] (.refuse e refusal) :=
  ⟨Or.inl rfl, Or.inl ⟨rfl, refusal, rfl⟩, "", rfl⟩

theorem onSelection {operation : List Node → Result Outcome} (hnone : e.document.roots = [] → h = [])
    (hsome : Ran e h (operation e.document.roots)) : Ran e h (e.onSelection operation) := by
  rw [onSelection_eq]
  split
  · next hroots =>
    rw [hnone hroots]
    exact refuse e _
  · exact hsome

theorem finish {operation : String} {id : α → String} {step : Editor → α → Step} {items : List α} {e : Editor}
    {refusal : Refusal} {message : Nat → String} :
    Ran e (Batch.history id step e items) ((Batch.run operation id step items e).finish refusal message) := by
  rw [Batch.run_eq]
  refine ⟨Or.inl rfl, ?_, operation, rfl⟩
  by_cases hn : (Batch.history id step e items).countP Taken.succeeded = 0
  · exact Or.inl ⟨hn, refusal, by simp [Batch.finish, hn]⟩
  · exact Or.inr ⟨Nat.pos_of_ne_zero hn, _, by simp only [Batch.finish, if_neg hn]; rfl⟩

variable {r : Result Outcome}

theorem error_of_eq_zero (hr : Ran e h r) (hzero : h.countP Taken.succeeded = 0) :
    ∃ refusal, r.answer = .error refusal := by
  rcases hr.answer with ⟨-, herror⟩ | ⟨hpos, -⟩
  · exact herror
  · omega

theorem ok_of_ne_zero (hr : Ran e h r) (hsome : h.countP Taken.succeeded ≠ 0) :
    ∃ message, r.answer = .ok ⟨h.countP Taken.succeeded, message⟩ := by
  rcases hr.answer with ⟨hzero, -⟩ | ⟨-, hok⟩
  · exact absurd hzero hsome
  · exact hok

theorem nodes (hr : Ran e h r) : r.editor.document.nodes = (Batch.last e h).document.nodes := by
  rcases hr.editor with hlast | ⟨-, ids, hlast⟩
  · rw [hlast]
  · rw [hlast]
    rfl

end Ran

/-! ### The operations -/

variable (e : Editor)

theorem targets_eq_nil {e : Editor} (i : Intent) (h : e.document.roots = []) : i.targets e.document = [] := by
  cases i <;> simp [Intent.targets, Document.textIds, Document.textIdsWith, h]

theorem duplicate_ran (ids : List String) :
    Ran e (Batch.history (fun id => id) Step.copy e ids) (e.duplicate ids) := by
  have hran : Ran e (Batch.history (fun id => id) Step.copy e ids)
      ((Batch.runIds "duplicate" Step.copy ids e).finish .nothingToDuplicate fun n =>
        s!"{n}개의 레이어를 복제했습니다.") :=
    Ran.finish
  unfold duplicate
  dsimp only
  split
  · exact hran
  · next hchanged =>
    refine ⟨Or.inr ⟨?_, (Batch.runIds "duplicate" Step.copy ids e).made, ?_⟩, hran.answer, hran.notices⟩
    · rw [Batch.runIds, Batch.run_eq] at hchanged
      exact Nat.pos_of_ne_zero hchanged
    · rw [Batch.runIds, Batch.run_eq]
      rfl

theorem each_ran (intent : Intent) (step : Editor → String → Step) (ids : List String) (refusal : Refusal)
    (message : Nat → String) :
    Ran e (Batch.history (fun id => id) step e ids) (e.each intent step ids refusal message) :=
  Ran.finish

theorem replaceText_ran (search replacement : String) :
    Ran e ((Intent.replaceText search replacement).history e) (e.replaceText search replacement) := by
  unfold replaceText
  exact Ran.finish

theorem replaceAllText_ran (text : String) :
    Ran e ((Intent.replaceAllText text).history e) (e.replaceAllText text) :=
  Ran.finish

/-- What an intent leaves and answers is what the steps on its targets say. -/
theorem applyTo_ran (i : Intent) : Ran e (i.history e) (e.applyTo (e.document.roots.map Tree.id) i) := by
  cases i with
  | replaceText search replacement => exact replaceText_ran e search replacement
  | replaceAllText text => exact replaceAllText_ran e text
  | duplicate => exact duplicate_ran e _
  | _ =>
    rw [applyTo]
    exact each_ran e _ _ _ _ _

theorem apply_ran (i : Intent) : Ran e (i.history e) (e.apply i) := by
  refine Ran.onSelection (fun hroots => ?_) (applyTo_ran e i)
  rw [Intent.history, targets_eq_nil i hroots, Batch.history]

theorem apply_editor {e : Editor} {i : Intent} (hduplicate : i ≠ .duplicate) :
    (e.apply i).editor = Batch.last e (i.history e) := by
  rw [apply, onSelection_eq]
  split
  · next hroots =>
    rw [Intent.history, targets_eq_nil i hroots]
    rfl
  · cases i with
    | duplicate => exact absurd rfl hduplicate
    | replaceText search replacement =>
      rw [applyTo, replaceText, Batch.runIds, Batch.run_eq]
      rfl
    | replaceAllText text =>
      rw [applyTo, replaceAllText, writeAll, Batch.runIds, Batch.run_eq]
      rfl
    | _ =>
      rw [applyTo, each, Batch.runIds, Batch.run_eq]
      rfl

theorem runRenamings_ran (operation : String) (changes : List Renaming) (message : Nat → String) :
    Ran e (Batch.history Renaming.id Renaming.step e changes) (e.runRenamings operation changes message) :=
  Ran.finish

theorem rename_ran (changes : List Renaming) :
    Ran e (Batch.history Renaming.id Renaming.step e changes) (e.rename changes) := by
  rw [rename]
  exact e.runRenamings_ran _ changes _

theorem renameSelected_ran (name : String) :
    Ran e (Batch.history Renaming.id Renaming.step e (e.document.renamingsTo name)) (e.renameSelected name) :=
  Ran.onSelection (fun hroots => by simp [Document.renamingsTo, hroots, Batch.history]) (e.runRenamings_ran _ _ _)

theorem renameByRole_ran :
    Ran e (Batch.history Renaming.id Renaming.step e e.document.renamingsByRole) e.renameByRole :=
  Ran.onSelection (fun hroots => by simp [Document.renamingsByRole, hroots, Batch.history])
    (e.runRenamings_ran _ _ _)

theorem fillTexts_ran (value : String) :
    Ran e (Batch.history (fun id => id) (Step.writeText fun _ => value) e e.document.textIds) (e.fillTexts value) :=
  Ran.onSelection (fun hroots => by simp [Document.textIds, hroots, Batch.history]) Ran.finish

theorem fillFields_ran (fields : List Field) :
    Ran e (Batch.history Pools.Assignment.id Pools.Assignment.step e (e.document.assignments fields))
      (e.fillFields fields) :=
  Ran.onSelection (fun hroots => by simp [Document.assignments, hroots, Pools.assign, Batch.history])
    Ran.finish

theorem fillPictures_ran (source : ChangingSource) (kind : PictureKind) (smallest : Nat) :
    Ran e (Batch.history Prod.fst (Step.fillTurn source kind smallest) e e.document.fillableIds.zipIdx)
      (e.fillPictures source kind smallest) := by
  refine Ran.onSelection (fun hroots => by simp [Document.fillableIds, hroots, Batch.history]) ?_
  dsimp only
  split
  · next hempty =>
    rw [Document.fillableIds, List.isEmpty_iff.1 hempty]
    exact Ran.refuse e _
  · exact Ran.finish

theorem taken_seek (id : String) :
    (Step.seek e id).editor = e ∧ Taken.succeeded ⟨id, e, Step.seek e id⟩ = (e.document.find? id).isSome ∧
      ∀ operation, Taken.notice? operation ⟨id, e, Step.seek e id⟩ = none := by
  by_cases hid : (e.document.find? id).isSome <;>
    simp [Step.seek, Step.done, Step.pass, Taken.succeeded, Taken.notice?, hid]

theorem history_seek (ids : List String) :
    let h := Batch.history (fun id => id) Step.seek e ids
    Batch.last e h = e ∧ h.countP Taken.succeeded = (ids.filter fun id => (e.document.find? id).isSome).length ∧
      ∀ operation, h.filterMap (Taken.notice? operation) = [] := by
  induction ids with
  | nil => simp [Batch.history, Batch.last]
  | cons id ids ih =>
    obtain ⟨hlast, hcount, hnotices⟩ := ih
    obtain ⟨heditor, hsucceeded, hnotice⟩ := taken_seek e id
    refine ⟨?_, ?_, fun operation => ?_⟩
    · simp only [Batch.history, Batch.last, heditor, hlast]
    · rw [Batch.history, List.countP_cons, heditor, hcount, hsucceeded, List.filter_cons]
      split <;> simp
    · rw [Batch.history, List.filterMap_cons_none (hnotice operation), heditor, hnotices]

theorem choose_ran (ids : List String) :
    Ran e (Batch.history (fun id => id) Step.seek e ids) (e.choose ids) := by
  obtain ⟨hlast, hcount, hnotices⟩ := history_seek e ids
  unfold choose
  dsimp only
  split
  · next hnone =>
    rw [List.isEmpty_iff] at hnone
    rw [hnone, List.length_nil] at hcount
    exact ⟨Or.inl hlast.symm, Or.inl ⟨hcount, _, rfl⟩, "", (hnotices "").symm⟩
  · next hsome =>
    rw [List.isEmpty_iff] at hsome
    have hpos : 0 < (Batch.history (fun id => id) Step.seek e ids).countP Taken.succeeded := by
      rw [hcount]
      exact List.length_pos_iff.2 hsome
    refine ⟨Or.inr ⟨hpos, ids.filter fun id => (e.document.find? id).isSome, ?_⟩, Or.inr ⟨hpos, ?_⟩, "",
      (hnotices "").symm⟩
    · rw [hlast]
      rfl
    · rw [hcount]
      exact ⟨_, rfl⟩

end Editor

end DesignCanvas
