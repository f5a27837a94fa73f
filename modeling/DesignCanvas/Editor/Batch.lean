import DesignCanvas.Editor.Structure
import DesignCanvas.Filling.Source

/-!
# Batches

An operation on many nodes takes one step for each of them. A step that fails is noted and passed over, so that no
node keeps the others from being changed; the operation as a whole is refused when no node was changed.
-/

namespace DesignCanvas

/-! ## Refusals and notes -/

/-- Why an operation as a whole did nothing. -/
inductive Refusal where
  | emptySelection
  | nothingToResize
  | nothingToFade
  | nothingToDuplicate
  | nothingToDelete
  | nothingToSize
  | nothingToMove
  | nothingToReveal
  | nothingToHide
  | nothingToRename
  | nothingToRound
  | nothingToColor
  | nothingToFill
  | nothingFilled
  | nothingToCheck
  | nothingToCompare
  | nothingToSelect
  | noText
  | textNotFound (search : String)
  deriving DecidableEq, Repr

def Refusal.message : Refusal → String
  | emptySelection => "먼저 레이어를 선택해주세요."
  | nothingToResize => "크기를 변경할 수 있는 레이어가 없습니다."
  | nothingToFade => "투명도를 변경할 수 있는 레이어가 없습니다."
  | nothingToDuplicate => "복제할 레이어가 없습니다."
  | nothingToDelete => "삭제할 레이어가 없습니다."
  | nothingToSize => "선택된 레이어 중 텍스트가 없습니다."
  | nothingToMove => "이동할 레이어가 없습니다."
  | nothingToReveal => "표시할 레이어가 없습니다."
  | nothingToHide => "숨길 레이어가 없습니다."
  | nothingToRename => "이름을 변경할 레이어가 없습니다."
  | nothingToRound => "모서리 둥글기를 적용할 수 있는 레이어가 없습니다."
  | nothingToColor => "색상을 변경할 수 없는 레이어입니다."
  | nothingToFill => "이미지를 적용할 수 있는 레이어가 없습니다. (Frame, Rectangle, Ellipse 등)"
  | nothingFilled => "이미지를 적용하는데 실패했습니다."
  | nothingToCheck => "검사할 텍스트가 없습니다."
  | nothingToCompare => "비교할 내용이 없습니다."
  | nothingToSelect => "선택할 레이어를 찾을 수 없습니다."
  | noText => "선택된 영역에 텍스트가 없습니다."
  | textNotFound search => s!"\"{search}\" 텍스트를 찾을 수 없습니다."

/-- Why a step failed. -/
inductive StepError where
  | edit (error : EditError)
  | fetch (error : FetchError)
  deriving DecidableEq, Repr

def StepError.message : StepError → String
  | edit error => error.message
  | fetch error => error.message

/-- A failure that was passed over. -/
inductive Notice where
  | skipped (operation node : String) (error : StepError)
  | fixFailed (node : String) (error : EditError)
  deriving DecidableEq, Repr

/-- What happened on the way: failures that were passed over and addresses that were asked for. -/
structure Trace where
  notices : List Notice
  urls : List String
  deriving DecidableEq, Repr

def Trace.empty : Trace :=
  ⟨[], []⟩

def Trace.append (a b : Trace) : Trace :=
  ⟨a.notices ++ b.notices, a.urls ++ b.urls⟩

/-! ## Results -/

/-- How many nodes an operation changed, and what it says about that. -/
structure Outcome where
  changed : Nat
  message : String
  deriving DecidableEq, Repr

/-- What an operation leaves behind and answers. -/
structure Result (α : Type) where
  editor : Editor
  trace : Trace
  answer : Except Refusal α

def Result.refuse (e : Editor) (r : Refusal) : Result α :=
  ⟨e, .empty, .error r⟩

def Result.reply (e : Editor) (a : α) : Result α :=
  ⟨e, .empty, .ok a⟩

/-! ## Steps -/

/-- What a step leaves behind: whether it changed its node or failed, the addresses it asked for and the ids of
the nodes it made. -/
structure Step where
  editor : Editor
  verdict : Except StepError Bool
  urls : List String
  made : List String

namespace Step

/-- A step that changed its node. -/
def done (e : Editor) : Step :=
  ⟨e, .ok true, [], []⟩

/-- A step whose node is none of those that the operation is for. -/
def pass (e : Editor) : Step :=
  ⟨e, .ok false, [], []⟩

def fail (e : Editor) (error : EditError) : Step :=
  ⟨e, .error (.edit error), [], []⟩

def ofEdit (e : Editor) : Edit → Step
  | .ok e => done e
  | .error error => fail e error

/-- A step that begins with the node of an id. -/
def onNode (e : Editor) (id : String) (step : Attributes → Step) : Step :=
  match e.document.find? id with
  | some n => step n.label
  | none => fail e (.nodeNotFound id)

end Step

/-! ## Runs -/

/-- How far a batch has come. -/
structure Batch where
  editor : Editor
  changed : Nat
  trace : Trace
  made : List String

namespace Batch

def start (e : Editor) : Batch :=
  ⟨e, 0, .empty, []⟩

/-- Takes in what a step for a node has left. -/
def take (operation node : String) (b : Batch) (s : Step) : Batch :=
  { editor := s.editor
    changed := match s.verdict with
      | .ok true => b.changed + 1
      | _ => b.changed
    trace := b.trace.append
      { notices := match s.verdict with
          | .ok _ => []
          | .error error => [.skipped operation node error]
        urls := s.urls }
    made := b.made ++ s.made }

/-- Runs an operation over items, each of which stands for the node with an id. -/
def run (operation : String) (id : α → String) (step : Editor → α → Step) (items : List α) (e : Editor) :
    Batch :=
  items.foldl (fun b a => b.take operation (id a) (step b.editor a)) (start e)

/-- Runs an operation over the nodes with given ids. -/
def runIds (operation : String) (step : Editor → String → Step) (ids : List String) (e : Editor) : Batch :=
  run operation (fun id => id) step ids e

/-- The result of a batch, which is refused when it changed nothing. -/
def finish (b : Batch) (refusal : Refusal) (message : Nat → String) : Result Outcome :=
  ⟨b.editor, b.trace, if b.changed = 0 then .error refusal else .ok ⟨b.changed, message b.changed⟩⟩

end Batch

/-! ## Selected nodes -/

/-- An operation on the selected nodes, which is refused when there are none. -/
def Editor.onSelection (e : Editor) (operation : List Node → Result α) : Result α :=
  match e.document.roots with
  | [] => .refuse e .emptySelection
  | n :: ns => operation (n :: ns)

end DesignCanvas
