import DesignCanvas.Assistant.Journal
import DesignCanvas.Assistant.Session
import DesignCanvas.Audit.Repair
import DesignCanvas.Command.Reading
import DesignCanvas.Editor.Apply
import DesignCanvas.Filling.Pictures
import DesignCanvas.Filling.Texts
import DesignCanvas.Message.Request
import DesignCanvas.Selection.Summary

/-!
# Handling requests

An assistant edits one document. It answers every request with a response, a refusal or a command that it does not
understand with one of an error, and it keeps a journal and remembers the field that was counted last.
-/

namespace DesignCanvas

/-- What does not change while an assistant works. -/
structure Settings where
  /-- The label of outline texts that come without one. -/
  defaultLabel : String
  /-- The smallest edge of a picture. -/
  smallestEdge : Nat
  /-- Where pictures come from. -/
  source : ChangingSource
  /-- What is said of a line that is no request. -/
  complaint : String → String

/-- An assistant at work. -/
structure Assistant where
  editor : Editor
  session : SessionState
  sessionFile : SessionFile
  journal : Journal

/-- A response, and what happened on the way to it. -/
structure Reply where
  response : Response
  trace : Trace

namespace Request

/-! ## Replies -/

/-- The editor and the reply after an operation. A refusal becomes an error. -/
def conclude (operation : String) (respond : α → Response) (r : Result α) : Editor × Reply :=
  match r.answer with
  | .ok a => (r.editor, ⟨respond a, r.trace⟩)
  | .error refusal => (r.editor, ⟨.error operation refusal.message, r.trace⟩)

/-- The response that says what was changed. -/
def changedResponse (operation : String) (o : Outcome) : Response :=
  { Response.success operation o.message with changed := some o.changed }

def lookUp (e : Editor) (operation : String) (respond : α → Response) : Except Refusal α → Editor × Reply
  | .ok a => (e, ⟨respond a, .empty⟩)
  | .error refusal => (e, ⟨.error operation refusal.message, .empty⟩)

/-- What stands before the errors of commands. -/
def commandError (operation message : String) : Response :=
  .error operation ("오류: " ++ message)

def runCommand (e : Editor) (operation text : String) : Editor × Reply :=
  match Command.parse text with
  | .error error => (e, ⟨commandError operation error.message, .empty⟩)
  | .ok intent =>
    let r := e.apply intent
    match r.answer with
    | .ok o => (r.editor, ⟨changedResponse operation o, r.trace⟩)
    | .error refusal => (r.editor, ⟨commandError operation refusal.message, r.trace⟩)

/-! ## Responses with data -/

def layersResponse (operation : String) (rows : List LayerRow) : Response :=
  { Response.success operation s!"{rows.length}개의 레이어를 불러왔습니다." with data := some (.layers rows) }

def countResponse (operation : String) (c : NameCount) : Response :=
  { Response.success operation s!"선택된 {c.selected}개 중 {c.matching}개의 레이어가 일치합니다." with
    data := some (.count c) }

def findingsResponse (operation : String) (fs : List Finding) : Response :=
  let flagged := fs.countP Finding.needsAttention
  let applied := fs.countP Finding.applied
  { Response.success operation s!"{fs.length}개 레이어 검사: 확인 필요 {flagged}개, 자동 수정 {applied}개" with
    changed := some applied, data := some (.findings fs) }

def resultsResponse (operation : String) (rs : List MatchResult) : Response :=
  let s := MatchSummary.ofResults rs
  { Response.success operation s!"일치 {s.matched}개, 불일치 {s.mismatched}개, 누락 {s.missing}개" with
    data := some (.results rs) }

def textsResponse (operation : String) (ts : List String) : Response :=
  { Response.success operation s!"검사할 텍스트 {ts.length}개를 수집했습니다." with data := some (.texts ts) }

/-! ## Carrying out -/

/-- Carries out a request on the document of an editor. -/
def carryOut (s : Settings) (e : Editor) (r : Request) : Editor × Reply :=
  let operation := r.operation
  let changed := conclude operation (changedResponse operation)
  match r with
  | command text => runCommand e operation text
  | summary => (e, ⟨.success operation e.document.selectionSummary, .empty⟩)
  | layers => lookUp e operation (layersResponse operation) e.document.layerRows
  | rename changes => changed (e.rename changes)
  | renameSelected name => changed (e.renameSelected name)
  | renameByRole => changed e.renameByRole
  | fillTexts value => changed (e.fillTexts value)
  | fillFields fields => changed (e.fillFields fields)
  | fillPictures kind => changed (e.fillPictures s.source (.ofName kind) s.smallestEdge)
  | countNamed name => (e, ⟨countResponse operation (e.document.countNamed name), .empty⟩)
  | audit kind fix => conclude operation (findingsResponse operation) (e.audit kind fix)
  | compare outline => lookUp e operation (resultsResponse operation) (e.document.compare outline s.defaultLabel)
  | selectNode id => changed (e.choose [id])
  | selectNodes ids => changed (e.choose ids)
  | spelling => lookUp e operation (textsResponse operation) e.document.textsToCheck

/-- The field name that a request asks to be counted. -/
def countedField? : Request → Option String
  | countNamed name => some name
  | _ => none

end Request

namespace Assistant

/-- An assistant that begins with a document, with the state from its session file. -/
def opening (d : Document) (sessionFile : SessionFile) (journal : Journal) : Assistant :=
  { editor := .opening d, session := sessionFile.load, sessionFile, journal }

def rememberField (a : Assistant) (name : String) : Assistant :=
  let session : SessionState := ⟨some name⟩
  { a with session, sessionFile := a.sessionFile.save session }

def remember (a : Assistant) (r : Request) : Assistant :=
  match r.countedField? with
  | some name => a.rememberField name
  | none => a

/-- Handles a request: carries it out, remembers its field and makes an entry in the journal. -/
def handle (s : Settings) (a : Assistant) (r : Request) : Assistant × Reply :=
  let (editor, reply) := r.carryOut s a.editor
  let a := { a with editor }.remember r
  ({ a with journal := a.journal.record (.ofResponse reply.response) }, reply)

end Assistant

end DesignCanvas
