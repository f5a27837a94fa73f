import DesignCanvas.Assistant.Serve
import DesignCanvas.CommandLine.Arguments
import DesignCanvas.CommandLine.Configuration
import DesignCanvas.CommandLine.Files
import DesignCanvas.Message.Report

/-!
# Running the program

From an invocation to what the program prints: the configuration and the document are read, an assistant is set up and
given a request, or many of them one after another, and what it leaves is written. The access to files is left open.
-/

namespace DesignCanvas.CommandLine

open DesignCanvas

/-- Why the program ends before it has done anything. -/
inductive Failure where
  | document (path : String) (fault : FileFault)
  | malformedDocument
  | list (fault : FileFault)
  | malformedList
  deriving DecidableEq, Repr

def Failure.message : Failure → String
  | document path fault => s!"could not read document {path}: {fault.message}"
  | malformedDocument => "malformed document"
  | list fault => fault.message
  | malformedList => "malformed list"

/-- An assistant at work on files. -/
structure Desk where
  assistant : Assistant
  settings : Settings
  /-- The file of the document. -/
  documentPath : String
  statePath : Option String
  journalPath : Option String

/-! ## Reading -/

section

variable {m : Type → Type} [Monad m] (files : Files m)

def configurationPath : String := "canvas-assist.yaml"

def readConfiguration (i : Invocation) : m Configuration := do
  match ← files.read (i.config.getD configurationPath) with
  | .ok text => return .ofText text
  | .error _ => return .default

def readDocument (i : Invocation) : m (Except Failure Document) := do
  match ← files.read i.document with
  | .error fault => return .error (.document i.document fault)
  | .ok text =>
    match Document.parse? text with
    | none => return .error .malformedDocument
    | some d => return .ok (if i.select.isEmpty then d else { d with selection := i.select })

def readSession (path : Option String) : m SessionFile := do
  match path with
  | none => return .off
  | some path =>
    match ← files.read path with
    | .ok text => return .file .full (some text)
    | .error .missing => return .file .full none
    | .error _ => return .file ⟨false, true⟩ none

def openJournal (path : Option String) : m Journal := do
  match path with
  | none => return .off
  | some path =>
    match ← files.append path "" with
    | .ok () => return .entries []
    | .error _ => return .closed

/-- The path of the journal: that of the invocation before that of the configuration. -/
def journalPath (i : Invocation) (c : Configuration) : Option String :=
  i.journal.or c.journalPath

def openDesk (source : ChangingSource) (complaint : String → String) (i : Invocation) (c : Configuration) :
    m (Except Failure Desk) := do
  match ← readDocument files i with
  | .error failure => return .error failure
  | .ok d =>
    let sessionFile ← readSession files c.statePath
    let journalPath := journalPath i c
    let journal ← openJournal files journalPath
    return .ok {
      assistant := .opening d sessionFile journal
      settings := { defaultLabel := c.defaultLabel, smallestEdge := c.smallestEdge, source, complaint }
      documentPath := i.document, statePath := c.statePath, journalPath }

def readList (path : String) (parse : String → Option α) : m (Except Failure α) := do
  match ← files.read path with
  | .error fault => return .error (.list fault)
  | .ok text =>
    match parse text with
    | some a => return .ok a
    | none => return .error .malformedList

/-- The request of a task, but for the task that has many. -/
def requestOf : Task → m (Except Failure (Option Request))
  | .exec words => return .ok (some (.command (" ".intercalate words)))
  | .info => return .ok (some .summary)
  | .layers => return .ok (some .layers)
  | .renameByRole => return .ok (some .renameByRole)
  | .rename plan => return (← readList files plan Renaming.listOfText?).map (some ∘ Request.rename)
  | .renameSelected name => return .ok (some (.renameSelected name))
  | .fillTexts value => return .ok (some (.fillTexts value))
  | .fillFields fields => return (← readList files fields Field.listOfText?).map (some ∘ Request.fillFields)
  | .fillPictures kind => return .ok (some (.fillPictures kind))
  | .countNamed field => return .ok (some (.countNamed field))
  | .audit kind fix => return .ok (some (.audit kind fix))
  | .compare outline => return (← readList files outline some).map (some ∘ Request.compare)
  | .spelling => return .ok (some .spelling)
  | .serve => return .ok none

/-! ## Writing -/

/-- Writes the session state, if it is no longer what is in its file. -/
def Desk.writeSession (before after : Desk) : m Unit := do
  match after.statePath, after.assistant.sessionFile with
  | some path, .file _ (some text) =>
    if before.assistant.sessionFile ≠ after.assistant.sessionFile then
      let _ ← files.write path text
  | _, _ => return ()

/-- Writes the entries that the journal has more than before. -/
def Desk.writeJournal (clock : m Nat) (before after : Desk) : m Unit := do
  match after.journalPath with
  | none => return ()
  | some path =>
    let entries := after.assistant.journal.toList.drop before.assistant.journal.toList.length
    for e in entries do
      let _ ← files.append path (e.line (← clock))

/-- Takes the assistant after a reply, and writes what it remembers. -/
def Desk.keep (clock : m Nat) (desk : Desk) (assistant : Assistant) (reply : Reply) : m Desk := do
  let after := { desk with assistant, settings := desk.settings.after reply }
  Desk.writeSession files desk after
  Desk.writeJournal files clock desk after
  return after

def Desk.save (desk : Desk) : m (Except FileFault Unit) :=
  files.write desk.documentPath desk.assistant.editor.document.write

/-! ## Running -/

def Desk.handle (clock : m Nat) (desk : Desk) (r : Request) : m (Desk × Reply) := do
  let (assistant, reply) := desk.assistant.handle desk.settings r
  return (← desk.keep files clock assistant reply, reply)

def Desk.answer (clock : m Nat) (desk : Desk) (line : String) : m (Desk × Reply) := do
  let (assistant, reply) := desk.assistant.answer desk.settings line
  return (← desk.keep files clock assistant reply, reply)

def Desk.answerAll (clock : m Nat) (desk : Desk) : List String → m (Desk × List Reply)
  | [] => return (desk, [])
  | line :: lines => do
    let (desk, reply) ← desk.answer files clock line
    let (desk, replies) ← desk.answerAll clock lines
    return (desk, reply :: replies)

/-- What the program has to show in the end. -/
inductive Ending where
  | failed (failure : Failure)
  | answered (response : Response)
  | served (responses : List Response)
  deriving DecidableEq, Repr

/-- Says that the program succeeded. -/
def Ending.isSuccess : Ending → Bool
  | failed _ => false
  | answered response => response.isSuccess
  | served _ => true

/-- Does a task, which reads its requests from `input` if it has many. -/
def Desk.run (clock : m Nat) (input : String) (task : Task) (desk : Desk) : m (Desk × Ending) := do
  match ← requestOf files task with
  | .error failure => return (desk, .failed failure)
  | .ok (some r) =>
    let (desk, reply) ← desk.handle files clock r
    return (desk, .answered reply.response)
  | .ok none =>
    let (desk, replies) ← desk.answerAll files clock (Assistant.requestLines input)
    return (desk, .served (replies.map Reply.response))

/-- Runs the program. -/
def run (clock : m Nat) (source : ChangingSource) (complaint : String → String) (input : String) (i : Invocation)
    (c : Configuration) : m Ending := do
  match ← openDesk files source complaint i c with
  | .error failure => return .failed failure
  | .ok desk =>
    let (desk, outcome) ← desk.run files clock input i.task
    match outcome with
    | .failed failure => return .failed failure
    | _ =>
      if i.write then
        let _ ← desk.save files
      return outcome

end

end DesignCanvas.CommandLine
