import DesignCanvas.Proofs.Assistant.Handle
import DesignCanvas.Proofs.Document.Codec
import DesignCanvas.Proofs.Editor.Volatile
import DesignCanvas.Proofs.Json.Text

/-!
# Documents that are written and read again

What an editor knows only while it runs is not to be seen from outside: no request but one that copies nodes is
answered in another way because of it, or leaves another document (`Request.carryOut_same`). So an assistant may write
its document to a file and go on with what is read from there, at any time, and answers as if it had not
(`Assistant.reloads_unseen`). That the text of the file is read as what was written is left to the documents of the run:
it is so if all their doubles are (`Json.parse?_pretty`).
-/

namespace DesignCanvas

/-! ## Requests -/

namespace Request

variable {e e' : Editor}

theorem conclude_same (operation : String) (respond : α → Response) {r r' : Result α} (hr : r.Same r') :
    (conclude operation respond r').1.document = (conclude operation respond r).1.document ∧
      (conclude operation respond r').2 = (conclude operation respond r).2 := by
  rw [conclude_editor, conclude_editor]
  refine ⟨hr.document, ?_⟩
  rw [conclude, conclude, hr.answer, hr.trace]
  cases r.answer <;> rfl

theorem lookUp_same (h : e'.document = e.document) (operation : String) (respond : α → Response)
    (answer : Except Refusal α) :
    (lookUp e' operation respond answer).1.document = (lookUp e operation respond answer).1.document ∧
      (lookUp e' operation respond answer).2 = (lookUp e operation respond answer).2 := by
  cases answer with
  | ok a => exact ⟨h, rfl⟩
  | error refusal => exact ⟨h, rfl⟩

theorem runCommand_same {text : String} (htext : (command text).intent? ≠ some .duplicate)
    (h : e'.document = e.document) (operation : String) :
    (runCommand e' operation text).1.document = (runCommand e operation text).1.document ∧
      (runCommand e' operation text).2 = (runCommand e operation text).2 := by
  rw [intent?] at htext
  rw [runCommand, runCommand]
  cases hparse : Command.parse text with
  | error error => exact ⟨h, rfl⟩
  | ok i =>
    rw [hparse] at htext
    obtain ⟨hdocument, htrace, hanswer⟩ := Editor.apply_same (fun hi => htext (congrArg some hi)) h
    dsimp only
    rw [hanswer, htrace]
    cases (e.apply i).answer with
    | ok o => exact ⟨hdocument, rfl⟩
    | error refusal => exact ⟨hdocument, rfl⟩

theorem carryOut_same (s : Settings) {r : Request} (hr : r.intent? ≠ some .duplicate) (h : e'.document = e.document) :
    (r.carryOut s e').1.document = (r.carryOut s e).1.document ∧ (r.carryOut s e').2 = (r.carryOut s e).2 := by
  cases r with
  | command text => exact runCommand_same hr h _
  | summary | countNamed => exact ⟨h, by rw [carryOut, carryOut, h]⟩
  | layers | compare | spelling =>
    rw [carryOut, carryOut, h]
    exact lookUp_same h _ _ _
  | rename changes => exact conclude_same _ _ (Editor.runRenamings_same h _ changes _)
  | renameSelected name => exact conclude_same _ _ (Editor.renameSelected_same h name)
  | renameByRole => exact conclude_same _ _ (Editor.renameByRole_same h)
  | fillTexts value => exact conclude_same _ _ (Editor.fillTexts_same h value)
  | fillFields fields => exact conclude_same _ _ (Editor.fillFields_same h fields)
  | fillPictures kind => exact conclude_same _ _ (Editor.fillPictures_same h s.source _ s.smallestEdge)
  | audit kind fix => exact conclude_same _ _ (Editor.audit_same h kind fix)
  | selectNode id => exact conclude_same _ _ (Editor.choose_same h [id])
  | selectNodes ids => exact conclude_same _ _ (Editor.choose_same h ids)

end Request

/-! ## Assistants -/

namespace Assistant

/-- Two assistants that differ at most in what their editors know only while they run. -/
structure Same (a a' : Assistant) : Prop where
  document : a'.editor.document = a.editor.document
  session : a'.session = a.session
  sessionFile : a'.sessionFile = a.sessionFile
  journal : a'.journal = a.journal

theorem Same.refl (a : Assistant) : a.Same a :=
  ⟨rfl, rfl, rfl, rfl⟩

variable {a a' : Assistant}

theorem remember_same (h : a.Same a') (r : Request) : (a.remember r).Same (a'.remember r) := by
  unfold remember
  split
  · next name _ => exact ⟨h.document, rfl, congrArg (SessionFile.save ⟨some name⟩) h.sessionFile, h.journal⟩
  · exact h

theorem handle_same (s : Settings) {r : Request} (hr : r.intent? ≠ some .duplicate) (h : a.Same a') :
    (a'.handle s r).2 = (a.handle s r).2 ∧ (a.handle s r).1.Same (a'.handle s r).1 := by
  obtain ⟨hdocument, hreply⟩ := Request.carryOut_same s hr h.document
  have hdone : Same { a with editor := (r.carryOut s a.editor).1 } { a' with editor := (r.carryOut s a'.editor).1 } :=
    ⟨hdocument, h.session, h.sessionFile, h.journal⟩
  obtain ⟨hdocument, hsession, hfile, hjournal⟩ := remember_same hdone r
  refine ⟨hreply, hdocument, hsession, hfile, ?_⟩
  rw [handle, handle]
  dsimp only
  rw [hreply, hjournal]

/-! ## Runs -/

/-- Handles requests one after another. For each of them there is the reply and the document that it has left. -/
def run (a : Assistant) : List (Settings × Request) → Assistant × List (Reply × Document)
  | [] => (a, [])
  | (s, r) :: rs =>
    let (b, reply) := a.handle s r
    let (c, seen) := b.run rs
    (c, (reply, b.editor.document) :: seen)

/-- The assistant after its document was written to a file and read from there. -/
def reload? (a : Assistant) : Option Assistant :=
  (Document.parse? a.editor.document.write).map fun d => { a with editor := .opening d }

end Assistant

/-- What can happen to an assistant: it is asked for something, or its document is written and read again. -/
inductive Event where
  | ask (s : Settings) (r : Request)
  | reload

def Event.request? : Event → Option (Settings × Request)
  | ask s r => some (s, r)
  | reload => none

namespace Assistant

variable {a a' : Assistant}

/-- A run with reloads in between. There is none if a document cannot be read. -/
def runReloading? (a : Assistant) : List Event → Option (Assistant × List (Reply × Document))
  | [] => some (a, [])
  | .ask s r :: es =>
    let (b, reply) := a.handle s r
    (b.runReloading? es).map fun (c, seen) => (c, (reply, b.editor.document) :: seen)
  | .reload :: es => a.reload?.bind fun b => b.runReloading? es

/-- The documents that are there when it is time for a reload, in the run without any. -/
def reloaded (a : Assistant) : List Event → List Document
  | [] => []
  | .ask s r :: es => (a.handle s r).1.reloaded es
  | .reload :: es => a.editor.document :: a.reloaded es

theorem reload?_same (hsame : a.Same a')
    (htext : Json.parse? a.editor.document.write = some a.editor.document.toJson) :
    ∃ b, a'.reload? = some b ∧ a.Same b := by
  refine ⟨{ a' with editor := .opening a.editor.document }, ?_, rfl, hsame.session, hsame.sessionFile, hsame.journal⟩
  rw [reload?, hsame.document, Document.parse?, htext, Option.bind_some, Document.readsBack, Option.map_some]

theorem runReloading?_same (h : a.Same a') (es : List Event)
    (hes : ∀ q ∈ es.filterMap Event.request?, q.2.intent? ≠ some .duplicate)
    (htexts : ∀ d ∈ a.reloaded es, Json.parse? d.write = some d.toJson) :
    ∃ b, a'.runReloading? es = some (b, (a.run (es.filterMap Event.request?)).2) ∧
      (a.run (es.filterMap Event.request?)).1.Same b := by
  induction es generalizing a a' with
  | nil => exact ⟨a', rfl, h⟩
  | cons event es ih =>
    cases event with
    | ask s r =>
      obtain ⟨hr, hes⟩ := List.forall_mem_cons.1 hes
      obtain ⟨hreply, hnext⟩ := handle_same s hr h
      obtain ⟨b, hrun, hb⟩ := ih hnext hes htexts
      refine ⟨b, ?_, hb⟩
      rw [runReloading?]
      dsimp only
      rw [hrun, Option.map_some, hreply, hnext.document]
      rfl
    | reload =>
      obtain ⟨htext, htexts⟩ := List.forall_mem_cons.1 htexts
      obtain ⟨b, hreload, hb⟩ := reload?_same h htext
      rw [runReloading?, hreload, Option.bind_some]
      exact ih hb hes htexts

/-- Assistants with the same document answer a request that makes no copies in the same way, and have the same document
after it. So in a run of such requests the document may be written and read again anywhere, if its text is read as the
value that was written: every request is answered as without the reloads and leaves the same document, and in the end
only that is different what an editor knows only while it runs. -/
theorem reloads_unseen :
    (∀ (s : Settings) (a a' : Assistant) (r : Request), a'.editor.document = a.editor.document →
      r.intent? ≠ some .duplicate →
      (a'.handle s r).2 = (a.handle s r).2 ∧ (a'.handle s r).1.editor.document = (a.handle s r).1.editor.document) ∧
    ∀ (a : Assistant) (es : List Event),
      let requests := es.filterMap Event.request?
      (∀ q ∈ requests, q.2.intent? ≠ some .duplicate) →
      (∀ d ∈ a.reloaded es, Json.parse? d.write = some d.toJson) →
      ∃ b, a.runReloading? es = some (b, (a.run requests).2) ∧ (a.run requests).1.Same b := by
  refine ⟨fun s a a' r h hr => ?_, fun a es hes htexts => runReloading?_same (.refl a) es hes htexts⟩
  obtain ⟨hdocument, hreply⟩ := Request.carryOut_same s hr h
  rw [handle_editor, handle_editor]
  exact ⟨hreply, hdocument⟩

end Assistant

/-- Texts in one font, in several, in none and in one that cannot be loaded. -/
def Document.typeset : Document where
  nodes := [.branch (.bare "1:1" "Frame" .frame)
    [.leaf { Attributes.bare "1:2" "One" .text with fontName := some (.single ⟨"Inter", "Bold"⟩) },
    .leaf { Attributes.bare "1:3" "Two" .text with fontName := some (.mixed [⟨"Inter", "Bold"⟩, ⟨"Lost", "Regular"⟩]) },
    .leaf { Attributes.bare "1:4" "Three" .text with fontName := some (.mixed []) }]]
  selection := ["1:1", "1:2"]
  styles := []
  unavailableFonts := ["Lost"]
  images := .empty

namespace Assistant

/-- The other assistant has copied nodes and has loaded fonts, among them one that has become unavailable. -/
theorem reloads_unseen_typeset :
    let a := opening Document.typeset .off .off
    let b : Assistant := { a with editor :=
      { a.editor with loadedFonts := [⟨"Inter", "Bold"⟩, ⟨"Lost", "Regular"⟩], copies := 7 } }
    let es : List Event := [.ask .offline (.fillTexts "a"), .reload, .ask .offline (.command "폰트 크기 24"), .reload,
      .ask .offline (.command "삭제")]
    ((b.handle .offline (.fillTexts "a")).2 = (a.handle .offline (.fillTexts "a")).2 ∧
      (b.handle .offline (.fillTexts "a")).1.editor.document = (a.handle .offline (.fillTexts "a")).1.editor.document) ∧
    ∃ c, a.runReloading? es = some (c, (a.run (es.filterMap Event.request?)).2) ∧
      (a.run (es.filterMap Event.request?)).1.Same c := by
  refine ⟨reloads_unseen.1 _ _ _ _ rfl nofun, reloads_unseen.2 _ _ ?_ fun d hd => Json.parse?_pretty ?_⟩
  · decide
  · revert d
    decide +kernel

end Assistant

end DesignCanvas
