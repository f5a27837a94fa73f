import DesignCanvas.Proofs.Assistant.Reload
import DesignCanvas.Proofs.Assistant.Serving
import DesignCanvas.Proofs.Message.Codec

/-!
# What is kept beside the document

An assistant remembers a field, writes a session file and keeps a journal, but when it is asked for something it looks
at its document only: what it replies and leaves is what the requests do to an editor (`Assistant.run_work`). So nothing
is seen of what is kept or where, even if all of it is exchanged or lost between two requests. A journal that can be
added to tells what was replied: it gets one entry for each request, in their order, on a line of its own
(`Assistant.aside_unseen`).
-/

namespace DesignCanvas

open Json

/-- What an assistant keeps beside its document. -/
structure Aside where
  session : SessionState
  sessionFile : SessionFile
  journal : Journal

/-- What requests do to an editor one after another: the reply to each of them and the document that it leaves. Nothing
is kept beside the document. -/
def Editor.work (e : Editor) : List (Settings × Request) → List (Reply × Document)
  | [] => []
  | (s, r) :: rs =>
    let (e', reply) := r.carryOut s e
    (reply, e'.document) :: e'.work rs

/-! ## Entries -/

/-- An entry says of a request what the response to it says. -/
structure JournalEntry.Tells (e : JournalEntry) (r : Response) : Prop where
  operation : e.operation = r.operation
  status : e.status = r.status
  changed : e.changed = r.changed
  message : e.message = r.message

namespace JournalEntry

theorem tells_ofResponse (r : Response) : (ofResponse r).Tells r :=
  ⟨rfl, rfl, rfl, rfl⟩

def toJson (time : Nat) (e : JournalEntry) : Json :=
  .obj (("timestamp_ms", .nat time) :: e.members)

/-- The text that entries with their times are written as. -/
def written (tes : List (Nat × JournalEntry)) : String :=
  String.join (tes.map fun te => te.2.line te.1)

theorem lines_written (tes : List (Nat × JournalEntry)) :
    Text.lines (written tes).toList = tes.map fun te => (te.2.toJson te.1).compact.toList := by
  simp only [written, line]
  exact Assistant.lines_join (fun te : Nat × JournalEntry => te.2.toJson te.1) tes

theorem parse?_line {time : Nat} {e : JournalEntry} (htime : time < significandLimit)
    (hchanged : ∀ n ∈ e.changed, n < significandLimit) : parse? (e.line time) = some (e.toJson time) := by
  have hlegible : (e.toJson time).legible depthLimit := by
    refine legible_obj.2 ⟨by decide, ?_⟩
    simp only [members, List.forall_mem_cons]
    exact ⟨Number.legible_nat htime, rfl, rfl,
      forall_orNull (P := fun v => v.legible _) rfl fun n hn => Number.legible_nat (hchanged n hn), rfl, nofun⟩
  have hline : parse? (e.line time) = parse? (e.toJson time).compact := parse?_blank (c := '\n') (by decide) _
  rw [hline, parse?_compact hlegible]

end JournalEntry

/-! ## Operations -/

namespace Request

theorem conclude_operation {operation : String} {respond : α → Response}
    (h : ∀ a, (respond a).operation = operation) (r : Result α) :
    (conclude operation respond r).2.response.operation = operation := by
  unfold conclude
  split
  · exact h _
  · rfl

theorem lookUp_operation {operation : String} {respond : α → Response}
    (h : ∀ a, (respond a).operation = operation) (e : Editor) (answer : Except Refusal α) :
    (lookUp e operation respond answer).2.response.operation = operation := by
  cases answer with
  | ok a => exact h a
  | error refusal => rfl

theorem runCommand_operation (e : Editor) (operation text : String) :
    (runCommand e operation text).2.response.operation = operation := by
  unfold runCommand
  split
  · rfl
  · dsimp only
    split <;> rfl

theorem carryOut_operation (s : Settings) (e : Editor) (r : Request) :
    (r.carryOut s e).2.response.operation = r.operation := by
  cases r with
  | command text => exact runCommand_operation e _ text
  | summary | countNamed => rfl
  | layers | compare | spelling =>
    refine lookUp_operation ?_ e _
    exact fun _ => rfl
  | rename | renameSelected | renameByRole | fillTexts | fillFields | fillPictures | audit | selectNode | selectNodes =>
    refine conclude_operation ?_ _
    exact fun _ => rfl

end Request

namespace Assistant

/-- The assistant with other things kept beside its document. -/
def keeping (a : Assistant) (k : Aside) : Assistant :=
  { a with session := k.session, sessionFile := k.sessionFile, journal := k.journal }

/-- Handles requests one after another. What is kept beside the document is exchanged before each of them. -/
def runExchanging (a : Assistant) : List (Aside × Settings × Request) → Assistant × List (Reply × Document)
  | [] => (a, [])
  | (k, s, r) :: qs =>
    let (b, reply) := (a.keeping k).handle s r
    let (c, seen) := b.runExchanging qs
    (c, (reply, b.editor.document) :: seen)

def responses (a : Assistant) (rs : List (Settings × Request)) : List Response :=
  (a.run rs).2.map fun p => p.1.response

/-! ## Nothing is seen of it -/

variable {a : Assistant}

/-- An assistant replies and leaves what the requests do to its editor. -/
theorem run_work (a : Assistant) (rs : List (Settings × Request)) : (a.run rs).2 = a.editor.work rs := by
  induction rs generalizing a with
  | nil => rfl
  | cons q rs ih =>
    obtain ⟨s, r⟩ := q
    rw [run, Editor.work]
    dsimp only
    rw [ih, handle_editor]
    rfl

theorem runExchanging_work (a : Assistant) (qs : List (Aside × Settings × Request)) :
    (a.runExchanging qs).2 = a.editor.work (qs.map Prod.snd) := by
  induction qs generalizing a with
  | nil => rfl
  | cons q qs ih =>
    obtain ⟨k, s, r⟩ := q
    rw [runExchanging, List.map_cons, Editor.work]
    dsimp only
    rw [ih, handle_editor]
    rfl

/-! ## What is added to the journal -/

theorem remember_journal (a : Assistant) (r : Request) : (a.remember r).journal = a.journal := by
  unfold remember
  split <;> rfl

theorem handle_journal (s : Settings) (a : Assistant) (r : Request) :
    (a.handle s r).1.journal = a.journal.record (.ofResponse (a.handle s r).2.response) := by
  rw [handle]
  dsimp only
  rw [remember_journal]

theorem run_journal {es : List JournalEntry} (h : a.journal = .entries es) (rs : List (Settings × Request)) :
    (a.run rs).1.journal = .entries (es ++ (a.responses rs).map .ofResponse) := by
  induction rs generalizing a es with
  | nil =>
    rw [show (a.run []).1 = a from rfl, show a.responses [] = [] from rfl, List.map_nil, List.append_nil, h]
  | cons q rs ih =>
    obtain ⟨s, r⟩ := q
    have hnext : (a.handle s r).1.journal = .entries (es ++ [.ofResponse (a.handle s r).2.response]) := by
      rw [handle_journal, h, Journal.record]
    rw [run]
    dsimp only
    rw [ih hnext, List.append_assoc]
    rfl

theorem responses_operation (a : Assistant) (rs : List (Settings × Request)) :
    (a.responses rs).map Response.operation = rs.map fun q => q.2.operation := by
  induction rs generalizing a with
  | nil => rfl
  | cons q rs ih =>
    obtain ⟨s, r⟩ := q
    have hfirst : (a.handle s r).2.response.operation = r.operation := r.carryOut_operation s a.editor
    rw [List.map_cons, ← hfirst, ← ih (a.handle s r).1]
    rfl

/-- Whatever the session file and the journal are, a run of an assistant gives the same replies and leaves the same
document after each request, also if what it keeps is exchanged before each of them. A journal that can be added to
has one entry more for each request afterwards, and it tells what the response to this request says; with any times,
the entries are written on as many lines. -/
theorem aside_unseen (d : Document) (rs : List (Settings × Request)) :
    (∀ file file' journal journal',
      ((opening d file' journal').run rs).2 = ((opening d file journal).run rs).2) ∧
    (∀ file journal, ∀ qs : List (Aside × Settings × Request), ((opening d file journal).runExchanging qs).2 =
      ((opening d file journal).run (qs.map Prod.snd)).2) ∧
    ∀ file es, ∃ added, ((opening d file (.entries es)).run rs).1.journal = .entries (es ++ added) ∧
      added.map JournalEntry.operation = rs.map (fun q => q.2.operation) ∧
      List.Forall₂ JournalEntry.Tells added ((opening d file (.entries es)).responses rs) ∧
      ∀ times : List Nat, Text.lines (JournalEntry.written (times.zip added)).toList =
        (times.zip added).map fun te => (te.2.toJson te.1).compact.toList := by
  refine ⟨fun file file' journal journal' => ?_, fun file journal qs => ?_,
    fun file es => ⟨_, run_journal rfl rs, ?_, ?_, fun times => JournalEntry.lines_written _⟩⟩
  · rw [run_work, run_work]
    rfl
  · rw [runExchanging_work, run_work]
  · rw [List.map_map]
    exact responses_operation _ rs
  · rw [List.forall₂_map_left_iff, List.forall₂_same]
    exact fun r _ => JournalEntry.tells_ofResponse r

end Assistant

end DesignCanvas
