import DesignCanvas.Proofs.Assistant.Reload

/-!
# What is remembered

An assistant remembers the field that it was asked to count last, and before any the one that its session file tells
of. Nothing but a count changes this or the file. If the file can be read and written, then it always holds what is
remembered (`Assistant.Saved`), so that an assistant that is started anew begins with it, however often this happens
(`SessionFile.restarts_remember`). A file that can only be written is no help: whoever starts with it remembers nothing
(`Assistant.remembers_last`).
-/

namespace DesignCanvas

open Json

/-! ## The text of a file -/

namespace SessionState

theorem readsBack : ReadsBack toJson ofJson? := by
  intro s
  let r : Record := ⟨[("last_focused_field", orNull .str s.lastField)]⟩
  have hrecord : record? ["last_focused_field"] 0 s.toJson = some r := record?_obj (by decide) (List.Sublist.refl _)
  have hfield : r.optional "last_focused_field" string? = some s.lastField := Record.optional_orNull .str rfl rfl
  rw [ofJson?, hrecord, Option.bind_eq_bind, Option.bind_some, hfield]
  rfl

theorem legible_toJson (s : SessionState) : s.toJson.legible depthLimit := by
  refine legible_obj.2 ⟨by decide, List.forall_mem_singleton.2 ?_⟩
  exact forall_orNull (P := fun v => v.legible _) rfl fun _ _ => rfl

theorem ofText_write (s : SessionState) : ofText s.write = s := by
  rw [ofText, write, parse?_pretty s.legible_toJson, Option.bind_some, readsBack s, Option.getD_some]

end SessionState

namespace SessionFile

def readable : SessionFile → Bool
  | file access _ => access.readable
  | off => false

def writable : SessionFile → Bool
  | file access _ => access.writable
  | off => false

/-- The field that the file tells of: none if there is no text to read, or one that is not that of a state. -/
def field? (f : SessionFile) : Option String := do
  let text ← f.text?
  let v ← Json.parse? text
  let s ← SessionState.ofJson? v
  s.lastField

variable {f : SessionFile}

theorem lastField_load (f : SessionFile) : f.load.lastField = f.field? := by
  rw [load, field?, Option.bind_eq_bind]
  cases f.text? with
  | none => rfl
  | some text =>
    rw [Option.map_some, Option.getD_some, Option.bind_some, SessionState.ofText, Option.bind_eq_bind]
    cases Json.parse? text with
    | none => rfl
    | some v =>
      rw [Option.bind_some, Option.bind_some, Option.bind_eq_bind]
      cases SessionState.ofJson? v <;> rfl

theorem access_save (s : SessionState) (f : SessionFile) :
    (f.save s).readable = f.readable ∧ (f.save s).writable = f.writable := by
  cases f <;> exact ⟨rfl, rfl⟩

theorem load_save (hreadable : f.readable) (hwritable : f.writable) (s : SessionState) : (f.save s).load = s := by
  cases f with
  | off => cases hreadable
  | file access text =>
    have hsaved : save s (file access text) = file access (some s.write) := congrArg (file access) (if_pos hwritable)
    have htext : (file access (some s.write)).text? = some s.write := if_pos hreadable
    rw [hsaved, load, htext]
    exact SessionState.ofText_write s

theorem load_of_unreadable (h : ¬ f.readable) : f.load = .empty := by
  cases f with
  | off => rfl
  | file access text =>
    have htext : (file access text).text? = none := if_neg h
    rw [load, htext]
    rfl

end SessionFile

namespace Request

theorem countedField?_eq_none_iff {r : Request} : r.countedField? = none ↔ ∀ name, r ≠ countNamed name := by
  cases r <;> simp [countedField?]

def countedFields (rs : List (Settings × Request)) : List String :=
  rs.filterMap fun q => q.2.countedField?

end Request

namespace Assistant

/-! ## One request -/

variable {a : Assistant} {s : Settings} {r : Request}

theorem remember_lastField (a : Assistant) (r : Request) :
    (a.remember r).session.lastField = r.countedField?.or a.session.lastField := by
  unfold remember
  split
  · next name hcounted => rw [hcounted]; rfl
  · next hnone => rw [hnone]; rfl

theorem remember_of_none (h : r.countedField? = none) : a.remember r = a := by
  rw [remember, h]

/-- The file can be read and written, and holds what is remembered. -/
structure Saved (a : Assistant) : Prop where
  readable : a.sessionFile.readable
  writable : a.sessionFile.writable
  load : a.sessionFile.load = a.session

theorem access_remember (a : Assistant) (r : Request) :
    (a.remember r).sessionFile.readable = a.sessionFile.readable ∧
      (a.remember r).sessionFile.writable = a.sessionFile.writable := by
  unfold remember
  split
  · exact SessionFile.access_save _ _
  · exact ⟨rfl, rfl⟩

theorem remember_saved (h : a.Saved) (r : Request) : (a.remember r).Saved := by
  obtain ⟨hreadable, hwritable⟩ := access_remember a r
  refine ⟨hreadable.trans h.readable, hwritable.trans h.writable, ?_⟩
  unfold remember
  split
  · exact SessionFile.load_save h.readable h.writable _
  · exact h.load

/-- What is carried out makes no difference to what is remembered. -/
theorem handle_remembers (s : Settings) (a : Assistant) (r : Request) :
    (a.handle s r).1.session = (a.remember r).session ∧ (a.handle s r).1.sessionFile = (a.remember r).sessionFile := by
  unfold handle remember
  cases r.countedField? <;> exact ⟨rfl, rfl⟩

theorem handle_saved (h : a.Saved) (s : Settings) (r : Request) : (a.handle s r).1.Saved := by
  obtain ⟨hsession, hsessionFile⟩ := handle_remembers s a r
  obtain ⟨hreadable, hwritable, hload⟩ := remember_saved h r
  exact ⟨by rwa [hsessionFile], by rwa [hsessionFile], by rw [hsessionFile, hsession, hload]⟩

/-! ## Runs -/

theorem run_lastField (a : Assistant) (rs : List (Settings × Request)) :
    (a.run rs).1.session.lastField = (Request.countedFields rs).getLast?.or a.session.lastField := by
  induction rs generalizing a with
  | nil => rfl
  | cons q rs ih =>
    obtain ⟨s, r⟩ := q
    have hstep : (a.handle s r).1.session.lastField = r.countedField?.or a.session.lastField := by
      rw [(handle_remembers s a r).1, remember_lastField]
    rw [run]
    dsimp only
    rw [ih, hstep, Request.countedFields, Request.countedFields, List.filterMap_cons]
    cases r.countedField? with
    | none => rfl
    | some name =>
      rw [List.getLast?_cons]
      cases (rs.filterMap fun q => q.2.countedField?).getLast? <;> rfl

theorem run_keeps {P : Assistant → Prop} (hhandle : ∀ b s r, P b → P (b.handle s r).1)
    (rs : List (Settings × Request)) (h : P a) : P (a.run rs).1 := by
  induction rs generalizing a with
  | nil => exact h
  | cons q rs ih => exact ih (hhandle a q.1 q.2 h)

theorem run_saved (h : a.Saved) (rs : List (Settings × Request)) : (a.run rs).1.Saved :=
  run_keeps (P := Saved) (fun _ s r hb => handle_saved hb s r) rs h

theorem run_readable (a : Assistant) (rs : List (Settings × Request)) :
    (a.run rs).1.sessionFile.readable = a.sessionFile.readable := by
  refine run_keeps (P := fun b => b.sessionFile.readable = a.sessionFile.readable) (fun b s r hb => ?_) rs rfl
  rw [(handle_remembers s b r).2, (access_remember b r).1, hb]

theorem run_sessionFile {rs : List (Settings × Request)} (h : Request.countedFields rs = []) (a : Assistant) :
    (a.run rs).1.session = a.session ∧ (a.run rs).1.sessionFile = a.sessionFile := by
  induction rs generalizing a with
  | nil => exact ⟨rfl, rfl⟩
  | cons q rs ih =>
    obtain ⟨hq, hrs⟩ := List.forall_mem_cons.1 (List.filterMap_eq_nil_iff.1 h)
    obtain ⟨hsession, hsessionFile⟩ := handle_remembers q.1 a q.2
    rw [remember_of_none hq] at hsession hsessionFile
    obtain ⟨hlast, hlastFile⟩ := ih (List.filterMap_eq_nil_iff.2 hrs) (a.handle q.1 q.2).1
    exact ⟨hlast.trans hsession, hlastFile.trans hsessionFile⟩

theorem opening_saved {f : SessionFile} (hreadable : f.readable) (hwritable : f.writable) (d : Document)
    (journal : Journal) : (opening d f journal).Saved :=
  ⟨hreadable, hwritable, rfl⟩

/-- After a run, the field that was asked to be counted last is remembered, or the one that the file told of at the
start if no count was asked for. A request for anything else leaves what is remembered and the file as they are. If the
file can be written, then whoever starts with it as it is afterwards remembers the same just if the file can be read
too or no count was asked for. -/
theorem remembers_last (d : Document) (f : SessionFile) (journal : Journal) (rs : List (Settings × Request)) :
    let b := ((opening d f journal).run rs).1
    b.session.lastField = (Request.countedFields rs).getLast?.or f.field? ∧
    (∀ s r, (∀ name, r ≠ .countNamed name) →
      (b.handle s r).1.session = b.session ∧ (b.handle s r).1.sessionFile = b.sessionFile) ∧
    (f.writable → ∀ d' journal', (opening d' b.sessionFile journal').session = b.session ↔
      f.readable ∨ Request.countedFields rs = []) := by
  refine ⟨?_, fun s r hr => ?_, fun hwritable d' journal' => ⟨fun hsame => ?_, ?_⟩⟩
  · rw [run_lastField, ← f.lastField_load]
    rfl
  · obtain ⟨hsession, hsessionFile⟩ := handle_remembers s ((opening d f journal).run rs).1 r
    rw [hsession, hsessionFile, remember_of_none (Request.countedField?_eq_none_iff.2 hr)]
    exact ⟨rfl, rfl⟩
  · by_contra hnone
    obtain ⟨hunreadable, hcounted⟩ := not_or.1 hnone
    have hload : ((opening d f journal).run rs).1.sessionFile.load = .empty :=
      SessionFile.load_of_unreadable (by rwa [run_readable])
    have hlast := run_lastField (opening d f journal) rs
    rw [← hsame, List.getLast?_eq_some_getLast hcounted] at hlast
    exact Option.some_ne_none _ (hlast.symm.trans (congrArg SessionState.lastField hload))
  · rintro (hreadable | hnone)
    · exact (run_saved (opening_saved hreadable hwritable d journal) rs).load
    · obtain ⟨hsession, hsessionFile⟩ := run_sessionFile hnone (opening d f journal)
      rw [hsession, hsessionFile]
      rfl

/-- The file tells of a field in a list, and then of the one that is counted. -/
theorem remembers_last_listed :
    let f : SessionFile := .file .full (some "[\"title\"]")
    let b := ((opening .typeset f .off).run [(.offline, .countNamed "price\n"), (.offline, .summary)]).1
    f.field? = some "title" ∧ b.session.lastField = some "price\n" ∧
      (b.handle .offline .layers).1.sessionFile = b.sessionFile ∧
      (opening .crowded b.sessionFile .off).session = b.session :=
  ⟨by decide +kernel, (remembers_last _ _ _ _).1, ((remembers_last _ _ _ _).2.1 .offline .layers nofun).2,
    ((remembers_last _ _ _ _).2.2 rfl _ _).2 (.inl rfl)⟩

/-- A file that can be written and not be read takes a field up, but whoever starts with it remembers none. -/
theorem not_remembers_writeOnly :
    let f : SessionFile := .file ⟨false, true⟩ none
    let b := ((opening .typeset f .off).run [(.offline, .countNamed "price")]).1
    f.writable ∧ b.session.lastField = some "price" ∧
      (opening .typeset b.sessionFile .off).session.lastField ≠ b.session.lastField :=
  ⟨rfl, rfl, by decide +kernel⟩

end Assistant

/-! ## Restarts -/

namespace SessionFile

/-- The file after assistants were started with it one after another, each with a document, a journal and requests of
its own. -/
def afterRuns (file : SessionFile) (jobs : List (Document × Journal × List (Settings × Request))) : SessionFile :=
  jobs.foldl (fun file job => ((Assistant.opening job.1 file job.2.1).run job.2.2).1.sessionFile) file

/-- A file that can be read and written remembers over all runs what one assistant would in a single run. -/
theorem restarts_remember {f : SessionFile} (hreadable : f.readable) (hwritable : f.writable)
    (jobs : List (Document × Journal × List (Settings × Request))) :
    (f.afterRuns jobs).load.lastField =
      (Request.countedFields (jobs.flatMap fun job => job.2.2)).getLast?.or f.load.lastField := by
  induction jobs generalizing f with
  | nil => rfl
  | cons job jobs ih =>
    obtain ⟨d, journal, rs⟩ := job
    have hsaved := Assistant.run_saved (Assistant.opening_saved hreadable hwritable d journal) rs
    set next := ((Assistant.opening d f journal).run rs).1.sessionFile
    have hfirst : next.load.lastField = (Request.countedFields rs).getLast?.or f.load.lastField := by
      rw [hsaved.load, Assistant.run_lastField]
      rfl
    have hnext : f.afterRuns ((d, journal, rs) :: jobs) = next.afterRuns jobs := rfl
    rw [hnext, ih hsaved.readable hsaved.writable, hfirst, List.flatMap_cons, Request.countedFields,
      Request.countedFields, Request.countedFields, List.filterMap_append, List.getLast?_append, Option.or_assoc]

end SessionFile

end DesignCanvas
