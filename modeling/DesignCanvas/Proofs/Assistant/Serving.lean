import DesignCanvas.Assistant.Serve
import DesignCanvas.Proofs.Json.Compact
import DesignCanvas.Proofs.Json.Trailing
import DesignCanvas.Proofs.Text.Reading

/-!
# Serving is handling

Serving a text is handling the requests in its lines one after another (`Assistant.serves`). Every line that is not
blank gets one reply, which is written as one line. A line that is no request gets an error and leaves everything as it
was, so the text can do without it. And a text can be served in two parts: a carriage return at the end of the first
part, which belongs to the end of a line once a line feed comes after it, makes a difference at most to what is said of
a line that is no request.
-/

namespace DesignCanvas

namespace Request

/-- The requests in the lines of a text. -/
def ofText (text : String) : List Request :=
  (Assistant.requestLines text).filterMap ofLine?

/-- The lines of a text that are requests. -/
def soundLines (text : String) : List String :=
  (Assistant.requestLines text).filter fun line => (ofLine? line).isSome

/-- The text without its blank lines and the lines that are no requests. -/
def cleaned (text : String) : String :=
  String.join ((soundLines text).map (· ++ "\n"))

end Request

/-- Replies that are the same, but for what is said of a line that is no request. -/
inductive Reply.SameButReason : Reply → Reply → Prop
  | refl (reply : Reply) : SameButReason reply reply
  | reasons (reason reason' : String) : SameButReason ⟨.invalid reason, .empty⟩ ⟨.invalid reason', .empty⟩

theorem Reply.forall₂_sameButReason (replies : List Reply) : List.Forall₂ SameButReason replies replies :=
  List.forall₂_same.2 fun reply _ => .refl reply

theorem Response.invalid_inj {reason reason' : String} (h : invalid reason = invalid reason') : reason = reason' := by
  have hmessage := congrArg (fun r => r.message.toList) h
  exact String.toList_inj.1 (by simpa [invalid, Response.error] using hmessage)

/-- What is said of the line that a text ends in does not hang on a carriage return at the end of it. -/
def Settings.EndsAlike (s : Settings) (text : String) : Prop :=
  ∀ line, (Text.splitAt '\n' text.toList).getLast? = some (line ++ ['\r']) → Text.allBlank line = false →
    Request.ofLine? (String.ofList line) = none →
    s.complaint (String.ofList (line ++ ['\r'])) = s.complaint (String.ofList line)

namespace Assistant

/-- Handles requests one after another. -/
def handleAll (s : Settings) (a : Assistant) : List Request → Assistant × List Reply
  | [] => (a, [])
  | r :: rs =>
    let (b, reply) := a.handle s r
    let (c, replies) := b.handleAll (s.after reply) rs
    (c, reply :: replies)

/-- The text that replies are written as. -/
def written (replies : List Reply) : String :=
  String.join (replies.map fun reply => reply.response.line)

/-- An assistant serves a text by handling the requests in it. -/
structure Serves (s : Settings) (a : Assistant) (text : String) : Prop where
  /-- The assistant afterwards is the one that has handled the requests. -/
  assistant : (a.serve s text).1 = (a.handleAll s (Request.ofText text)).1
  /-- There is one reply for each line that is not blank. -/
  length : (a.serve s text).2.length = (requestLines text).length
  /-- The replies to requests are those that come from handling them. -/
  requests : (((requestLines text).zip (a.serve s text).2).filter fun p => (Request.ofLine? p.1).isSome).map Prod.snd =
    (a.handleAll s (Request.ofText text)).2
  /-- The other replies are errors. -/
  faults : ∀ p ∈ (requestLines text).zip (a.serve s text).2, Request.ofLine? p.1 = none →
    p.2 = ⟨.invalid (s.complaint p.1), .empty⟩
  /-- Each reply is written as one line. -/
  lines : Text.lines (written (a.serve s text).2).toList =
    (a.serve s text).2.map fun reply => reply.response.toJson.compact.toList
  /-- Without the other lines, the same is handled and nothing else is replied. -/
  cleaned : a.serve s (Request.cleaned text) = a.handleAll s (Request.ofText text)
  /-- Another text can be served afterwards or together with the first one, on lines of its own. Then the replies are
  the same, but for what is said of the line that the first text ends in. -/
  joined : ∀ text',
    let (b, replies) := a.serve s text
    let (c, replies') := b.serve (replies.foldl Settings.after s) text'
    let together := a.serve s (text ++ "\n" ++ text')
    together.1 = c ∧ List.Forall₂ Reply.SameButReason together.2 (replies ++ replies') ∧
      (together.2 = replies ++ replies' ↔ s.EndsAlike text)

/-! ## Settings -/

variable {s : Settings} {a : Assistant} {ls : List String}

theorem after_invalid (s : Settings) (reason : String) : s.after ⟨.invalid reason, .empty⟩ = s := by
  have hdrop : s.source.drop 0 = s.source :=
    congrArg ChangingSource.mk (funext fun n => congrArg s.source.after (Nat.zero_add n))
  exact congrArg (fun source => { s with source }) hdrop

theorem complaint_foldl_after (s : Settings) (replies : List Reply) :
    (replies.foldl Settings.after s).complaint = s.complaint := by
  induction replies generalizing s with
  | nil => rfl
  | cons reply replies ih => exact ih _

theorem foldl_after_congr {replies replies' : List Reply} (h : List.Forall₂ Reply.SameButReason replies replies') :
    replies.foldl Settings.after s = replies'.foldl Settings.after s := by
  induction h generalizing s with
  | nil => rfl
  | cons hreply _ ih =>
    cases hreply with
    | refl => exact ih
    | reasons => rw [List.foldl_cons, List.foldl_cons, after_invalid, after_invalid, ih]

/-! ## Lines -/

theorem answerAll_append (s : Settings) (a : Assistant) (ls ls' : List String) :
    a.answerAll s (ls ++ ls') =
      let (b, replies) := a.answerAll s ls
      let (c, replies') := b.answerAll (replies.foldl Settings.after s) ls'
      (c, replies ++ replies') := by
  induction ls generalizing s a with
  | nil => rfl
  | cons l ls ih =>
    rw [List.cons_append, answerAll, answerAll]
    dsimp only
    rw [ih]
    rfl

theorem answerAll_concat (s : Settings) (a : Assistant) (ls : List String) (l : String) :
    a.answerAll s (ls ++ [l]) =
      let (b, replies) := a.answerAll s ls
      let (c, reply) := b.answer (replies.foldl Settings.after s) l
      (c, replies ++ [reply]) := by
  rw [answerAll_append]
  rfl

theorem answerAll_of_requests (h : ∀ l ∈ ls, (Request.ofLine? l).isSome) :
    a.answerAll s ls = a.handleAll s (ls.filterMap Request.ofLine?) := by
  induction ls generalizing s a with
  | nil => rfl
  | cons l ls ih =>
    obtain ⟨hl, hls⟩ := List.forall_mem_cons.1 h
    obtain ⟨r, hr⟩ := Option.isSome_iff_exists.1 hl
    rw [List.filterMap_cons_some hr, answerAll, handleAll, answer, hr]
    dsimp only
    rw [ih hls]

theorem answerAll_handles (s : Settings) (a : Assistant) (ls : List String) :
    let served := a.answerAll s ls
    let handled := a.handleAll s (ls.filterMap Request.ofLine?)
    served.1 = handled.1 ∧ served.2.length = ls.length ∧
      ((ls.zip served.2).filter fun p => (Request.ofLine? p.1).isSome).map Prod.snd = handled.2 ∧
      ∀ p ∈ ls.zip served.2, Request.ofLine? p.1 = none → p.2 = ⟨.invalid (s.complaint p.1), .empty⟩ := by
  induction ls generalizing s a with
  | nil => exact ⟨rfl, rfl, rfl, nofun⟩
  | cons l ls ih =>
    cases hr : Request.ofLine? l with
    | none =>
      have hanswer : a.answer s l = (a, ⟨.invalid (s.complaint l), .empty⟩) := by rw [answer, hr]
      obtain ⟨hassistant, hlength, hrequests, hfaults⟩ := ih s a
      rw [List.filterMap_cons_none hr, answerAll, hanswer]
      dsimp only
      rw [after_invalid]
      refine ⟨hassistant, congrArg (· + 1) hlength, ?_, List.forall_mem_cons.2 ⟨fun _ => rfl, hfaults⟩⟩
      rwa [List.zip_cons_cons, List.filter_cons_of_neg (by simp [hr])]
    | some r =>
      have hanswer : a.answer s l = a.handle s r := by rw [answer, hr]
      obtain ⟨hassistant, hlength, hrequests, hfaults⟩ := ih (s.after (a.handle s r).2) (a.handle s r).1
      rw [List.filterMap_cons_some hr, answerAll, handleAll, hanswer]
      refine ⟨hassistant, congrArg (· + 1) hlength, ?_, List.forall_mem_cons.2 ⟨fun hnone => ?_, hfaults⟩⟩
      · rw [List.zip_cons_cons, List.filter_cons_of_pos (by simp [hr]), List.map_cons, hrequests]
      · rw [hr] at hnone
        cases hnone

/-! ## Texts -/

theorem ofLine?_return (l : List Char) :
    Request.ofLine? (String.ofList (l ++ ['\r'])) = Request.ofLine? (String.ofList l) := by
  have htext : String.ofList (l ++ ['\r']) = String.ofList l ++ String.singleton '\r' := by
    rw [String.ofList_append]
    rfl
  rw [Request.ofLine?, Request.ofLine?, htext, Json.parse?_blank rfl]

theorem allBlank_return (l : List Char) : Text.allBlank (l ++ ['\r']) = Text.allBlank l := by
  rw [Text.allBlank, Text.allBlank, List.all_append]
  simp [show Text.isBlank '\r' = true from rfl]

/-- A carriage return at the end of a line makes a difference at most to what is said of it. -/
theorem answer_return (s : Settings) (a : Assistant) (l : List Char) :
    let bare := a.answer s (String.ofList l)
    let returned := a.answer s (String.ofList (l ++ ['\r']))
    bare.1 = returned.1 ∧ Reply.SameButReason bare.2 returned.2 ∧
      (bare.2 = returned.2 ↔ (Request.ofLine? (String.ofList l) = none →
        s.complaint (String.ofList (l ++ ['\r'])) = s.complaint (String.ofList l))) := by
  dsimp only
  cases hr : Request.ofLine? (String.ofList l) with
  | some r =>
    rw [answer, answer, ofLine?_return, hr]
    exact ⟨rfl, .refl _, iff_of_true rfl nofun⟩
  | none =>
    rw [answer, answer, ofLine?_return, hr]
    refine ⟨rfl, .reasons _ _, fun heq _ => ?_, fun halike => ?_⟩
    · exact (Response.invalid_inj (Reply.mk.inj heq).1).symm
    · dsimp only
      rw [halike rfl]

theorem readings_eq (text : String) : (requestLines text).map Request.ofLine? =
    ((Text.splitAt '\n' text.toList).filter fun l => !Text.allBlank l).map
      fun l => Request.ofLine? (String.ofList l) := by
  rw [requestLines, List.map_map, Text.lines]
  exact Text.map_filter_linesOfPieces rfl (fun l => by rw [allBlank_return]) ofLine?_return _

/-- The lines of a text, after which another one begins on a line of its own. -/
def endedLines (text : String) : List String :=
  (((Text.splitAt '\n' text.toList).map Text.dropReturn).filter fun line => !Text.allBlank line).map String.ofList

theorem requestLines_append (text text' : String) :
    requestLines (text ++ "\n" ++ text') = endedLines text ++ requestLines text' := by
  have hlist : (text ++ "\n" ++ text').toList = text.toList ++ '\n' :: text'.toList := by
    rw [String.toList_append, String.toList_append, List.append_assoc]
    rfl
  rw [requestLines, hlist, Text.lines_append_cons, List.filter_append, List.map_append]
  rfl

theorem endedLines_cases (text : String) :
    (endedLines text = requestLines text ∧
      ∀ line, (Text.splitAt '\n' text.toList).getLast? = some (line ++ ['\r']) → Text.allBlank line) ∨
    ∃ ls line, (Text.splitAt '\n' text.toList).getLast? = some (line ++ ['\r']) ∧ Text.allBlank line = false ∧
      requestLines text = ls ++ [String.ofList (line ++ ['\r'])] ∧ endedLines text = ls ++ [String.ofList line] := by
  obtain ⟨ps, p, hpieces⟩ :=
    List.eq_nil_or_concat' (Text.splitAt '\n' text.toList) |>.resolve_left (Text.splitAt_ne_nil _ _)
  set plain : List Char → Bool := fun line => !Text.allBlank line with hplain
  set ls := ((ps.map Text.dropReturn).filter plain).map String.ofList
  have hended : endedLines text = ls ++ (([Text.dropReturn p]).filter plain).map String.ofList := by
    rw [endedLines, hpieces, List.map_append, List.filter_append, List.map_append]
    rfl
  have hopen : requestLines text = ls ++ (([p]).filter plain).map String.ofList := by
    rw [requestLines, Text.lines, hpieces, Text.linesOfPieces_append ps (List.cons_ne_nil p []), List.filter_append,
      List.map_append, Text.linesOfPieces]
    cases p <;> rfl
  rw [hpieces, List.getLast?_concat]
  by_cases hreturn : p.getLast? = some '\r'
  · obtain ⟨line, rfl⟩ := List.getLast?_eq_some_iff.1 hreturn
    have hdrop : Text.dropReturn (line ++ ['\r']) = line := by
      rw [Text.dropReturn, if_pos hreturn, List.dropLast_concat]
    rw [hdrop] at hended
    cases hblank : Text.allBlank line with
    | true =>
      refine .inl ⟨?_, fun line' hline' => ?_⟩
      · simp [hended, hopen, hplain, allBlank_return, hblank]
      · rwa [← List.append_cancel_right (Option.some.inj hline')]
    | false =>
      refine .inr ⟨ls, line, rfl, hblank, ?_, ?_⟩
      · simp [hopen, hplain, allBlank_return, hblank]
      · simp [hended, hplain, hblank]
  · have hdrop : Text.dropReturn p = p := if_neg hreturn
    refine .inl ⟨by rw [hended, hdrop, hopen], fun line hline => absurd ?_ hreturn⟩
    rw [Option.some.inj hline, List.getLast?_concat]

theorem endsAlike_iff {s : Settings} {text : String} {line : List Char}
    (hlast : (Text.splitAt '\n' text.toList).getLast? = some (line ++ ['\r'])) (hplain : Text.allBlank line = false) :
    s.EndsAlike text ↔ (Request.ofLine? (String.ofList line) = none →
      s.complaint (String.ofList (line ++ ['\r'])) = s.complaint (String.ofList line)) := by
  refine ⟨fun h => h line hlast hplain, fun h line' hlast' _ => ?_⟩
  obtain rfl : line = line' := List.append_cancel_right (Option.some.inj (hlast.symm.trans hlast'))
  exact h

/-- To end the last line of a text makes a difference at most to what is said of it. -/
theorem answerAll_endedLines (s : Settings) (a : Assistant) (text : String) :
    let ended := a.answerAll s (endedLines text)
    let served := a.serve s text
    ended.1 = served.1 ∧ List.Forall₂ Reply.SameButReason ended.2 served.2 ∧
      (ended.2 = served.2 ↔ s.EndsAlike text) := by
  rcases endedLines_cases text with ⟨hsame, hlast⟩ | ⟨ls, line, hlast, hplain, hopen, hended⟩
  · rw [hsame]
    exact ⟨rfl, Reply.forall₂_sameButReason _, iff_of_true rfl fun line hline hplain =>
      absurd (hlast line hline) (by simp [hplain])⟩
  · obtain ⟨hassistant, hreply, hiff⟩ :=
      answer_return ((a.answerAll s ls).2.foldl Settings.after s) (a.answerAll s ls).1 line
    rw [complaint_foldl_after] at hiff
    dsimp only
    rw [serve, hopen, hended, answerAll_concat, answerAll_concat]
    refine ⟨hassistant, List.rel_append (Reply.forall₂_sameButReason _) (.cons hreply .nil), ?_⟩
    rw [endsAlike_iff hlast hplain, ← hiff]
    exact (List.append_right_inj _).trans List.singleton_inj

theorem newline_notMem_requestLines {text line : String} (h : line ∈ requestLines text) :
    '\n' ∉ line.toList ∧ Text.allBlank line.toList = false := by
  obtain ⟨l, hl, rfl⟩ := List.mem_map.1 h
  obtain ⟨hline, hblank⟩ := List.mem_filter.1 hl
  rw [String.toList_ofList]
  exact ⟨Text.newline_notMem_of_mem_lines hline, by simpa using hblank⟩

theorem toList_lines (f : α → String) (as : List α) :
    (String.join (as.map fun a => f a ++ "\n")).toList = (as.map fun a => (f a).toList).flatMap (· ++ ['\n']) := by
  rw [String.toList_join, List.flatMap_map, List.flatMap_map]
  exact List.flatMap_congr fun a _ => String.toList_append ..

theorem readings_cleaned (text : String) : (requestLines (Request.cleaned text)).map Request.ofLine? =
    (Request.soundLines text).map Request.ofLine? := by
  have hplain : ∀ l ∈ (Request.soundLines text).map String.toList, '\n' ∉ l ∧ Text.allBlank l = false :=
    List.forall_mem_map.2 fun line hline => newline_notMem_requestLines (List.mem_filter.1 hline).1
  have hlist : (Request.cleaned text).toList =
      ((Request.soundLines text).map String.toList).flatMap (· ++ ['\n']) := toList_lines (fun line => line) _
  have hkept : ((Request.soundLines text).map String.toList ++ [[]]).filter (fun l => !Text.allBlank l) =
      (Request.soundLines text).map String.toList := by
    rw [List.filter_append, List.filter_eq_self.2 fun l hl => by simp [(hplain l hl).2]]
    exact List.append_nil _
  rw [readings_eq, hlist, Text.splitAt_flatMap fun l hl => (hplain l hl).1, hkept, List.map_map]
  exact List.map_congr_left fun line _ => congrArg Request.ofLine? String.ofList_toList

theorem lines_join (f : α → Json) (as : List α) :
    Text.lines (String.join (as.map fun a => (f a).compact ++ "\n")).toList = as.map fun a => (f a).compact.toList := by
  rw [toList_lines fun a => (f a).compact]
  refine Text.lines_flatMap _ (List.forall_mem_map.2 fun a _ => ?_)
  have hprintable := Json.printable_compact (f a)
  exact ⟨hprintable.newline_notMem, fun hlast => hprintable.return_notMem (List.mem_of_getLast? hlast)⟩

theorem lines_written (replies : List Reply) : Text.lines (written replies).toList =
    replies.map fun reply => reply.response.toJson.compact.toList := by
  simp only [written, Response.line]
  exact lines_join (fun reply : Reply => reply.response.toJson) replies

-- an object that the text ends in before it is closed
example (s : Settings) (h : s.complaint "\x7b\r" ≠ s.complaint "\x7b") : ¬ s.EndsAlike "\x7b\r" :=
  fun halike => h (halike ['\x7b'] (by decide +kernel) (by decide +kernel) (by decide +kernel))

end Assistant

end DesignCanvas
