import DesignCanvas.Proofs.Assistant.History
import DesignCanvas.Proofs.Editor.Failure

/-!
# Effects of requests

What a request does to the document that an assistant edits: every request is a run of moves
(`Request.carryOut_reaches`), and one that is answered with an error changes nothing, unless it fills with pictures
(`Request.carryOut_alike`).
-/

namespace DesignCanvas

open Editor

/-! ## Steps of requests -/

theorem Step.seek_clean (e : Editor) (id : String) : Step.Clean e (Step.seek e id) :=
  Or.inr (.of_eq (congrArg Editor.document (taken_seek e id).1))

namespace Intent

theorem step_clean (i : Intent) (e : Editor) (id : String) : Step.Clean e (i.step e id) := by
  cases i with
  | replaceText search replacement => exact Step.writeText_clean _ e id
  | replaceAllText text => exact Step.writeText_clean _ e id
  | setColor hex color =>
    refine Step.onNode_clean fun a => ?_
    split
    · exact Step.ofEdit_clean rfl _
    · exact Step.pass_clean e
  | resizeWidth | resizeHeight | setOpacity | setCornerRadius =>
    exact Step.onNode_clean fun a => Step.ite_clean (Step.ofEdit_clean rfl _)
  | setFontSize size => exact Step.onNode_clean fun a => Step.ite_clean (Step.withFonts_clean a _)
  | duplicate => exact Step.copy_clean e id
  | move dx dy => exact Step.onNode_clean fun a => Step.ofEdit_clean rfl _
  | delete | reveal | hide | rename => exact Step.ofEdit_clean rfl _

theorem step_drifts {i : Intent} (hduplicate : i ≠ .duplicate) (hdelete : i ≠ .delete) (e : Editor) (id : String) :
    Drifts e (i.step e id).editor := by
  cases i with
  | replaceText search replacement => exact Step.writeText_drifts _ e id
  | replaceAllText text => exact Step.writeText_drifts _ e id
  | setColor hex color => exact Step.setColor_drifts color e id
  | resizeWidth width => exact Step.setWidth_drifts _ e id
  | resizeHeight height => exact Step.setHeight_drifts _ e id
  | setOpacity percent => exact Step.setOpacity_drifts _ e id
  | duplicate => exact absurd rfl hduplicate
  | delete => exact absurd rfl hdelete
  | setFontSize size => exact Step.setFontSize_drifts _ e id
  | move dx dy => exact Step.moveBy_drifts _ _ e id
  | reveal => exact Step.setVisible_drifts true e id
  | hide => exact Step.setVisible_drifts false e id
  | rename name => exact Step.setName_drifts name e id
  | setCornerRadius radius => exact Step.setCornerRadius_drifts _ e id

theorem step_reaches (i : Intent) (e : Editor) (id : String) : Reaches e (i.step e id).editor := by
  by_cases hduplicate : i = .duplicate
  · rw [hduplicate]
    exact Step.copy_reaches e id
  by_cases hdelete : i = .delete
  · rw [hdelete]
    exact Step.remove_reaches e id
  exact (step_drifts hduplicate hdelete e id).reaches

end Intent

namespace Request

variable {s : Settings} {e : Editor} {r : Request} {t : Taken}

theorem step_reaches (ht : t ∈ r.history s e) : Reaches t.before t.step.editor := by
  cases origin_of_mem_history s e r t ht with
  | intent i hstep =>
    rw [hstep]
    exact i.step_reaches t.before t.node
  | choice hstep =>
    rw [hstep, (taken_seek t.before t.node).1]
    exact .refl _
  | picture _ source kind hstep =>
    rw [hstep]
    exact (Step.fillPicture_drifts source kind _ t.before t.node).reaches

theorem clean_or_picture (ht : t ∈ r.history s e) :
    Step.Clean t.before t.step ∨
      (r.fills = true ∧ ∃ source kind, t.step = Step.fillPicture source kind s.smallestEdge t.before t.node) := by
  cases origin_of_mem_history s e r t ht with
  | intent i hstep =>
    rw [hstep]
    exact Or.inl (i.step_clean t.before t.node)
  | choice hstep =>
    rw [hstep]
    exact Or.inl (Step.seek_clean t.before t.node)
  | picture hfills source kind hstep => exact Or.inr ⟨hfills, source, kind, hstep⟩

theorem step_clean (hfills : r.fills = false) (ht : t ∈ r.history s e) : Step.Clean t.before t.step := by
  rcases clean_or_picture ht with hclean | ⟨hpicture, -⟩
  · exact hclean
  · exact absurd (hfills.symm.trans hpicture) (by decide)

theorem step_nodes (ht : t ∈ r.history s e) :
    t.step.verdict = .ok true ∨ t.step.editor.document.nodes = t.before.document.nodes := by
  rcases clean_or_picture ht with hclean | ⟨-, source, kind, hstep⟩
  · exact hclean.imp_right Document.Alike.nodes
  · rw [hstep]
    exact Step.fillPicture_nodes source kind _ t.before t.node

theorem last_reaches (s : Settings) (e : Editor) (r : Request) : Reaches e (Batch.last e (r.history s e)) :=
  (chain_history s e r).last_rel .refl (fun _ _ _ => .trans) fun _ => step_reaches

theorem last_alike (hfills : r.fills = false) (hnone : (r.history s e).countP Taken.succeeded = 0) :
    e.document.Alike (Batch.last e (r.history s e)).document := by
  refine (chain_history s e r).last_rel (R := fun e e' => e.document.Alike e'.document) (fun e => .refl _)
    (fun _ _ _ => .trans) fun t ht => ?_
  rcases step_clean hfills ht with hchanged | halike
  · exact absurd (Taken.succeeded_iff.2 hchanged) (List.countP_eq_zero.1 hnone t ht)
  · exact halike

/-! ## Replies -/

/-- What a request that works node by node leaves and replies, after given steps. -/
structure Done (e : Editor) (h : List Taken) (e' : Editor) (reply : Reply) : Prop where
  editor : e' = Batch.last e h ∨ (0 < h.countP Taken.succeeded ∧ ∃ ids, e' = (Batch.last e h).select ids)
  response : (h.countP Taken.succeeded = 0 ∧ reply.response.status = .error) ∨
    (0 < h.countP Taken.succeeded ∧ reply.response.status = .success ∧
      reply.response.changed = some (h.countP Taken.succeeded))
  notices : ∃ operation, reply.trace.notices = h.filterMap (Taken.notice? operation)

theorem Done.of_ran {h : List Taken} {res : Result Outcome} {p : Editor × Reply} (hran : Ran e h res)
    (hok : ∀ o, res.answer = .ok o → ∃ operation, p = (res.editor, ⟨changedResponse operation o, res.trace⟩))
    (herror : ∀ refusal, res.answer = .error refusal →
      ∃ operation message, p = (res.editor, ⟨.error operation message, res.trace⟩)) :
    Done e h p.1 p.2 := by
  rcases hran.answer with ⟨hzero, refusal, hanswer⟩ | ⟨hpos, message, hanswer⟩
  · obtain ⟨operation, message, rfl⟩ := herror refusal hanswer
    exact ⟨hran.editor, Or.inl ⟨hzero, rfl⟩, hran.notices⟩
  · obtain ⟨operation, rfl⟩ := hok _ hanswer
    exact ⟨hran.editor, Or.inr ⟨hpos, rfl, rfl⟩, hran.notices⟩

theorem conclude_done {h : List Taken} {res : Result Outcome} (operation : String) (hran : Ran e h res) :
    Done e h (conclude operation (changedResponse operation) res).1
      (conclude operation (changedResponse operation) res).2 := by
  refine Done.of_ran hran (fun o ho => ⟨operation, ?_⟩) fun refusal hr => ⟨operation, refusal.message, ?_⟩
  · rw [conclude, ho]
  · rw [conclude, hr]

theorem runCommand_done (s : Settings) (e : Editor) (operation text : String) :
    Done e ((command text).history s e) (runCommand e operation text).1 (runCommand e operation text).2 := by
  rw [history, runCommand]
  cases Command.parse text with
  | error error => exact ⟨Or.inl rfl, Or.inl ⟨rfl, rfl⟩, "", rfl⟩
  | ok i =>
    dsimp only
    refine Done.of_ran (e.apply_ran i) (fun o ho => ⟨operation, ?_⟩) fun refusal hr => ?_
    · rw [ho]
    · rw [hr]
      exact ⟨operation, _, rfl⟩

theorem carryOut_done (s : Settings) (e : Editor) (h : r.stepwise) :
    Done e (r.history s e) (r.carryOut s e).1 (r.carryOut s e).2 := by
  cases r with
  | command text => exact runCommand_done s e _ text
  | rename changes => exact conclude_done _ (e.rename_ran changes)
  | renameSelected name => exact conclude_done _ (e.renameSelected_ran name)
  | renameByRole => exact conclude_done _ e.renameByRole_ran
  | fillTexts value => exact conclude_done _ (e.fillTexts_ran value)
  | fillFields fields => exact conclude_done _ (e.fillFields_ran fields)
  | fillPictures kind => exact conclude_done _ (e.fillPictures_ran s.source _ s.smallestEdge)
  | selectNode id => exact conclude_done _ (e.choose_ran [id])
  | selectNodes ids => exact conclude_done _ (e.choose_ran ids)
  | summary | layers | countNamed | audit | compare | spelling => cases h

/-! ## All requests -/

theorem lookUp_editor (e : Editor) (operation : String) (respond : α → Response) (answer : Except Refusal α) :
    (lookUp e operation respond answer).1 = e := by
  cases answer <;> rfl

theorem conclude_editor (operation : String) (respond : α → Response) (res : Result α) :
    (conclude operation respond res).1 = res.editor := by
  unfold conclude
  split <;> rfl

theorem carryOut_reaches (s : Settings) (e : Editor) (r : Request) : Reaches e (r.carryOut s e).1 := by
  by_cases hsteps : r.stepwise
  · have hlast := last_reaches s e r
    rcases (carryOut_done s e hsteps).editor with heq | ⟨-, ids, heq⟩
    · rw [heq]
      exact hlast
    · rw [heq]
      exact hlast.trans (.single (.select ids))
  · cases r with
    | summary | countNamed => exact .refl e
    | layers | compare | spelling =>
      rw [carryOut, lookUp_editor]
      exact .refl e
    | audit kind fix =>
      rw [carryOut, conclude_editor]
      exact (e.audit_drifts kind fix).reaches
    | _ => exact absurd rfl hsteps

theorem audit_error {kind : AuditKind} {fix : Bool} {refusal : Refusal}
    (h : (e.audit kind fix).answer = .error refusal) : (e.audit kind fix).editor = e := by
  unfold Editor.audit onSelection at h ⊢
  split
  · rfl
  · next n ns hroots =>
    rw [hroots] at h
    cases fix <;> cases h

theorem carryOut_alike (hfills : r.fills = false) (herror : (r.carryOut s e).2.response.status = .error) :
    e.document.Alike (r.carryOut s e).1.document := by
  by_cases hsteps : r.stepwise
  · have hdone := carryOut_done s e hsteps
    have hzero : (r.history s e).countP Taken.succeeded = 0 := by
      rcases hdone.response with ⟨hzero, -⟩ | ⟨-, hsuccess, -⟩
      · exact hzero
      · exact absurd (herror.symm.trans hsuccess) (by decide)
    have heditor : (r.carryOut s e).1 = Batch.last e (r.history s e) := by
      rcases hdone.editor with heq | ⟨hpos, -⟩
      · exact heq
      · omega
    rw [heditor]
    exact last_alike hfills hzero
  · cases r with
    | summary | countNamed => exact .refl _
    | layers | compare | spelling =>
      rw [carryOut, lookUp_editor]
      exact .refl _
    | audit kind fix =>
      rw [carryOut, conclude_editor]
      refine .of_eq (congrArg Editor.document ?_)
      cases hanswer : (e.audit kind fix).answer with
      | error refusal => exact audit_error hanswer
      | ok findings =>
        rw [carryOut, conclude, hanswer] at herror
        cases herror
    | _ => exact absurd rfl hsteps

end Request

end DesignCanvas
