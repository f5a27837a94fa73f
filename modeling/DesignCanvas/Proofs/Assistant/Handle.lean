import DesignCanvas.Proofs.Assistant.Effect
import DesignCanvas.Proofs.Document.Distinct

/-!
# Handling requests

Two promises of an assistant. Whatever it is asked for and in whatever order, the ids of nodes and those of styles
stay distinct (`Assistant.states_distinct`). And what it answers is what happened: an error says that nothing did,
and a success counts the steps that changed their nodes, while those that failed changed none
(`Assistant.handle_atomic`).
-/

namespace DesignCanvas

namespace Assistant

variable {s : Settings} {a : Assistant} {r : Request}

theorem remember_editor (a : Assistant) (r : Request) : (a.remember r).editor = a.editor := by
  unfold remember
  split <;> rfl

theorem handle_editor (s : Settings) (a : Assistant) (r : Request) :
    (a.handle s r).1.editor = (r.carryOut s a.editor).1 := by
  rw [handle, remember_editor]

theorem handle_reaches (s : Settings) (a : Assistant) (r : Request) : Editor.Reaches a.editor (a.handle s r).1.editor := by
  rw [handle_editor]
  exact r.carryOut_reaches s a.editor

/-! ## Distinct ids -/

/-- The assistants that are there one after another while requests are handled, the first and the last included.
Each request comes with settings of its own. -/
def states (a : Assistant) : List (Settings × Request) → List Assistant
  | [] => [a]
  | (s, r) :: rs => a :: (a.handle s r).1.states rs

theorem self_mem_states (a : Assistant) (rs : List (Settings × Request)) : a ∈ a.states rs := by
  cases rs <;> exact List.mem_cons_self ..

theorem handle_distinct (s : Settings) (r : Request) (h : a.editor.document.Distinct) :
    (a.handle s r).1.editor.document.Distinct :=
  (a.handle_reaches s r).keeps (fun _ _ => Editor.Move.keeps_distinct) h

/-- If the ids are distinct at first, then they are after every request of a run. -/
theorem states_distinct (a : Assistant) (rs : List (Settings × Request)) (h : a.editor.document.Distinct) :
    ∀ b ∈ a.states rs, b.editor.document.Distinct := by
  induction rs generalizing a with
  | nil =>
    intro b hb
    rw [List.mem_singleton.1 hb]
    exact h
  | cons q rs ih =>
    obtain ⟨s, r⟩ := q
    intro b hb
    rcases List.mem_cons.1 hb with rfl | hb
    · exact h
    · exact ih _ (handle_distinct s r h) b hb

end Assistant

/-- A frame in which a node already has the id that the first copy of another one would get. -/
def Document.crowded : Document where
  nodes := [.branch (.bare "1:1" "Frame" .frame)
    [.leaf (.bare "1:2" "A" .rectangle), .leaf (.bare "1:2-copy-1" "B" .rectangle)]]
  selection := ["1:1", "1:2", "9:9"]
  styles := [⟨"S:1", "color/000000", .paint, some ⟨0.0, 0.0, 0.0⟩, none, none⟩]
  unavailableFonts := []
  images := .empty

/-- Settings without any pictures. -/
def Settings.offline : Settings where
  defaultLabel := ""
  smallestEdge := 1
  source := ⟨fun _ url => .error (.status url 404)⟩
  complaint line := s!"no request in {line.length} characters"

namespace Assistant

theorem states_distinct_crowded :
    Document.crowded.Distinct ∧
      ∀ b ∈ (opening Document.crowded .off .off).states (.replicate 3 (.offline, .command "복제")),
        b.editor.document.Distinct :=
  ⟨by decide, states_distinct _ _ (by decide)⟩

/-! ## Failures -/

/-- An answer with an error says that everything in the document is as it was, but for pictures. The success of a
request that works node by node counts the steps of its history that changed their nodes, at least one; the history
leads from the document before to the one after, and the steps that did not change their nodes changed none. -/
theorem handle_atomic (s : Settings) (a : Assistant) (r : Request) :
    let p := a.handle s r
    let h := r.history s a.editor
    (r.fills = false → p.2.response.status = .error → a.editor.document.Alike p.1.editor.document) ∧
      (r.stepwise → p.2.response.status = .success →
        (∃ n, p.2.response.changed = some n ∧ 1 ≤ n ∧ n = h.countP Taken.succeeded) ∧
        Batch.Chain a.editor h ∧
        p.1.editor.document.nodes = (Batch.last a.editor h).document.nodes ∧
        (∃ operation, p.2.trace.notices = h.filterMap (Taken.notice? operation)) ∧
        ∀ t ∈ h, ¬ t.succeeded → t.step.editor.document.nodes = t.before.document.nodes) := by
  dsimp only
  rw [handle_editor]
  refine ⟨fun hfills herror => Request.carryOut_alike hfills herror, fun hsteps hsuccess => ?_⟩
  have hdone := Request.carryOut_done s a.editor hsteps
  refine ⟨?_, r.chain_history s a.editor, ?_, hdone.notices, fun t ht hfailed => ?_⟩
  · rcases hdone.response with ⟨-, herror⟩ | ⟨hpos, -, hchanged⟩
    · exact absurd (herror.symm.trans hsuccess) (by decide)
    · exact ⟨_, hchanged, hpos, rfl⟩
  · rcases hdone.editor with heq | ⟨-, ids, heq⟩
    · rw [heq]
    · rw [heq]
      rfl
  · rcases Request.step_nodes ht with hchanged | hnodes
    · exact absurd (Taken.succeeded_iff.2 hchanged) hfailed
    · exact hnodes

theorem handle_atomic_crowded :
    let a := opening Document.crowded .off .off
    let found := ⟨"1:2", "C"⟩
    let missing := ⟨"9:9", "D"⟩
    (∃ n, (a.handle .offline (.rename [missing, found])).2.response.changed = some n ∧ 1 ≤ n ∧
      n = ((Request.rename [missing, found]).history .offline a.editor).countP Taken.succeeded) ∧
    a.editor.document.Alike (a.handle .offline (.rename [missing])).1.editor.document :=
  ⟨((handle_atomic _ _ _).2 rfl (by decide)).1, (handle_atomic _ _ _).1 rfl (by decide)⟩

end Assistant

end DesignCanvas
