import DesignCanvas.Proofs.Editor.Move

/-!
# Histories of batches

A batch takes one step for each of its items, each from the editor that the step before has left. Its history is
the list of these steps, and everything that the batch reports is read off it (`Batch.run_eq`).
-/

namespace DesignCanvas

/-- A step as it was taken: the node that it was for, the editor that it found and what it left. -/
structure Taken where
  node : String
  before : Editor
  step : Step

namespace Taken

def succeeded (t : Taken) : Bool :=
  match t.step.verdict with
  | .ok changed => changed
  | .error _ => false

def notice? (operation : String) (t : Taken) : Option Notice :=
  match t.step.verdict with
  | .ok _ => none
  | .error error => some (.skipped operation t.node error)

theorem succeeded_iff {t : Taken} : t.succeeded ↔ t.step.verdict = .ok true := by
  unfold succeeded
  split
  · next changed h => simp [h]
  · next error h => simp [h]

end Taken

namespace Batch

/-- The steps that a batch takes for its items. -/
def history (id : α → String) (step : Editor → α → Step) (e : Editor) : List α → List Taken
  | [] => []
  | a :: as => ⟨id a, e, step e a⟩ :: history id step (step e a).editor as

def last (e : Editor) : List Taken → Editor
  | [] => e
  | t :: ts => last t.step.editor ts

variable {id : α → String} {step : Editor → α → Step}

theorem take_eq (operation : String) (b : Batch) (t : Taken) :
    b.take operation t.node t.step =
      { editor := t.step.editor
        changed := b.changed + if t.succeeded then 1 else 0
        trace := b.trace.append ⟨(t.notice? operation).toList, t.step.urls⟩
        made := b.made ++ t.step.made } := by
  obtain ⟨node, before, editor, verdict, urls, made⟩ := t
  cases verdict with
  | error x => simp [take, Taken.succeeded, Taken.notice?]
  | ok changed => cases changed <;> simp [take, Taken.succeeded, Taken.notice?]

theorem foldl_take (operation : String) (items : List α) (b : Batch) :
    items.foldl (fun b a => b.take operation (id a) (step b.editor a)) b =
      let h := history id step b.editor items
      { editor := last b.editor h
        changed := b.changed + h.countP Taken.succeeded
        trace := b.trace.append ⟨h.filterMap (Taken.notice? operation), h.flatMap fun t => t.step.urls⟩
        made := b.made ++ h.flatMap fun t => t.step.made } := by
  induction items generalizing b with
  | nil => simp [history, last, Trace.append]
  | cons a as ih =>
    rw [List.foldl_cons, ih, take_eq operation b ⟨id a, b.editor, step b.editor a⟩]
    simp only [history, last, List.countP_cons, List.flatMap_cons, Trace.append, List.append_assoc,
      List.filterMap_cons]
    congr 1
    · omega
    · cases Taken.notice? operation ⟨id a, b.editor, step b.editor a⟩ <;> rfl

/-- What a batch leaves and reports is what its history says. -/
theorem run_eq (operation : String) (id : α → String) (step : Editor → α → Step) (items : List α) (e : Editor) :
    run operation id step items e =
      let h := history id step e items
      { editor := last e h
        changed := h.countP Taken.succeeded
        trace := ⟨h.filterMap (Taken.notice? operation), h.flatMap fun t => t.step.urls⟩
        made := h.flatMap fun t => t.step.made } := by
  rw [run, foldl_take]
  simp [start, Trace.append, Trace.empty]

/-- Every step of some steps was taken from the editor that the one before has left, the first one from `e`. -/
def Chain (e : Editor) : List Taken → Prop
  | [] => True
  | t :: ts => t.before = e ∧ Chain t.step.editor ts

theorem chain_history (id : α → String) (step : Editor → α → Step) (e : Editor) (items : List α) :
    Chain e (history id step e items) := by
  induction items generalizing e with
  | nil => trivial
  | cons a as ih => exact ⟨rfl, ih _⟩

theorem history_append (id : α → String) (step : Editor → α → Step) (e : Editor) (as bs : List α) :
    history id step e (as ++ bs) = history id step e as ++ history id step (last e (history id step e as)) bs := by
  induction as generalizing e with
  | nil => rfl
  | cons a as ih => exact congrArg (List.cons _) (ih _)

theorem last_append (e : Editor) (ts us : List Taken) : last e (ts ++ us) = last (last e ts) us := by
  induction ts generalizing e with
  | nil => rfl
  | cons t ts ih => exact ih _

theorem forall_history {P : Taken → Prop} (h : ∀ e a, P ⟨id a, e, step e a⟩) (e : Editor) (items : List α) :
    ∀ t ∈ history id step e items, P t := by
  induction items generalizing e with
  | nil => simp [history]
  | cons a as ih =>
    intro t ht
    rcases List.mem_cons.1 ht with rfl | ht
    · exact h e a
    · exact ih _ t ht

theorem Chain.last_rel {R : Editor → Editor → Prop} (hrefl : ∀ e, R e e)
    (htrans : ∀ e₁ e₂ e₃, R e₁ e₂ → R e₂ e₃ → R e₁ e₃) {e : Editor} {h : List Taken} (hc : Chain e h)
    (hstep : ∀ t ∈ h, R t.before t.step.editor) : R e (last e h) := by
  induction h generalizing e with
  | nil => exact hrefl e
  | cons t ts ih =>
    obtain ⟨rfl, hc⟩ := hc
    have hfirst : R t.before t.step.editor := hstep t (List.mem_cons_self ..)
    have hrest : R t.step.editor (last t.step.editor ts) :=
      ih hc fun u hu => hstep u (List.mem_cons_of_mem _ hu)
    exact htrans _ _ _ hfirst hrest

end Batch

theorem Editor.onSelection_eq (e : Editor) (operation : List Node → Result β) :
    e.onSelection operation =
      if e.document.roots = [] then .refuse e .emptySelection else operation e.document.roots := by
  unfold onSelection
  cases e.document.roots <;> simp

end DesignCanvas
