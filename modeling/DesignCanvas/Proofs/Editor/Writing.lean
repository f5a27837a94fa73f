import DesignCanvas.Proofs.Document.Addressing
import DesignCanvas.Proofs.Editor.Failure
import Mathlib.Data.List.Induction
import Mathlib.Logic.Function.Iterate

/-!
# Writing texts one after another

A step that writes a text changes it if its fonts can be loaded and leaves everything as it was otherwise. So a run of
such steps carries out the rules of those whose fonts can be loaded, one after another (`Editor.history_writeText`).
-/

namespace DesignCanvas

/-- The fonts of a text can all be loaded. -/
def Document.loads (d : Document) (a : Attributes) : Bool :=
  a.requiredFonts.all fun f => f.family ∉ d.unavailableFonts

/-- The attributes with the text that a rule makes of theirs. -/
def Attributes.rewrite (rule : String → String) (a : Attributes) : Attributes :=
  { a with characters := some (rule a.text) }

/-! ## Fonts -/

namespace Editor

variable {e : Editor} {font : Font}

theorem loadFont_eq_ok (h : font.family ∉ e.document.unavailableFonts) :
    ∃ e', e.loadFont font = .ok e' ∧ e'.document = e.document ∧ font ∈ e'.loadedFonts ∧
      ∀ f ∈ e.loadedFonts, f ∈ e'.loadedFonts := by
  rw [loadFont, if_neg h]
  refine ⟨_, rfl, rfl, ?_, fun f hf => ?_⟩
  · dsimp only
    split
    · assumption
    · exact List.mem_cons_self ..
  · dsimp only
    split
    · exact hf
    · exact List.mem_cons_of_mem _ hf

theorem loadFonts_eq_none (fonts : List Font) (h : ∀ f ∈ fonts, f.family ∉ e.document.unavailableFonts) :
    ∃ e', e.loadFonts fonts = (e', none) ∧ e'.document = e.document ∧ (∀ f ∈ fonts, f ∈ e'.loadedFonts) ∧
      ∀ f ∈ e.loadedFonts, f ∈ e'.loadedFonts := by
  induction fonts generalizing e with
  | nil => exact ⟨e, rfl, rfl, by simp, fun f hf => hf⟩
  | cons font fonts ih =>
    obtain ⟨hfont, hfonts⟩ := List.forall_mem_cons.1 h
    obtain ⟨e₁, hload, hsame, hloaded, hkept⟩ := loadFont_eq_ok hfont
    obtain ⟨e₂, hloads, hsame', hloaded', hkept'⟩ := ih (e := e₁) (by rwa [hsame])
    refine ⟨e₂, by rw [loadFonts, hload]; exact hloads, hsame'.trans hsame, ?_, fun f hf => hkept' f (hkept f hf)⟩
    exact List.forall_mem_cons.2 ⟨hkept' _ hloaded, hloaded'⟩

theorem loadFonts_eq_some (fonts : List Font) (h : ∃ f ∈ fonts, f.family ∈ e.document.unavailableFonts) :
    ∃ e' error, e.loadFonts fonts = (e', some error) := by
  induction fonts generalizing e with
  | nil => simp at h
  | cons font fonts ih =>
    by_cases hfont : font.family ∈ e.document.unavailableFonts
    · exact ⟨e, .fontUnavailable font, by rw [loadFonts, loadFont, if_pos hfont]⟩
    · obtain ⟨e₁, hload, hsame, -⟩ := loadFont_eq_ok hfont
      obtain ⟨f, hf, hunavailable⟩ := h
      have hrest : f ∈ fonts := (List.mem_cons.1 hf).resolve_left fun heq => hfont (heq ▸ hunavailable)
      obtain ⟨e', error, hloads⟩ := ih (e := e₁) ⟨f, hrest, by rwa [hsame]⟩
      exact ⟨e', error, by rw [loadFonts, hload]; exact hloads⟩

end Editor

/-! ## One text -/

namespace Step

variable {e : Editor} {a : Attributes}

theorem onNode_eq (hd : (e.document.attributes.map Attributes.id).Nodup) (ha : a ∈ e.document.attributes)
    (step : Attributes → Step) : onNode e a.id step = step a := by
  obtain ⟨n, hn, rfl⟩ := Document.find?_of_mem hd ha
  rw [onNode, hn]

/-- A text whose fonts can be loaded is changed, and nothing else is. -/
theorem withFonts_of_loads (hd : (e.document.attributes.map Attributes.id).Nodup) (ha : a ∈ e.document.attributes)
    (htext : a.kind = .text) (hloads : e.document.loads a) (rule : Attributes → Attributes)
    {f : Attributes → Attributes} (hrule : rule a = f a) :
    let s := withFonts e a fun e => e.changeText a.id rule
    s.verdict = .ok true ∧ s.editor.document = { e.document with
      nodes := Forest.map (fun b => if b.id = a.id then f b else b) e.document.nodes } := by
  obtain ⟨e₁, hfonts, hsame, hloaded, -⟩ :=
    Editor.loadFonts_eq_none a.requiredFonts (by simpa [Document.loads] using hloads)
  have hchange : e₁.changeText a.id rule = .ok { e₁ with document := { e.document with
      nodes := Forest.map (fun b => if b.id = a.id then f b else b) e.document.nodes } } := by
    rw [← hsame] at hd ha ⊢
    rw [Editor.changeText, Editor.change_eq_ok hd ha (f := f)]
    rw [if_neg (not_not.2 htext), if_pos (by simpa using hloaded), hrule]
  simp only [withFonts, hfonts, hchange]
  exact ⟨rfl, rfl⟩

theorem withFonts_of_not_loads (hloads : ¬ e.document.loads a) (change : Editor → Edit) :
    (withFonts e a change).verdict ≠ .ok true ∧ (withFonts e a change).editor.document = e.document := by
  obtain ⟨e₁, error, hfonts⟩ :=
    Editor.loadFonts_eq_some a.requiredFonts (by simpa [Document.loads] using hloads)
  have hsame := loadFonts_document a.requiredFonts e
  rw [hfonts] at hsame
  rw [withFonts, hfonts]
  exact ⟨nofun, hsame⟩

end Step

/-! ## Texts one after another -/

/-- A rule for the text of the node with an id. -/
structure Rewrite where
  id : String
  rule : String → String

/-- The attributes after some rules for texts; those for other nodes leave them as they are. -/
def Attributes.rewriteAll (rs : List Rewrite) (a : Attributes) : Attributes :=
  rs.foldl (fun a r => if a.id = r.id then a.rewrite r.rule else a) a

/-- The document after some rules for texts. -/
def Document.rewriteAll (d : Document) (rs : List Rewrite) : Document :=
  { d with nodes := Forest.map (Attributes.rewriteAll rs) d.nodes }

/-- There is a node with the id, and its fonts can all be loaded. -/
def Document.loadsAt (d : Document) (id : String) : Bool :=
  d.attributes.any fun a => a.id == id && d.loads a

namespace Attributes

variable {rs : List Rewrite} {a : Attributes}

theorem rewriteAll_concat (rs : List Rewrite) (r : Rewrite) (a : Attributes) :
    a.rewriteAll (rs ++ [r]) =
      if (a.rewriteAll rs).id = r.id then (a.rewriteAll rs).rewrite r.rule else a.rewriteAll rs := by
  rw [rewriteAll, List.foldl_append]
  rfl

theorem rewriteAll_eq (rs : List Rewrite) (a : Attributes) :
    ∃ text, a.rewriteAll rs = { a with characters := text } := by
  induction rs using List.reverseRecOn with
  | nil => exact ⟨a.characters, rfl⟩
  | append_singleton rs r ih =>
    obtain ⟨text, htext⟩ := ih
    rw [rewriteAll_concat, htext]
    split
    · exact ⟨_, rfl⟩
    · exact ⟨text, rfl⟩

theorem id_rewriteAll (rs : List Rewrite) (a : Attributes) : (a.rewriteAll rs).id = a.id := by
  obtain ⟨text, htext⟩ := rewriteAll_eq rs a
  rw [htext]

theorem kind_rewriteAll : (a.rewriteAll rs).kind = a.kind := by
  obtain ⟨text, htext⟩ := rewriteAll_eq rs a
  rw [htext]

theorem requiredFonts_rewriteAll : (a.rewriteAll rs).requiredFonts = a.requiredFonts := by
  obtain ⟨text, htext⟩ := rewriteAll_eq rs a
  rw [htext]
  rfl

/-- The text of a node is what the last rule for it has made, if there was one. -/
theorem rewriteAll_cases (rs : List Rewrite) (a : Attributes) :
    (a.id ∉ rs.map Rewrite.id ∧ a.rewriteAll rs = a) ∨
      ∃ r ∈ rs, r.id = a.id ∧ ∃ text, a.rewriteAll rs = { a with characters := some (r.rule text) } := by
  induction rs using List.reverseRecOn with
  | nil => exact .inl ⟨List.not_mem_nil, rfl⟩
  | append_singleton rs r ih =>
    rw [rewriteAll_concat, id_rewriteAll]
    by_cases hid : a.id = r.id
    · obtain ⟨text, htext⟩ := rewriteAll_eq rs a
      refine .inr ⟨r, List.mem_append_right _ (List.mem_singleton.2 rfl), hid.symm, (a.rewriteAll rs).text, ?_⟩
      rw [if_pos hid, htext]
      rfl
    · rw [if_neg hid]
      refine ih.imp (fun ⟨hnot, hsame⟩ => ⟨?_, hsame⟩) fun ⟨r', hr', h⟩ => ⟨r', List.mem_append_left _ hr', h⟩
      rw [List.map_append, List.mem_append, not_or]
      exact ⟨hnot, fun h => hid (List.mem_singleton.1 h)⟩

theorem rewriteAll_const (rule : String → String) (ids : List String) (a : Attributes) :
    a.rewriteAll (ids.map fun id => ⟨id, rule⟩) = (rewrite rule)^[ids.count a.id] a := by
  induction ids using List.reverseRecOn with
  | nil => rfl
  | append_singleton ids id ih =>
    rw [List.map_append, List.map_singleton, rewriteAll_concat, id_rewriteAll, ih, List.count_append]
    by_cases hid : a.id = id
    · rw [if_pos hid, hid, List.count_singleton_self, Function.iterate_succ_apply']
    · rw [if_neg hid, List.count_singleton, if_neg (by simpa using Ne.symm hid), Nat.add_zero]

end Attributes

namespace Document

variable {d : Document} {rs : List Rewrite} {a : Attributes}

theorem attributes_rewriteAll : (d.rewriteAll rs).attributes = d.attributes.map (Attributes.rewriteAll rs) :=
  Forest.labels_map ..

theorem rewriteAll_nil : d.rewriteAll [] = d :=
  congrArg (fun nodes => { d with nodes }) (Forest.map_eq_self fun _ _ => rfl)

theorem rewriteAll_concat (rs : List Rewrite) (r : Rewrite) :
    { d.rewriteAll rs with
      nodes := Forest.map (fun b => if b.id = r.id then b.rewrite r.rule else b) (d.rewriteAll rs).nodes } =
      d.rewriteAll (rs ++ [r]) := by
  refine congrArg (fun nodes => { d with nodes }) ((Forest.map_map ..).trans (Forest.map_congr fun b _ => ?_))
  exact (Attributes.rewriteAll_concat rs r b).symm

theorem loadsAt_id (hd : (d.attributes.map Attributes.id).Nodup) (ha : a ∈ d.attributes) :
    d.loadsAt a.id = d.loads a := by
  rw [Bool.eq_iff_iff, loadsAt, List.any_eq_true]
  constructor
  · rintro ⟨b, hb, h⟩
    rw [Bool.and_eq_true, beq_iff_eq] at h
    rw [← eq_of_id hd hb ha h.1]
    exact h.2
  · intro h
    exact ⟨a, ha, by rw [h, beq_self_eq_true]; rfl⟩

theorem filter_loadsAt (hd : (d.attributes.map Attributes.id).Nodup) {ns : List Node}
    (hns : ∀ n ∈ ns, n.label ∈ d.attributes) :
    (ns.map Tree.id).filter d.loadsAt = (ns.filter fun n => d.loads n.label).map Tree.id := by
  rw [List.filter_map]
  exact congrArg _ (List.filter_congr fun n hn => loadsAt_id hd (hns n hn))

end Document

theorem Step.writeText_rewriteAll {d : Document} {rs : List Rewrite} {e : Editor} {a : Attributes}
    (rule : String → String) (hd : (d.attributes.map Attributes.id).Nodup) (ha : a ∈ d.attributes)
    (htext : a.kind = .text) (he : e.document = d.rewriteAll rs) :
    (writeText rule e a.id).editor.document = d.rewriteAll (rs ++ if d.loads a then [⟨a.id, rule⟩] else []) ∧
      Taken.succeeded ⟨a.id, e, writeText rule e a.id⟩ = d.loads a := by
  have hd' : (e.document.attributes.map Attributes.id).Nodup := by
    rw [he, Document.attributes_rewriteAll, List.map_map]
    simpa [Function.comp_def, Attributes.id_rewriteAll] using hd
  have ha' : a.rewriteAll rs ∈ e.document.attributes := by
    rw [he, Document.attributes_rewriteAll]
    exact List.mem_map_of_mem ha
  have hloads : e.document.loads (a.rewriteAll rs) = d.loads a := by
    rw [Document.loads, Attributes.requiredFonts_rewriteAll, he]
    rfl
  rw [← Attributes.id_rewriteAll rs a, writeText, onNode_eq hd' ha']
  cases hfonts : d.loads a with
  | true =>
    obtain ⟨hverdict, hdocument⟩ := withFonts_of_loads hd' ha' (Attributes.kind_rewriteAll.trans htext)
      (hloads.trans hfonts) (fun b => { b with characters := some (rule (a.rewriteAll rs).text) })
      (f := Attributes.rewrite rule) rfl
    refine ⟨hdocument.trans ?_, Taken.succeeded_iff.2 hverdict⟩
    rw [he, if_pos rfl]
    exact Document.rewriteAll_concat rs ⟨_, rule⟩
  | false =>
    obtain ⟨hverdict, hdocument⟩ := withFonts_of_not_loads (by rw [hloads, hfonts]; simp) _
    refine ⟨?_, Bool.eq_false_iff.2 fun h => hverdict (Taken.succeeded_iff.1 h)⟩
    rw [hdocument, he]
    simp

theorem Editor.history_writeText (rule : α → String → String) {id : α → String} {d : Document} {items : List α}
    (hd : (d.attributes.map Attributes.id).Nodup)
    (hitems : ∀ x ∈ items, ∃ a ∈ d.attributes, a.id = id x ∧ a.kind = .text) {rs : List Rewrite} {e : Editor}
    (he : e.document = d.rewriteAll rs) :
    let taken := Batch.history id (fun e x => Step.writeText (rule x) e (id x)) e items
    (Batch.last e taken).document =
        d.rewriteAll (rs ++ (items.filter fun x => d.loadsAt (id x)).map fun x => ⟨id x, rule x⟩) ∧
      taken.countP Taken.succeeded = items.countP fun x => d.loadsAt (id x) := by
  -- the document after some steps is the first one with the rules `rs`, and no rule changes which fonts there are
  induction items generalizing rs e with
  | nil => exact ⟨he.trans (by rw [List.filter_nil, List.map_nil, List.append_nil]), rfl⟩
  | cons x items ih =>
    obtain ⟨⟨a, ha, hid, htext⟩, hitems⟩ := List.forall_mem_cons.1 hitems
    obtain ⟨hstep, hsucceeded⟩ := Step.writeText_rewriteAll (rule x) hd ha htext he
    rw [← Document.loadsAt_id hd ha, hid] at hstep hsucceeded
    obtain ⟨hlast, hcount⟩ := ih hitems hstep
    refine ⟨hlast.trans (congrArg d.rewriteAll ?_), ?_⟩
    · rw [List.append_assoc, List.filter_cons]
      split <;> rfl
    · rw [Batch.history, List.countP_cons, hcount, hsucceeded, List.countP_cons]

theorem Batch.run_writeText (operation : String) (rule : α → String → String) {id : α → String} {items : List α}
    {e : Editor} (hd : (e.document.attributes.map Attributes.id).Nodup)
    (hitems : ∀ x ∈ items, ∃ a ∈ e.document.attributes, a.id = id x ∧ a.kind = .text) :
    let b := run operation id (fun e x => Step.writeText (rule x) e (id x)) items e
    b.editor.document =
        e.document.rewriteAll ((items.filter fun x => e.document.loadsAt (id x)).map fun x => ⟨id x, rule x⟩) ∧
      b.changed = items.countP fun x => e.document.loadsAt (id x) := by
  rw [run_eq]
  exact Editor.history_writeText rule hd hitems Document.rewriteAll_nil.symm

/-- The document with some of its texts rewritten, each a number of times. -/
def Document.rewritten (d : Document) (rule : String → String) (times : Attributes → Nat) : Document :=
  { d with nodes := Forest.map (fun a => (Attributes.rewrite rule)^[times a] a) d.nodes }

theorem Document.rewriteAll_const (d : Document) (rule : String → String) (ids : List String) :
    d.rewriteAll (ids.map fun id => ⟨id, rule⟩) = d.rewritten rule fun a => ids.count a.id :=
  congrArg (fun nodes => { d with nodes }) (Forest.map_congr fun a _ => Attributes.rewriteAll_const rule ids a)

end DesignCanvas
