import DesignCanvas.Proofs.Assistant.History
import DesignCanvas.Proofs.Editor.Writing

/-!
# What an editor knows only while it runs

Two editors of the same document can differ in the fonts that they have loaded and in the number of copies that they
have made. Loading a font fails for the same fonts in both, and every step that writes a text has loaded all of its
fonts before. So every step but a copy comes out the same in both and leaves the same document (`Intent.step_same`),
and so do batches of such steps (`Batch.run_same`) and audits (`Editor.audit_same`).
-/

namespace DesignCanvas

/-! ## Changes -/

/-- Two changes that come to the same document, or fail in the same way. -/
inductive Edit.Same : Edit → Edit → Prop
  | ok (e e' : Editor) (document : e'.document = e.document) : Same (.ok e) (.ok e')
  | error (x : EditError) : Same (.error x) (.error x)

namespace Editor

variable {e e' : Editor} {id : String}

theorem change_same (h : e'.document = e.document) {rule rule' : Attributes → Except EditError Attributes}
    (hrule : ∀ n, e.document.find? id = some n → rule' n.label = rule n.label) :
    Edit.Same (e.change id rule) (e'.change id rule') := by
  rw [change, change, h]
  cases hn : e.document.find? id with
  | none => exact .error _
  | some n =>
    dsimp only
    rw [hrule n hn]
    cases rule n.label with
    | error x => exact .error x
    | ok a => exact .ok _ _ rfl

theorem bindPaintStyle_same (h : e'.document = e.document) (slot : PaintSlot) (style : String) :
    Edit.Same (e.bindPaintStyle id slot style) (e'.bindPaintStyle id slot style) := by
  rw [bindPaintStyle, bindPaintStyle, h]
  split
  · exact .error _
  · exact change_same h fun _ _ => rfl

theorem bindTextStyle_same (h : e'.document = e.document) (style : String) :
    Edit.Same (e.bindTextStyle id style) (e'.bindTextStyle id style) := by
  rw [bindTextStyle, bindTextStyle, h]
  split
  · exact change_same h fun _ _ => rfl
  · exact .error _

theorem removeNode_same (h : e'.document = e.document) (id : String) :
    Edit.Same (e.removeNode id) (e'.removeNode id) := by
  rw [removeNode, removeNode, h]
  split
  · exact .error _
  · exact .ok _ _ rfl

/-! ## Fonts -/

theorem loadFonts_same (h : e'.document = e.document) (fonts : List Font) :
    (e'.loadFonts fonts).2 = (e.loadFonts fonts).2 := by
  induction fonts generalizing e e' with
  | nil => rfl
  | cons font fonts ih =>
    by_cases hfont : font.family ∈ e.document.unavailableFonts
    · rw [loadFonts, loadFonts, loadFont, loadFont, h, if_pos hfont, if_pos hfont]
    · obtain ⟨e₁, hload, hsame, -⟩ := loadFont_eq_ok hfont
      obtain ⟨e₁', hload', hsame', -⟩ := loadFont_eq_ok (e := e') (h ▸ hfont)
      rw [loadFonts, loadFonts, hload, hload']
      exact ih (hsame'.trans (h.trans hsame.symm))

theorem mem_loadedFonts_of_loadFonts {fonts : List Font} {e₁ : Editor} (h : e.loadFonts fonts = (e₁, none)) :
    ∀ f ∈ fonts, f ∈ e₁.loadedFonts := by
  by_cases hall : ∀ f ∈ fonts, f.family ∉ e.document.unavailableFonts
  · obtain ⟨e₂, hloads, -, hloaded, -⟩ := loadFonts_eq_none fonts hall
    obtain rfl : e₁ = e₂ := congrArg Prod.fst (h.symm.trans hloads)
    exact hloaded
  · obtain ⟨e₂, x, hloads⟩ := loadFonts_eq_some (e := e) fonts (by simpa using hall)
    cases congrArg Prod.snd (h.symm.trans hloads)

theorem changeText_same (h : e'.document = e.document) (rule : Attributes → Attributes)
    (hloaded : ∀ n, e.document.find? id = some n →
      (∀ f ∈ n.label.requiredFonts, f ∈ e.loadedFonts) ∧ ∀ f ∈ n.label.requiredFonts, f ∈ e'.loadedFonts) :
    Edit.Same (e.changeText id rule) (e'.changeText id rule) := by
  refine change_same h fun n hn => ?_
  obtain ⟨hfonts, hfonts'⟩ := hloaded n hn
  have hall : (n.label.requiredFonts.all fun f => f ∈ e.loadedFonts) = true := by simpa using hfonts
  have hall' : (n.label.requiredFonts.all fun f => f ∈ e'.loadedFonts) = true := by simpa using hfonts'
  rw [hall, hall']

end Editor

/-! ## Steps -/

/-- Two steps that leave the same document and report the same. -/
structure Step.Same (s s' : Step) : Prop where
  document : s'.editor.document = s.editor.document
  verdict : s'.verdict = s.verdict
  urls : s'.urls = s.urls
  made : s'.made = s.made

namespace Step

open Editor

variable {e e' : Editor} {id : String}

theorem pass_same (h : e'.document = e.document) : (pass e).Same (pass e') :=
  ⟨h, rfl, rfl, rfl⟩

theorem fail_same (h : e'.document = e.document) (x : EditError) : (fail e x).Same (fail e' x) :=
  ⟨h, rfl, rfl, rfl⟩

theorem ofEdit_same (h : e'.document = e.document) {r r' : Edit} (hr : Edit.Same r r') :
    (ofEdit e r).Same (ofEdit e' r') := by
  cases hr with
  | ok e₁ e₁' hdocument => exact ⟨hdocument, rfl, rfl, rfl⟩
  | error x => exact fail_same h x

theorem onNode_same (h : e'.document = e.document) {step step' : Attributes → Step}
    (hstep : ∀ n, e.document.find? id = some n → (step n.label).Same (step' n.label)) :
    (onNode e id step).Same (onNode e' id step') := by
  rw [onNode, onNode, h]
  cases hn : e.document.find? id with
  | none => exact fail_same h _
  | some n => exact hstep n hn

theorem ite_same (h : e'.document = e.document) {c : Prop} [Decidable c] {s s' : Step} (hs : s.Same s') :
    (if c then s else pass e).Same (if c then s' else pass e') := by
  split
  · exact hs
  · exact pass_same h

theorem withFonts_same (h : e'.document = e.document) {n : Node} (hn : e.document.find? id = some n)
    (rule : Attributes → Attributes) :
    (withFonts e n.label fun e => e.changeText id rule).Same
      (withFonts e' n.label fun e => e.changeText id rule) := by
  have hloads := loadFonts_same h n.label.requiredFonts
  have hdocument := loadFonts_document n.label.requiredFonts e
  have hdocument' := loadFonts_document n.label.requiredFonts e'
  rw [withFonts, withFonts]
  rcases hfonts : e.loadFonts n.label.requiredFonts with ⟨e₁, o⟩
  rcases hfonts' : e'.loadFonts n.label.requiredFonts with ⟨e₁', o'⟩
  rw [hfonts, hfonts'] at hloads
  rw [hfonts] at hdocument
  rw [hfonts'] at hdocument'
  obtain rfl : o' = o := hloads
  have hsame : e₁'.document = e₁.document := hdocument'.trans (h.trans hdocument.symm)
  cases o' with
  | some x => exact fail_same hsame x
  | none =>
    -- the text asks for the fonts that were loaded just now, so it is changed in both
    refine ofEdit_same hsame (changeText_same hsame rule fun m hm => ?_)
    obtain rfl : m = n := Option.some.inj (hm.symm.trans (hdocument ▸ hn))
    exact ⟨mem_loadedFonts_of_loadFonts hfonts, mem_loadedFonts_of_loadFonts hfonts'⟩

theorem setName_same (h : e'.document = e.document) (name id : String) :
    (setName name e id).Same (setName name e' id) :=
  ofEdit_same h (change_same h fun _ _ => rfl)

theorem writeText_same (h : e'.document = e.document) (rule : String → String) (id : String) :
    (writeText rule e id).Same (writeText rule e' id) :=
  onNode_same h fun _ hn => withFonts_same h hn _

theorem putImage_same (h : e'.document = e.document) (bytes : ByteArray) (a : Attributes) :
    (putImage bytes a e).Same (putImage bytes a e') := by
  rw [putImage, putImage, addImage, addImage]
  by_cases hsize : bytes.size = 0
  · rw [if_pos hsize, if_pos hsize]
    exact fail_same h _
  · rw [if_neg hsize, if_neg hsize]
    have hdocument : ∀ hash, { e'.document with images := e'.document.images.insert hash bytes.size } =
        { e.document with images := e.document.images.insert hash bytes.size } := by
      intro hash
      rw [h]
    exact ofEdit_same (hdocument _) (change_same (hdocument _) fun _ _ => rfl)

theorem fillPicture_same (h : e'.document = e.document) (source : ImageSource) (kind : PictureKind) (smallest : Nat)
    (id : String) : (fillPicture source kind smallest e id).Same (fillPicture source kind smallest e' id) := by
  refine onNode_same h fun n _ => ?_
  dsimp only
  split
  · exact ⟨h, rfl, rfl, rfl⟩
  · next bytes _ =>
    have hput := putImage_same h bytes n.label
    exact ⟨hput.document, hput.verdict, rfl, hput.made⟩

end Step

theorem Intent.step_same {i : Intent} (hi : i ≠ .duplicate) {e e' : Editor} (h : e'.document = e.document)
    (id : String) : (i.step e id).Same (i.step e' id) := by
  cases i with
  | replaceText | replaceAllText =>
    rw [Intent.step]
    exact Step.writeText_same h _ id
  | setColor hex color =>
    rw [Intent.step]
    refine Step.onNode_same h fun n _ => ?_
    split
    · exact Step.ofEdit_same h (Editor.change_same h fun _ _ => rfl)
    · exact Step.pass_same h
  | resizeWidth | resizeHeight | setOpacity | setCornerRadius =>
    rw [Intent.step]
    exact Step.onNode_same h fun _ _ => Step.ite_same h (Step.ofEdit_same h (Editor.change_same h fun _ _ => rfl))
  | duplicate => exact absurd rfl hi
  | setFontSize size =>
    rw [Intent.step]
    exact Step.onNode_same h fun _ hn => Step.ite_same h (Step.withFonts_same h hn _)
  | move dx dy =>
    rw [Intent.step]
    exact Step.onNode_same h fun _ _ => Step.ofEdit_same h (Editor.change_same h fun _ _ => rfl)
  | delete =>
    rw [Intent.step]
    exact Step.ofEdit_same h (Editor.removeNode_same h id)
  | reveal | hide =>
    rw [Intent.step]
    exact Step.ofEdit_same h (Editor.change_same h fun _ _ => rfl)
  | rename name =>
    rw [Intent.step]
    exact Step.setName_same h name id

/-! ## Batches -/

/-- Two batches that have left the same document and report the same. -/
structure Batch.Same (b b' : Batch) : Prop where
  document : b'.editor.document = b.editor.document
  changed : b'.changed = b.changed
  trace : b'.trace = b.trace
  made : b'.made = b.made

/-- Two results that leave the same document and say the same. -/
structure Result.Same (r r' : Result α) : Prop where
  document : r'.editor.document = r.editor.document
  trace : r'.trace = r.trace
  answer : r'.answer = r.answer

namespace Batch

variable {e e' : Editor} {b b' : Batch}

theorem take_same (operation node : String) (hb : b.Same b') {s s' : Step} (hs : s.Same s') :
    (b.take operation node s).Same (b'.take operation node s') := by
  obtain ⟨hdocument, hverdict, hurls, hmade⟩ := hs
  refine ⟨hdocument, ?_, ?_, ?_⟩
  · rw [take, take, hverdict, hb.changed]
  · rw [take, take, hverdict, hurls, hb.trace]
  · rw [take, take, hmade, hb.made]

theorem run_same {operation : String} {id : α → String} {step : Editor → α → Step}
    (hstep : ∀ e e' a, e'.document = e.document → (step e a).Same (step e' a)) (items : List α)
    (h : e'.document = e.document) : (run operation id step items e).Same (run operation id step items e') := by
  have hfold : ∀ b b' : Batch, b.Same b' →
      (items.foldl (fun b a => b.take operation (id a) (step b.editor a)) b).Same
        (items.foldl (fun b a => b.take operation (id a) (step b.editor a)) b') := by
    induction items with
    | nil => exact fun b b' hb => hb
    | cons a as ih => exact fun b b' hb => ih _ _ (take_same operation (id a) hb (hstep _ _ a hb.document))
  exact hfold _ _ ⟨h, rfl, rfl, rfl⟩

theorem runIds_same {operation : String} {step : Editor → String → Step}
    (hstep : ∀ e e' id, e'.document = e.document → (step e id).Same (step e' id)) (ids : List String)
    (h : e'.document = e.document) : (runIds operation step ids e).Same (runIds operation step ids e') :=
  run_same hstep ids h

theorem finish_same (hb : b.Same b') (refusal : Refusal) (message : Nat → String) :
    (b.finish refusal message).Same (b'.finish refusal message) := by
  refine ⟨hb.document, hb.trace, ?_⟩
  rw [finish, finish, hb.changed]

end Batch

namespace Editor

variable {e e' : Editor}

theorem onSelection_same (h : e'.document = e.document) {operation operation' : List Node → Result α}
    (hoperation : ∀ ns, (operation ns).Same (operation' ns)) :
    (e.onSelection operation).Same (e'.onSelection operation') := by
  rw [onSelection_eq, onSelection_eq, h]
  split
  · exact ⟨h, rfl, rfl⟩
  · exact hoperation _

theorem apply_same {i : Intent} (hi : i ≠ .duplicate) (h : e'.document = e.document) :
    (e.apply i).Same (e'.apply i) := by
  refine onSelection_same h fun ns => ?_
  have hrun (operation : String) (ids : List String) :
      (Batch.runIds operation i.step ids e).Same (Batch.runIds operation i.step ids e') :=
    Batch.runIds_same (fun _ _ id h => Intent.step_same hi h id) ids h
  cases i with
  | duplicate => exact absurd rfl hi
  | replaceText search replacement =>
    rw [applyTo, applyTo, replaceText, replaceText, h]
    exact Batch.finish_same (hrun _ _) _ _
  | replaceAllText text =>
    rw [applyTo, applyTo, replaceAllText, replaceAllText, writeAll, writeAll, h]
    exact Batch.finish_same (hrun _ _) _ _
  | _ =>
    rw [applyTo, applyTo, each, each]
    exact Batch.finish_same (hrun _ _) _ _

theorem runRenamings_same (h : e'.document = e.document) (operation : String) (rs : List Renaming)
    (message : Nat → String) : (e.runRenamings operation rs message).Same (e'.runRenamings operation rs message) :=
  Batch.finish_same (Batch.run_same (fun _ _ r h => Step.setName_same h r.name r.id) rs h) _ _

theorem renameSelected_same (h : e'.document = e.document) (name : String) :
    (e.renameSelected name).Same (e'.renameSelected name) :=
  onSelection_same h fun _ => runRenamings_same h _ _ _

theorem renameByRole_same (h : e'.document = e.document) : e.renameByRole.Same e'.renameByRole :=
  onSelection_same h fun _ => runRenamings_same h _ _ _

theorem fillTexts_same (h : e'.document = e.document) (value : String) :
    (e.fillTexts value).Same (e'.fillTexts value) := by
  refine onSelection_same h fun _ => Batch.finish_same ?_ _ _
  rw [writeAll, writeAll, h]
  exact Batch.runIds_same (fun _ _ id h => Step.writeText_same h _ id) _ h

theorem fillFields_same (h : e'.document = e.document) (fields : List Field) :
    (e.fillFields fields).Same (e'.fillFields fields) := by
  have hstep (e e' : Editor) (a : Pools.Assignment) (h : e'.document = e.document) :
      (Pools.Assignment.step e a).Same (Pools.Assignment.step e' a) :=
    Step.writeText_same h _ a.id
  exact onSelection_same h fun _ => Batch.finish_same (Batch.run_same hstep _ h) _ _

theorem fillPictures_same (h : e'.document = e.document) (source : ChangingSource) (kind : PictureKind)
    (smallest : Nat) : (e.fillPictures source kind smallest).Same (e'.fillPictures source kind smallest) := by
  refine onSelection_same h fun ns => ?_
  dsimp only
  split
  · exact ⟨h, rfl, rfl⟩
  · have hstep (e e' : Editor) (turn : String × Nat) (h : e'.document = e.document) :
        (Step.fillTurn source kind smallest e turn).Same (Step.fillTurn source kind smallest e' turn) :=
      Step.fillPicture_same h (source.after turn.2) kind smallest turn.1
    exact Batch.finish_same (Batch.run_same hstep _ h) _ _

theorem choose_same (h : e'.document = e.document) (ids : List String) : (e.choose ids).Same (e'.choose ids) := by
  rw [choose, choose, select, select, h]
  dsimp only
  split
  · exact ⟨h, rfl, rfl⟩
  · exact ⟨rfl, rfl, rfl⟩

/-! ## Audits -/

theorem paintStyleFor_same (h : e'.document = e.document) (color : Color) :
    (e'.paintStyleFor color).1.document = (e.paintStyleFor color).1.document ∧
      (e'.paintStyleFor color).2 = (e.paintStyleFor color).2 := by
  rw [paintStyleFor, paintStyleFor, h]
  split
  · exact ⟨h, rfl⟩
  · rw [addPaintStyle, addPaintStyle, styleNumber, styleNumber, h]
    exact ⟨rfl, rfl⟩

end Editor

/-- What is left behind by the binding to a style with a name. -/
def Fixed.ofEdit (e : Editor) (name : String) : Edit → Fixed
  | .ok e => ⟨e, .ok (some name)⟩
  | .error error => ⟨e, .error error⟩

/-- Two fixes that have left the same document and bound to the same style, or failed in the same way. -/
structure Fixed.Same (f f' : Fixed) : Prop where
  document : f'.editor.document = f.editor.document
  style : f'.style = f.style

theorem Fixed.ofEdit_same {e e' : Editor} (h : e'.document = e.document) (name : String) {r r' : Edit}
    (hr : Edit.Same r r') : (ofEdit e name r).Same (ofEdit e' name r') := by
  cases hr with
  | ok e₁ e₁' hdocument => exact ⟨hdocument, rfl⟩
  | error x => exact ⟨h, rfl⟩

namespace Editor

theorem fix_paint_ofEdit (e : Editor) (id : String) (slot : PaintSlot) (color : Color) :
    e.fix id (.paint slot color) =
      let p := e.paintStyleFor color
      .ofEdit p.1 p.2.name (p.1.bindPaintStyle id slot p.2.id) := by
  rw [fix]
  dsimp only
  cases (e.paintStyleFor color).1.bindPaintStyle id slot (e.paintStyleFor color).2.id <;> rfl

theorem fix_text_ofEdit (e : Editor) (id family : String) (size : Float) :
    e.fix id (.text family size) =
      match e.document.styles.find? (Style.hasFont family size) with
      | none => ⟨e, .ok none⟩
      | some s => .ofEdit e s.name (e.bindTextStyle id s.id) := by
  rw [fix]
  cases e.document.styles.find? (Style.hasFont family size) with
  | none => rfl
  | some s => cases h : e.bindTextStyle id s.id <;> simp only [h, Fixed.ofEdit]

theorem fix_same {e e' : Editor} (h : e'.document = e.document) (id : String) (f : Fix) :
    (e.fix id f).Same (e'.fix id f) := by
  cases f with
  | paint slot color =>
    obtain ⟨hdocument, hstyle⟩ := paintStyleFor_same h color
    rw [fix_paint_ofEdit, fix_paint_ofEdit]
    dsimp only
    rw [hstyle]
    exact Fixed.ofEdit_same hdocument _ (bindPaintStyle_same hdocument slot _)
  | text family size =>
    rw [fix_text_ofEdit, fix_text_ofEdit, h]
    split
    · exact ⟨h, rfl⟩
    · exact Fixed.ofEdit_same h _ (bindTextStyle_same h _)

end Editor

/-- Two repairs that have left the same document, bound to the same styles and failed in the same places. -/
structure Repair.Same (r r' : Repair) : Prop where
  document : r'.editor.document = r.editor.document
  bound : r'.bound = r.bound
  notices : r'.notices = r.notices

namespace Repair

theorem take_same (id : String) {r r' : Repair} (hr : r.Same r') (f : Fix) : (r.take id f).Same (r'.take id f) := by
  obtain ⟨hdocument, hstyle⟩ := Editor.fix_same hr.document id f
  unfold take
  dsimp only
  rw [hstyle]
  split
  · exact ⟨hdocument, by rw [hr.bound], hr.notices⟩
  · exact ⟨hdocument, hr.bound, by rw [hr.notices]⟩

theorem foldl_take_same (id : String) (fs : List Fix) {r r' : Repair} (hr : r.Same r') :
    (fs.foldl (take id) r).Same (fs.foldl (take id) r') := by
  induction fs generalizing r r' with
  | nil => exact hr
  | cons f fs ih => exact ih (take_same id hr f)

theorem run_same {e e' : Editor} (h : e'.document = e.document) (i : Inspection) : (run e i).Same (run e' i) :=
  foldl_take_same _ i.fixes ⟨h, rfl, rfl⟩

end Repair

namespace Editor

theorem repair_same (is : List Inspection) {e e' : Editor} (h : e'.document = e.document) :
    (e'.repair is).1.document = (e.repair is).1.document ∧ (e'.repair is).2.1 = (e.repair is).2.1 ∧
      (e'.repair is).2.2 = (e.repair is).2.2 := by
  induction is generalizing e e' with
  | nil => exact ⟨h, rfl, rfl⟩
  | cons i is ih =>
    have hrun := Repair.run_same h i
    obtain ⟨hdocument, hnotices, hfindings⟩ := ih hrun.document
    rw [repair, repair]
    dsimp only
    exact ⟨hdocument, by rw [hrun.notices, hnotices], by rw [hrun.bound, hfindings]⟩

theorem audit_same {e e' : Editor} (h : e'.document = e.document) (kind : AuditKind) (fix : Bool) :
    (e.audit kind fix).Same (e'.audit kind fix) := by
  refine onSelection_same h fun ns => ?_
  dsimp only
  rw [h]
  cases fix with
  | true =>
    obtain ⟨hdocument, hnotices, hfindings⟩ := repair_same (ns.flatMap (e.document.scan kind)) h
    rw [if_pos rfl, if_pos rfl]
    exact ⟨hdocument, by rw [hnotices], by rw [hfindings]⟩
  | false => exact ⟨h, rfl, rfl⟩

end Editor

end DesignCanvas
