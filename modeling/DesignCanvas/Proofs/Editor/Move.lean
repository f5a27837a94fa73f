import DesignCanvas.Audit.Repair
import DesignCanvas.Editor.Steps
import DesignCanvas.Filling.Pictures
import DesignCanvas.Filling.Texts
import DesignCanvas.Proofs.Document.Images
import DesignCanvas.Proofs.Scene.Pictures
import DesignCanvas.Selection.Naming
import Mathlib.Logic.Relation

/-!
# Moves

Everything that an operation does to an editor is made of a few single moves: other attributes for one node
(`Attributes.Edit` says which), a copy, a removal, a font, an image, a style, another selection. What all moves
keep, every run of moves keeps (`Editor.Reaches.keeps`), and every step is such a run; most of them get by with quiet
moves (`Editor.Drifts`), which leave the same nodes there and the same of them selected.
-/

namespace DesignCanvas

/-- What the attributes of a node can become in one move of an editor. -/
inductive Attributes.Edit (e : Editor) : Attributes → Attributes → Prop
  | name (a : Attributes) (name : String) : Edit e a { a with name }
  | visible (a : Attributes) (visible : Bool) : Edit e a { a with visible }
  | position (a : Attributes) (x y : Float) (layer : a.kind.isLayer) : Edit e a { a with x, y }
  | extent (a : Attributes) (width height : Float) (layer : a.kind.isLayer) : Edit e a { a with width, height }
  | opacity (a : Attributes) (opacity : Float) (some : a.opacity.isSome) : Edit e a { a with opacity }
  | cornerRadius (a : Attributes) (radius : Float) (some : a.cornerRadius.isSome) :
      Edit e a { a with cornerRadius := radius }
  | fills (a : Attributes) (fills : List Paint) (some : a.fills.isSome)
      (registered : ∀ hash ∈ Paint.hashes fills,
        hash ∈ Paint.hashes (a.fills.getD []) ∨ hash ∈ e.document.images.keys) :
      Edit e a { a with fills := fills, fillStyle := none }
  | characters (a : Attributes) (text : String) (kind : a.kind = .text)
      (loaded : ∀ f ∈ a.requiredFonts, f ∈ e.loadedFonts) : Edit e a { a with characters := text }
  | fontSize (a : Attributes) (size : Float) (kind : a.kind = .text)
      (loaded : ∀ f ∈ a.requiredFonts, f ∈ e.loadedFonts) : Edit e a { a with fontSize := size }
  | paintStyle (a : Attributes) (slot : PaintSlot) (paints : List Paint) (style : String) (color : Color)
      (known : (e.document.style? style).bind Style.paintColor? = some color)
      (some : slot.paints? a = some paints) :
      Edit e a (slot.bind (paints.map (Paint.recolor color)) style a)
  | textStyle (a : Attributes) (style : String) (kind : a.kind = .text)
      (known : (e.document.style? style).any fun s => s.kind == .text) : Edit e a { a with textStyle := style }

namespace Editor

variable {e e' : Editor} {id : String}

/-- A single move of an editor. -/
inductive Move (e : Editor) : Editor → Prop
  | select (ids : List String) : Move e (e.select ids)
  | edit (id : String) (n : Node) (a : Attributes) (found : e.document.find? id = some n)
      (edit : Attributes.Edit e n.label a) : Move e { e with document := e.document.setAttributes id a }
  | loadFont (e' : Editor) (font : Font) (done : e.loadFont font = .ok e') : Move e e'
  | copy (id : String) (e' : Editor) (new : String) (done : e.copyNode id = .ok (e', new)) : Move e e'
  | remove (id : String) (e' : Editor) (done : e.removeNode id = .ok e') : Move e e'
  | addImage (bytes : ByteArray) (e' : Editor) (hash : String) (done : e.addImage bytes = .ok (e', hash)) :
      Move e e'
  | addPaintStyle (name : String) (color : Color) : Move e (e.addPaintStyle name color).1

/-- A single move that changes neither which nodes there are nor which of them are selected. -/
inductive QuietMove (e : Editor) : Editor → Prop
  | edit (id : String) (n : Node) (a : Attributes) (found : e.document.find? id = some n)
      (edit : Attributes.Edit e n.label a) : QuietMove e { e with document := e.document.setAttributes id a }
  | loadFont (e' : Editor) (font : Font) (done : e.loadFont font = .ok e') : QuietMove e e'
  | addImage (bytes : ByteArray) (e' : Editor) (hash : String) (done : e.addImage bytes = .ok (e', hash)) :
      QuietMove e e'
  | addPaintStyle (name : String) (color : Color) : QuietMove e (e.addPaintStyle name color).1

theorem QuietMove.move (h : QuietMove e e') : Move e e' := by
  cases h with
  | edit id n a found edit => exact .edit id n a found edit
  | loadFont _ font done => exact .loadFont _ font done
  | addImage bytes _ hash done => exact .addImage bytes _ hash done
  | addPaintStyle name color => exact .addPaintStyle name color

/-- An editor comes to another one by moves. -/
def Reaches : Editor → Editor → Prop :=
  Relation.ReflTransGen Move

namespace Reaches

theorem refl (e : Editor) : Reaches e e :=
  Relation.ReflTransGen.refl

theorem trans {e₁ e₂ e₃ : Editor} (h : Reaches e₁ e₂) (h' : Reaches e₂ e₃) : Reaches e₁ e₃ :=
  Relation.ReflTransGen.trans h h'

theorem single (h : Move e e') : Reaches e e' :=
  Relation.ReflTransGen.single h

theorem keeps {P : Editor → Prop} (hmove : ∀ e e', Move e e' → P e → P e') (h : Reaches e e') (he : P e) :
    P e' := by
  induction h with
  | refl => exact he
  | tail _ hm ih => exact hmove _ _ hm ih

end Reaches

/-- An editor comes to another one by quiet moves. -/
def Drifts : Editor → Editor → Prop :=
  Relation.ReflTransGen QuietMove

namespace Drifts

theorem refl (e : Editor) : Drifts e e :=
  Relation.ReflTransGen.refl

theorem trans {e₁ e₂ e₃ : Editor} (h : Drifts e₁ e₂) (h' : Drifts e₂ e₃) : Drifts e₁ e₃ :=
  Relation.ReflTransGen.trans h h'

theorem single (h : QuietMove e e') : Drifts e e' :=
  Relation.ReflTransGen.single h

theorem reaches (h : Drifts e e') : Reaches e e' :=
  Relation.ReflTransGen.mono (fun _ _ => QuietMove.move) _ _ h

end Drifts

/-! ## Single changes -/

theorem loadFont_ok {font : Font} (h : e.loadFont font = .ok e') :
    font.family ∉ e.document.unavailableFonts ∧
      e' = { e with loadedFonts := if font ∈ e.loadedFonts then e.loadedFonts else font :: e.loadedFonts } := by
  unfold loadFont at h
  split at h
  · cases h
  · next hfont => exact ⟨hfont, (Except.ok.inj h).symm⟩

theorem addImage_ok {bytes : ByteArray} {hash : String} (h : e.addImage bytes = .ok (e', hash)) :
    hash = Digest.fingerprint bytes ∧
      e' = { e with document := { e.document with images := e.document.images.insert hash bytes.size } } := by
  unfold addImage at h
  split at h
  · cases h
  · obtain ⟨rfl, rfl⟩ := Prod.mk.inj (Except.ok.inj h)
    exact ⟨rfl, rfl⟩

theorem removeNode_ok (h : e.removeNode id = .ok e') :
    ∃ nodes, Forest.remove? (Attributes.hasId id) e.document.nodes = some nodes ∧
      e' = { e with document :=
        { e.document with nodes, selection := e.document.selection.filter (· != id) } } := by
  unfold removeNode at h
  split at h
  · cases h
  · next nodes hnodes => exact ⟨nodes, hnodes, (Except.ok.inj h).symm⟩

/-! ## Changes of one node -/

theorem change_ok {rule : Attributes → Except EditError Attributes} (h : e.change id rule = .ok e') :
    ∃ n a, e.document.find? id = some n ∧ rule n.label = .ok a ∧
      e' = { e with document := e.document.setAttributes id a } := by
  unfold change at h
  split at h
  · cases h
  · next n hn =>
    split at h
    · cases h
    · next a ha => exact ⟨n, a, hn, ha, (Except.ok.inj h).symm⟩

theorem change_quiet {rule : Attributes → Except EditError Attributes}
    (hrule : ∀ a b, rule a = .ok b → Attributes.Edit e a b) (h : e.change id rule = .ok e') : QuietMove e e' := by
  obtain ⟨n, a, hn, ha, rfl⟩ := change_ok h
  exact .edit id n a hn (hrule _ _ ha)

theorem ite_ok {c : Prop} [Decidable c] {a b : Attributes} {x : EditError}
    (h : (if c then Except.ok a else .error x) = .ok b) : c ∧ a = b := by
  split at h
  · next hc => exact ⟨hc, Except.ok.inj h⟩
  · cases h

theorem setName_quiet {name : String} (h : e.setName id name = .ok e') : QuietMove e e' :=
  change_quiet (fun a _ ha => Except.ok.inj ha ▸ .name a name) h

theorem setVisible_quiet {visible : Bool} (h : e.setVisible id visible = .ok e') : QuietMove e e' :=
  change_quiet (fun a _ ha => Except.ok.inj ha ▸ .visible a visible) h

theorem setPosition_quiet {x y : Float} (h : e.setPosition id x y = .ok e') : QuietMove e e' := by
  refine change_quiet (fun a b ha => ?_) h
  obtain ⟨hk, rfl⟩ := ite_ok ha
  exact .position a x y hk

theorem resize_quiet {width height : Float} (h : e.resize id width height = .ok e') : QuietMove e e' := by
  refine change_quiet (fun a b ha => ?_) h
  obtain ⟨hk, rfl⟩ := ite_ok ha
  exact .extent a width height hk

theorem setOpacity_quiet {opacity : Float} (h : e.setOpacity id opacity = .ok e') : QuietMove e e' := by
  refine change_quiet (fun a b ha => ?_) h
  obtain ⟨hs, rfl⟩ := ite_ok ha
  exact .opacity a _ hs

theorem setCornerRadius_quiet {radius : Float} (h : e.setCornerRadius id radius = .ok e') : QuietMove e e' := by
  refine change_quiet (fun a b ha => ?_) h
  obtain ⟨hs, rfl⟩ := ite_ok ha
  exact .cornerRadius a radius hs

/-- Fills can be written if all images in them are registered or were in the fills before. -/
theorem setFills_quiet {fills : List Paint} (hregistered : ∀ n, e.document.find? id = some n →
      ∀ hash ∈ Paint.hashes fills,
        hash ∈ Paint.hashes (n.label.fills.getD []) ∨ hash ∈ e.document.images.keys)
    (h : e.setFills id fills = .ok e') : QuietMove e e' := by
  obtain ⟨n, a, hn, ha, rfl⟩ := change_ok h
  obtain ⟨hs, rfl⟩ := ite_ok ha
  exact .edit id n _ hn (.fills _ fills hs (hregistered n hn))

theorem changeText_quiet {rule : Attributes → Attributes}
    (hrule : ∀ a, a.kind = .text → (∀ f ∈ a.requiredFonts, f ∈ e.loadedFonts) → Attributes.Edit e a (rule a))
    (h : e.changeText id rule = .ok e') : QuietMove e e' := by
  refine change_quiet (fun a b ha => ?_) h
  split at ha
  · cases ha
  · next hk =>
    obtain ⟨hf, rfl⟩ := ite_ok ha
    exact hrule a (Decidable.not_not.1 hk) (by simpa using hf)

theorem setCharacters_quiet {text : String} (h : e.setCharacters id text = .ok e') : QuietMove e e' :=
  changeText_quiet (fun a hk hf => .characters a text hk hf) h

theorem setFontSize_quiet {size : Float} (h : e.setFontSize id size = .ok e') : QuietMove e e' :=
  changeText_quiet (fun a hk hf => .fontSize a size hk hf) h

theorem bindPaintStyle_ok {slot : PaintSlot} {style : String} (h : e.bindPaintStyle id slot style = .ok e') :
    ∃ n paints color, e.document.find? id = some n ∧ slot.paints? n.label = some paints ∧
      (e.document.style? style).bind Style.paintColor? = some color ∧
      e' = { e with document :=
        e.document.setAttributes id (slot.bind (paints.map (Paint.recolor color)) style n.label) } := by
  unfold bindPaintStyle at h
  split at h
  · cases h
  · next color hcolor =>
    obtain ⟨n, a, hn, ha, rfl⟩ := change_ok h
    split at ha
    · cases ha
    · next paints hpaints =>
      obtain rfl := Except.ok.inj ha
      exact ⟨n, paints, color, hn, hpaints, hcolor, rfl⟩

theorem bindTextStyle_ok {style : String} (h : e.bindTextStyle id style = .ok e') :
    ∃ n, e.document.find? id = some n ∧ n.label.kind = .text ∧
      ((e.document.style? style).any fun s => s.kind == .text) ∧
      e' = { e with document := e.document.setAttributes id { n.label with textStyle := some style } } := by
  unfold bindTextStyle at h
  split at h
  · next hstyle =>
    obtain ⟨n, a, hn, ha, rfl⟩ := change_ok h
    obtain ⟨hkind, rfl⟩ := ite_ok ha
    exact ⟨n, hn, hkind, hstyle, rfl⟩
  · cases h

theorem bindPaintStyle_quiet {slot : PaintSlot} {style : String} (h : e.bindPaintStyle id slot style = .ok e') :
    QuietMove e e' := by
  obtain ⟨n, paints, color, hn, hpaints, hcolor, rfl⟩ := bindPaintStyle_ok h
  exact .edit id n _ hn (.paintStyle _ slot paints style color hcolor hpaints)

theorem bindTextStyle_quiet {style : String} (h : e.bindTextStyle id style = .ok e') : QuietMove e e' := by
  obtain ⟨n, hn, hkind, hstyle, rfl⟩ := bindTextStyle_ok h
  exact .edit id n _ hn (.textStyle _ style hkind hstyle)

end Editor

/-! ## Steps -/

namespace Step

open Editor

variable {e : Editor} {id : String}

theorem ofEdit_drifts {r : Edit} (h : ∀ e', r = .ok e' → QuietMove e e') : Drifts e (ofEdit e r).editor := by
  cases r with
  | error x => exact .refl e
  | ok e' => exact .single (h e' rfl)

theorem onNode_drifts {step : Attributes → Step}
    (h : ∀ n, e.document.find? id = some n → Drifts e (step n.label).editor) :
    Drifts e (onNode e id step).editor := by
  unfold onNode
  split
  · next n hn => exact h n hn
  · exact .refl e

theorem ite_drifts {c : Prop} [Decidable c] {s : Step} (h : Drifts e s.editor) :
    Drifts e (if c then s else pass e).editor := by
  split
  · exact h
  · exact .refl e

theorem setWidth_drifts (width : Float) (e : Editor) (id : String) : Drifts e (setWidth width e id).editor :=
  onNode_drifts fun _ _ => ite_drifts (ofEdit_drifts fun _ h => resize_quiet h)

theorem setHeight_drifts (height : Float) (e : Editor) (id : String) : Drifts e (setHeight height e id).editor :=
  onNode_drifts fun _ _ => ite_drifts (ofEdit_drifts fun _ h => resize_quiet h)

theorem setOpacity_drifts (opacity : Float) (e : Editor) (id : String) :
    Drifts e (setOpacity opacity e id).editor :=
  onNode_drifts fun _ _ => ite_drifts (ofEdit_drifts fun _ h => setOpacity_quiet h)

theorem setCornerRadius_drifts (radius : Float) (e : Editor) (id : String) :
    Drifts e (setCornerRadius radius e id).editor :=
  onNode_drifts fun _ _ => ite_drifts (ofEdit_drifts fun _ h => setCornerRadius_quiet h)

theorem moveBy_drifts (dx dy : Float) (e : Editor) (id : String) : Drifts e (moveBy dx dy e id).editor :=
  onNode_drifts fun _ _ => ofEdit_drifts fun _ h => setPosition_quiet h

theorem remove_reaches (e : Editor) (id : String) : Reaches e (remove e id).editor := by
  unfold remove
  cases h : e.removeNode id with
  | error x => exact .refl e
  | ok e' => exact .single (.remove id e' h)

theorem setVisible_drifts (visible : Bool) (e : Editor) (id : String) : Drifts e (setVisible visible e id).editor :=
  ofEdit_drifts fun _ h => setVisible_quiet h

theorem setName_drifts (name : String) (e : Editor) (id : String) : Drifts e (setName name e id).editor :=
  ofEdit_drifts fun _ h => setName_quiet h

theorem setColor_drifts (color : Color) (e : Editor) (id : String) : Drifts e (setColor color e id).editor := by
  refine onNode_drifts fun n hn => ?_
  split
  · next fills hfills =>
    refine ofEdit_drifts fun _ h => setFills_quiet (fun n' hn' hash hhash => .inl ?_) h
    obtain rfl : n = n' := Option.some.inj (hn.symm.trans hn')
    rw [hfills]
    exact hashes_paintedIn color fills hhash
  · exact .refl e

theorem loadFonts_drifts (fs : List Font) (e : Editor) : Drifts e (e.loadFonts fs).1 := by
  induction fs generalizing e with
  | nil => exact .refl e
  | cons f fs ih =>
    rw [loadFonts]
    split
    · next e' h => exact .trans (.single (.loadFont e' f h)) (ih e')
    · exact .refl e

theorem withFonts_drifts {a : Attributes} {change : Editor → Edit}
    (h : ∀ e e', change e = .ok e' → QuietMove e e') : Drifts e (withFonts e a change).editor := by
  have hload := loadFonts_drifts a.requiredFonts e
  unfold withFonts
  split
  · next e' hl =>
    rw [hl] at hload
    exact hload.trans (ofEdit_drifts fun _ hc => h _ _ hc)
  · next e' x hl =>
    rw [hl] at hload
    exact hload

theorem setFontSize_drifts (size : Float) (e : Editor) (id : String) : Drifts e (setFontSize size e id).editor :=
  onNode_drifts fun _ _ => ite_drifts (withFonts_drifts fun _ _ h => Editor.setFontSize_quiet h)

theorem writeText_drifts (rule : String → String) (e : Editor) (id : String) :
    Drifts e (writeText rule e id).editor :=
  onNode_drifts fun _ _ => withFonts_drifts fun _ _ h => setCharacters_quiet h

theorem copy_reaches (e : Editor) (id : String) : Reaches e (copy e id).editor := by
  unfold copy
  split
  · exact .refl e
  · next e' new hcopy =>
    have hreach : Reaches e e' := .single (.copy id e' new hcopy)
    split
    · next e'' hplace =>
      cases hn : e'.node new with
      | error x => simp [hn, Except.bind] at hplace
      | ok n =>
        rw [hn] at hplace
        exact hreach.trans (.single (setPosition_quiet hplace).move)
    · split
      · next e'' hremove => exact hreach.trans (.single (.remove new e'' hremove))
      · exact hreach

theorem fillPicture_drifts (source : ImageSource) (kind : PictureKind) (smallest : Nat) (e : Editor) (id : String) :
    Drifts e (fillPicture source kind smallest e id).editor := by
  refine onNode_drifts fun n _ => ?_
  dsimp only
  split
  · exact .refl e
  · next bytes _ =>
    change Drifts e (putImage bytes n.label e).editor
    unfold putImage
    split
    · exact .refl e
    · next e' hash himage =>
      refine .trans (.single (.addImage bytes e' hash himage)) (ofEdit_drifts fun _ h => ?_)
      obtain ⟨-, rfl⟩ := addImage_ok himage
      refine setFills_quiet (fun _ _ hash' hhash => .inr ?_) h
      exact Images.mem_keys_insert.2 (.inl (hashes_withImage hhash))

theorem fillTurn_drifts (source : ChangingSource) (kind : PictureKind) (smallest : Nat) (e : Editor)
    (turn : String × Nat) : Drifts e (fillTurn source kind smallest e turn).editor :=
  fillPicture_drifts (source.after turn.2) kind smallest e turn.1

end Step

/-! ## Repairs -/

namespace Editor

theorem paintStyleFor_drifts (e : Editor) (color : Color) : Drifts e (e.paintStyleFor color).1 := by
  unfold paintStyleFor
  split
  · exact .refl e
  · exact .single (.addPaintStyle _ color)

theorem fix_drifts (e : Editor) (id : String) (f : Fix) : Drifts e (e.fix id f).editor := by
  cases f with
  | paint slot color =>
    have hstyle := e.paintStyleFor_drifts color
    rw [fix]
    dsimp only
    split
    · next e' hbind => exact hstyle.trans (.single (bindPaintStyle_quiet hbind))
    · exact hstyle
  | text family size =>
    rw [fix]
    split
    · exact .refl e
    · split
      · next e' hbind => exact .single (bindTextStyle_quiet hbind)
      · exact .refl e

end Editor

namespace Repair

open Editor

theorem take_drifts (id : String) (r : Repair) (f : Fix) : Drifts r.editor (r.take id f).editor := by
  have hfix := r.editor.fix_drifts id f
  unfold take
  dsimp only
  split
  · exact hfix
  · exact hfix

theorem foldl_take_drifts (id : String) (fs : List Fix) (r : Repair) :
    Drifts r.editor (fs.foldl (take id) r).editor := by
  induction fs generalizing r with
  | nil => exact .refl _
  | cons f fs ih => exact (take_drifts id r f).trans (ih _)

theorem run_drifts (e : Editor) (i : Inspection) : Drifts e (run e i).editor :=
  foldl_take_drifts i.finding.nodeId i.fixes ⟨e, [], []⟩

end Repair

namespace Editor

theorem repair_drifts (is : List Inspection) (e : Editor) : Drifts e (e.repair is).1 := by
  induction is generalizing e with
  | nil => exact .refl e
  | cons i is ih => exact (Repair.run_drifts e i).trans (ih _)

theorem audit_drifts (e : Editor) (kind : AuditKind) (fix : Bool) : Drifts e (e.audit kind fix).editor := by
  unfold audit onSelection
  split
  · exact .refl e
  · cases fix with
    | true => exact repair_drifts _ e
    | false => exact .refl e

end Editor

end DesignCanvas
