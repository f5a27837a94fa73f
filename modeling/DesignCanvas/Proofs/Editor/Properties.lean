import DesignCanvas.Proofs.Assistant.History
import DesignCanvas.Proofs.Editor.Writing

/-!
# Changing properties of what is selected

Ten intents change one property of each selected node that has it. Nodes are changed one at a time in a document that
changes with every step, yet the document in the end is the first one with all changes made at once
(`Editor.apply_change`): a change for one node neither alters another one nor what can be done to it.
-/

namespace DesignCanvas

/-- A change of one property: the nodes that have it, whether their fonts have to be there, and what becomes of them. -/
structure PropertyChange where
  has : Attributes → Bool
  needsFonts : Bool := false
  edit : Attributes → Attributes
  id_edit : ∀ a, (edit a).id = a.id := by exact fun _ => rfl

/-- The node has the property, and its fonts are there if they have to be. -/
def PropertyChange.allowed (c : PropertyChange) (d : Document) (a : Attributes) : Bool :=
  (!c.needsFonts || d.loads a) && c.has a

/-- The attributes with fills in a colour. A first fill that is solid keeps its opacity and visibility and stays before
the others, and any other list gives way to one solid fill. -/
def Attributes.recoloured (color : Color) (a : Attributes) : Attributes :=
  { a with
    fills := some (match a.fills with
      | some (.solid _ opacity visible _ :: rest) => .solid color opacity visible none :: rest
      | _ => [.solid color 1.0 true none])
    fillStyle := none }

theorem Attributes.recoloured_eq {color : Color} {a : Attributes} {fills : List Paint} (h : a.fills = some fills) :
    a.recoloured color = { a with fills := some (Step.paintedIn color fills), fillStyle := none } := by
  rw [recoloured, h]
  cases fills with
  | nil => rfl
  | cons p rest => cases p <;> rfl

/-- The change that an intent asks for, if it asks for one. -/
def Intent.change? : Intent → Option PropertyChange
  | setColor _ color => some { has := fun a => a.fills.isSome, edit := Attributes.recoloured color }
  | resizeWidth width =>
    some { has := fun a => a.kind.isLayer, edit := fun a => { a with width := Decimal.ofInt width } }
  | resizeHeight height =>
    some { has := fun a => a.kind.isLayer, edit := fun a => { a with height := Decimal.ofInt height } }
  | setOpacity percent =>
    some { has := fun a => a.opacity.isSome, edit := fun a => { a with opacity := some (opacityOfPercent percent) } }
  | setFontSize size =>
    some
      { has := fun a => a.kind == .text
        needsFonts := true
        edit := fun a => { a with fontSize := some (Decimal.ofInt size) } }
  | move dx dy =>
    some
      { has := fun a => a.kind.isLayer
        edit := fun a => { a with x := a.x + Decimal.ofInt dx, y := a.y + Decimal.ofInt dy } }
  | reveal => some { has := fun _ => true, edit := fun a => { a with visible := true } }
  | hide => some { has := fun _ => true, edit := fun a => { a with visible := false } }
  | rename name => some { has := fun _ => true, edit := fun a => { a with name } }
  | setCornerRadius radius =>
    some
      { has := fun a => a.cornerRadius.isSome
        edit := fun a => { a with cornerRadius := some (Decimal.ofInt radius) } }
  | replaceText .. | replaceAllText _ | duplicate | delete => none

/-- The document with a change made at once of all nodes of a set that it is allowed for. -/
def Document.edited (d : Document) (c : PropertyChange) (S : Attributes → Bool) : Document :=
  { d with nodes := Forest.map (fun a => if S a && c.allowed d a then c.edit a else a) d.nodes }

/-! ## One node -/

/-- A step makes a change of a node if it is allowed, and leaves the document as it was otherwise. -/
structure Step.Makes (c : PropertyChange) (e : Editor) (a : Attributes) (s : Step) : Prop where
  document : s.editor.document = e.document.edited c fun b => b.id = a.id
  verdict : s.verdict = .ok true ↔ c.allowed e.document a

namespace Step

variable {c : PropertyChange} {e : Editor} {a : Attributes} {s : Step} {p : Bool}
  {rule : Attributes → Except EditError Attributes}

section Distinct

variable (hd : (e.document.attributes.map Attributes.id).Nodup) (ha : a ∈ e.document.attributes)

include hd ha

theorem makes_of_allowed (hallowed : c.allowed e.document a) (hverdict : s.verdict = .ok true)
    (hdocument : s.editor.document = { e.document with
      nodes := Forest.map (fun b => if b.id = a.id then c.edit b else b) e.document.nodes }) : Makes c e a s := by
  refine ⟨hdocument.trans ?_, iff_of_true hverdict hallowed⟩
  refine congrArg (fun nodes => { e.document with nodes }) (Forest.map_congr fun b hb => ?_)
  by_cases hid : b.id = a.id
  · obtain rfl := Document.eq_of_id hd hb ha hid
    simp [hallowed]
  · simp [hid]

theorem makes_of_not_allowed (hallowed : c.allowed e.document a = false) (hverdict : s.verdict ≠ .ok true)
    (hdocument : s.editor.document = e.document) : Makes c e a s := by
  refine ⟨hdocument.trans ?_, iff_of_false hverdict (by simp [hallowed])⟩
  refine (congrArg (fun nodes => { e.document with nodes }) (Forest.map_eq_self fun b hb => ?_)).symm
  by_cases hid : b.id = a.id
  · obtain rfl := Document.eq_of_id hd hb ha hid
    simp [hallowed]
  · simp [hid]

theorem makes_ofEdit (hallowed : c.allowed e.document a) (hrule : rule a = .ok (c.edit a)) :
    Makes c e a (ofEdit e (e.change a.id rule)) := by
  rw [Editor.change_eq_ok hd ha hrule]
  exact makes_of_allowed hd ha hallowed rfl rfl

theorem makes_ite (hallowed : c.allowed e.document a = p) (hrule : p → rule a = .ok (c.edit a)) :
    Makes c e a (if p then ofEdit e (e.change a.id rule) else pass e) := by
  cases p with
  | true => exact makes_ofEdit hd ha hallowed (hrule rfl)
  | false => exact makes_of_not_allowed hd ha hallowed nofun rfl

theorem makes_of_refused {x : EditError} (hallowed : c.allowed e.document a = p)
    (hrule : rule a = if p then .ok (c.edit a) else .error x) : Makes c e a (ofEdit e (e.change a.id rule)) := by
  cases p with
  | true => exact makes_ofEdit hd ha hallowed hrule
  | false =>
    have hrefused : e.change a.id rule = .error x := by
      rw [Editor.change_eq hd ha, hrule]
      rfl
    rw [hrefused]
    exact makes_of_not_allowed hd ha hallowed nofun rfl

end Distinct

end Step

theorem clampUnit_opacityOfPercent (percent : Nat) :
    Color.clampUnit (opacityOfPercent percent) = opacityOfPercent percent := by
  have hall : ∀ p, p < 101 → Color.clampUnit (opacityOfPercent p) = opacityOfPercent p := by decide +kernel
  have hmin : opacityOfPercent percent = opacityOfPercent (min percent 100) := by
    have hsame : min (percent : Int) 100 = min ((min percent 100 : Nat) : Int) 100 := by omega
    rw [opacityOfPercent, opacityOfPercent, hsame]
  rw [hmin]
  exact hall _ (by omega)

theorem Intent.step_makes {i : Intent} {c : PropertyChange} {e : Editor} {a : Attributes} (hi : i.change? = some c)
    (hd : (e.document.attributes.map Attributes.id).Nodup) (ha : a ∈ e.document.attributes) :
    Step.Makes c e a (i.step e a.id) := by
  cases i with
  | replaceText | replaceAllText | duplicate | delete => cases hi
  | setColor hex color =>
    cases hi
    rw [step, Step.setColor, Step.onNode_eq hd ha]
    cases hfills : a.fills with
    | none => exact Step.makes_of_not_allowed hd ha (by simp [PropertyChange.allowed, hfills]) nofun rfl
    | some fills =>
      refine Step.makes_ofEdit hd ha (by simp [PropertyChange.allowed, hfills]) ?_
      exact (if_pos (by simp [hfills])).trans (congrArg Except.ok (Attributes.recoloured_eq hfills).symm)
  | resizeWidth width =>
    cases hi
    rw [step, Step.setWidth, Step.onNode_eq hd ha]
    exact Step.makes_ite hd ha rfl fun hlayer => if_pos hlayer
  | resizeHeight height =>
    cases hi
    rw [step, Step.setHeight, Step.onNode_eq hd ha]
    exact Step.makes_ite hd ha rfl fun hlayer => if_pos hlayer
  | setOpacity percent =>
    cases hi
    rw [step, Step.setOpacity, Step.onNode_eq hd ha]
    refine Step.makes_ite hd ha rfl fun hopacity => ?_
    -- the opacity is clamped once more when it is set, which makes no difference to a percentage
    rw [if_pos hopacity, clampUnit_opacityOfPercent]
  | setFontSize size =>
    cases hi
    rw [step, Step.setFontSize, Step.onNode_eq hd ha]
    by_cases htext : a.kind = .text
    · rw [if_pos htext]
      by_cases hloads : e.document.loads a
      · obtain ⟨hverdict, hdocument⟩ := Step.withFonts_of_loads hd ha htext hloads
          (fun a => { a with fontSize := some (Decimal.ofInt size) })
          (f := fun a => { a with fontSize := some (Decimal.ofInt size) }) rfl
        exact Step.makes_of_allowed hd ha (by simp [PropertyChange.allowed, htext, hloads]) hverdict hdocument
      · obtain ⟨hverdict, hdocument⟩ := Step.withFonts_of_not_loads hloads _
        exact Step.makes_of_not_allowed hd ha (by simp [PropertyChange.allowed, hloads]) hverdict hdocument
    · rw [if_neg htext]
      exact Step.makes_of_not_allowed hd ha (by simp [PropertyChange.allowed, htext]) nofun rfl
  | move dx dy =>
    cases hi
    rw [step, Step.moveBy, Step.onNode_eq hd ha]
    -- the step itself moves any node, and it is the change that a page refuses
    exact Step.makes_of_refused hd ha rfl rfl
  | reveal | hide =>
    cases hi
    exact Step.makes_ofEdit hd ha rfl rfl
  | rename name =>
    cases hi
    exact Step.makes_ofEdit hd ha rfl rfl
  | setCornerRadius radius =>
    cases hi
    rw [step, Step.setCornerRadius, Step.onNode_eq hd ha]
    exact Step.makes_ite hd ha rfl fun hradius => if_pos hradius

/-! ## Nodes one after another -/

namespace Document

variable {d : Document} {c : PropertyChange} {S T : Attributes → Bool} {a : Attributes}

theorem edited_congr (h : ∀ a ∈ d.attributes, S a = T a) : d.edited c S = d.edited c T :=
  congrArg (fun nodes => { d with nodes }) (Forest.map_congr fun a ha => by rw [h a ha])

theorem allowed_edited : c.allowed (d.edited c S) a = c.allowed d a := rfl

theorem attributes_edited :
    (d.edited c S).attributes = d.attributes.map fun a => if S a && c.allowed d a then c.edit a else a :=
  Forest.labels_map ..

theorem mem_attributes_edited (ha : a ∈ d.attributes) (hS : S a = false) : a ∈ (d.edited c S).attributes := by
  rw [attributes_edited]
  exact List.mem_map.2 ⟨a, ha, by simp [hS]⟩

theorem ids_edited : (d.edited c S).attributes.map Attributes.id = d.attributes.map Attributes.id := by
  rw [attributes_edited, List.map_map]
  refine List.map_congr_left fun a _ => ?_
  rw [Function.comp_apply]
  split
  · exact c.id_edit a
  · rfl

theorem edited_edited {ids ids' : List String} (h : ids.Disjoint ids') :
    (d.edited c fun a => a.id ∈ ids).edited c (fun a => a.id ∈ ids') = d.edited c fun a => a.id ∈ ids ++ ids' := by
  refine congrArg (fun nodes => { d with nodes }) ((Forest.map_map ..).trans (Forest.map_congr fun a _ => ?_))
  simp only [allowed_edited, List.mem_append]
  -- a node that was changed before keeps its id, so that it is not among the others
  by_cases hids : a.id ∈ ids
  · have hids' : a.id ∉ ids' := fun hmem => h hids hmem
    by_cases hallowed : c.allowed d a
    · simp [hids, hallowed, c.id_edit, hids']
    · simp [hids, hallowed]
  · simp [hids]

end Document

/-- Steps for different nodes make the changes of all of them that they are allowed for, and these succeed. -/
theorem Editor.history_change {i : Intent} {c : PropertyChange} {d : Document} {e : Editor} {ids : List String}
    {as : List Attributes} (hi : i.change? = some c) (hd : (d.attributes.map Attributes.id).Nodup)
    (has : ∀ a ∈ as, a ∈ d.attributes) (hdistinct : (ids ++ as.map Attributes.id).Nodup)
    (he : e.document = d.edited c fun a => a.id ∈ ids) :
    let taken := Batch.history (fun id => id) i.step e (as.map Attributes.id)
    (Batch.last e taken).document = d.edited c (fun a => a.id ∈ ids ++ as.map Attributes.id) ∧
      taken.countP Taken.succeeded = as.countP (c.allowed d) := by
  -- the document after some steps is the first one with the changes at the nodes `ids`, where the next one is not
  induction as generalizing ids e with
  | nil => exact ⟨he.trans (by simp), rfl⟩
  | cons a as ih =>
    obtain ⟨ha, has⟩ := List.forall_mem_cons.1 has
    have hnot : a.id ∉ ids := fun hmem => (List.nodup_append'.1 hdistinct).2.2 hmem (List.mem_cons_self ..)
    have hstep : Step.Makes c e a (i.step e a.id) := by
      refine i.step_makes hi ?_ ?_
      · rwa [he, Document.ids_edited]
      · rw [he]
        exact Document.mem_attributes_edited ha (by simpa using hnot)
    have hallowed : c.allowed e.document a = c.allowed d a := by rw [he, Document.allowed_edited]
    have hnext : (i.step e a.id).editor.document = d.edited c fun b => b.id ∈ ids ++ [a.id] := by
      rw [hstep.document, he, ← Document.edited_edited (by simpa using hnot)]
      simp
    obtain ⟨hlast, hcount⟩ := ih has (by simpa using hdistinct) hnext
    refine ⟨hlast.trans (by rw [List.append_assoc]; rfl), ?_⟩
    rw [List.map_cons, Batch.history, List.countP_cons, hcount, List.countP_cons, ← hallowed]
    refine congrArg _ (if_congr ?_ rfl rfl)
    exact Taken.succeeded_iff.trans hstep.verdict

namespace Editor

variable {e : Editor} {i : Intent} {c : PropertyChange}

theorem history_selected (hi : i.change? = some c) (hd : (e.document.attributes.map Attributes.id).Nodup)
    (hselection : e.document.selection.Nodup) :
    (Batch.last e (i.history e)).document = e.document.edited c e.document.selects ∧
      (i.history e).countP Taken.succeeded = e.document.roots.countP fun root => c.allowed e.document root.label := by
  have hhistory : i.history e =
      Batch.history (fun id => id) i.step e ((e.document.roots.map Tree.label).map Attributes.id) := by
    rw [List.map_map]
    cases i with
    | replaceText | replaceAllText => cases hi
    | _ => rfl
  have hids : (e.document.roots.map Tree.label).map Attributes.id = e.document.roots.map Tree.id := List.map_map
  have hroots : ∀ a ∈ e.document.roots.map Tree.label, a ∈ e.document.attributes := by
    intro a ha
    obtain ⟨root, hroot, rfl⟩ := List.mem_map.1 ha
    exact Document.mem_attributes_of_root hroot root.label_mem_labels
  have hdistinct : ([] ++ (e.document.roots.map Tree.label).map Attributes.id).Nodup := by
    rw [List.nil_append, hids, Document.ids_roots]
    exact hselection.filter _
  have hfirst : e.document = e.document.edited c fun a => a.id ∈ ([] : List String) :=
    congrArg (fun nodes => { e.document with nodes }) (Forest.map_eq_self fun a _ => by simp).symm
  obtain ⟨hlast, hcount⟩ := history_change hi hd hroots hdistinct hfirst
  rw [hhistory]
  refine ⟨hlast.trans (Document.edited_congr fun a ha => ?_), hcount.trans List.countP_map⟩
  rw [Bool.eq_iff_iff, decide_eq_true_iff, List.nil_append, hids]
  exact Document.mem_ids_roots ha

/-- A change of the selected nodes is made at once of all that it is allowed for, leaves everything else as it is and
counts them. If there are none, it is refused. -/
theorem apply_change (e : Editor) (hi : i.change? = some c) (hd : (e.document.attributes.map Attributes.id).Nodup)
    (hselection : e.document.selection.Nodup) :
    let n := e.document.roots.countP fun root => c.allowed e.document root.label
    (e.apply i).editor.document = e.document.edited c e.document.selects ∧
      (n = 0 → ∃ refusal, (e.apply i).answer = .error refusal) ∧
      (n ≠ 0 → ∃ message, (e.apply i).answer = .ok ⟨n, message⟩) := by
  obtain ⟨hdocument, hcount⟩ := history_selected hi hd hselection
  have hran := e.apply_ran i
  refine ⟨?_, fun hzero => hran.error_of_eq_zero (hcount.trans hzero), fun hsome => ?_⟩
  · rw [apply_editor (by rintro rfl; cases hi), hdocument]
  · rw [← hcount] at hsome ⊢
    exact hran.ok_of_ne_zero hsome

end Editor

/-- A frame with a picture and a text, all of which are selected together with no node. The text has no fills. -/
def Document.swatches : Document where
  nodes := [.branch
    { Attributes.bare "1:1" "Frame" .frame with
      fills := some [.solid ⟨1.0, 1.0, 1.0⟩ 0.5 false (some "brand"), .gradientLinear]
      fillStyle := some "S:1" }
    [.leaf { Attributes.bare "1:2" "Picture" .rectangle with fills := some [.ofImage "hash", .gradientRadial] },
     .leaf (.bare "1:3" "Text" .text)]]
  selection := ["1:1", "9:9", "1:2", "1:3"]
  styles := []
  unavailableFonts := []
  images := .empty

namespace Editor

theorem apply_change_swatches :
    let e := opening .swatches
    let red : Color := ⟨1.0, 0.0, 0.0⟩
    let r := e.apply (.setColor "#ff0000" red)
    (∃ c, (Intent.setColor "#ff0000" red).change? = some c ∧
        r.editor.document = e.document.edited c e.document.selects) ∧
      (e.document.attributes.map Attributes.id).Nodup ∧ e.document.selection.Nodup ∧
      (∃ message, r.answer = .ok ⟨2, message⟩) ∧
      r.editor.document.attributes.map Attributes.fills =
        [some [.solid red 0.5 false none, .gradientLinear], some [.solid red 1.0 true none], none] := by
  intro e red r
  have hd : (e.document.attributes.map Attributes.id).Nodup := by decide
  have hselection : e.document.selection.Nodup := by decide
  obtain ⟨hdocument, -, hchanged⟩ := apply_change e (i := .setColor "#ff0000" red) rfl hd hselection
  refine ⟨⟨_, rfl, hdocument⟩, hd, hselection, hchanged (by decide), ?_⟩
  rw [show r.editor.document = _ from hdocument]
  decide

end Editor

end DesignCanvas
