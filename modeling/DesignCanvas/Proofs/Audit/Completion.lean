import DesignCanvas.Proofs.Audit.Palette
import DesignCanvas.Proofs.Editor.History

/-!
# Complete repairs

An audit asks for a fix just where it comes to a node with something to put right (`Document.plan_eq`), so its fixes
are all for nodes and mend the document. A finding is put right if there is a style for each of its fixes
(`Editor.repair_findings`). What could be served is then no longer asked for, so the same audit changes nothing any
more (`Editor.repairsFully`).
-/

namespace DesignCanvas

/-- The colours that an audit of paint styles asks for and that no paint style has. -/
def Document.missing (d : Document) : List Color :=
  ((d.plan .styles).filterMap fun p => p.2.color?).filter fun c => !d.styles.any (Style.hasColor c)

/-- Audits that put right what they find leave nothing behind that they could put right. -/
structure Editor.RepairsFully (e : Editor) : Prop where
  /-- Every warning about paints is put right. -/
  paints : ∃ planned findings, (e.audit .styles false).answer = .ok planned ∧
    (e.audit .styles true).answer = .ok findings ∧
    List.Forall₂ (fun p f : Finding => f.nodeId = p.nodeId ∧ f.severity = p.severity ∧
      (f.applied ↔ f.severity = .warning)) planned findings
  /-- Afterwards there is nothing to attend to. -/
  rescanned : ∃ findings, ((e.audit .styles true).editor.audit .styles false).answer = .ok findings ∧
    ∀ f ∈ findings, ¬ f.needsAttention
  /-- One style is added for each colour that there was none for. -/
  added : (e.audit .styles true).editor.document.styles.length =
    e.document.styles.length + (e.document.missing.map Color.toHex).dedup.length
  /-- A warning about a text is put right just if a text style has its family and its size. -/
  texts : ∃ findings, (e.audit .textStyles true).answer = .ok findings ∧
    List.Forall₂ (fun (t : Node) (f : Finding) => f.nodeId = t.id ∧
      (f.severity = .warning ↔ t.label.textStyle = none) ∧
      (f.severity = .warning → (f.applied ↔ ∃ family size, t.label.fontFamily? = some family ∧
        t.label.fontSize = some size ∧ ∃ s ∈ e.document.styles, s.hasFont family size)))
      (e.document.roots.flatMap Tree.texts) findings
  /-- The same audit once more changes nothing. -/
  settled : ∀ kind, ((e.audit kind true).editor.audit kind true).editor.document =
    (e.audit kind true).editor.document

/-! ## Plans of all kinds -/

/-- The nodes that an audit comes to and says something about, some of them only if they show a paint. -/
def Tree.audited (n : Node) : AuditKind → List Node
  | .components => n.reached Tree.isReusable
  | .styles => n.all
  | .textStyles => n.texts

namespace Tree

variable {n m : Node} {kind : AuditKind}

theorem reached_of_audited (hm : m ∈ n.audited kind) : ∃ stop, m ∈ n.reached stop := by
  cases kind with
  | components => exact ⟨_, hm⟩
  | styles => exact ⟨_, hm⟩
  | textStyles => exact ⟨_, List.mem_of_mem_filter hm⟩

theorem audited_map {g : Attributes → Attributes} (hkind : ∀ a, (g a).kind = a.kind) (n : Node) (kind : AuditKind) :
    (n.map g).audited kind = (n.audited kind).map (Tree.map g) := by
  have htext : ∀ t : Node, (t.map g).isText = t.isText := fun t => by rw [isText, label_map, hkind]; rfl
  have hreusable : ∀ t : Node, (t.map g).isReusable = t.isReusable := fun t => by
    rw [isReusable, label_map, hkind]
    rfl
  cases kind with
  | components => exact reached_map hreusable n
  | styles => exact reached_map (fun _ => rfl) n
  | textStyles =>
    rw [audited, texts, reached_map htext, List.filter_map]
    exact congrArg _ (List.filter_congr fun t _ => htext t)

end Tree

namespace Document

variable {d : Document} {kind : AuditKind} {i : Inspection}

theorem plan_inspectText (d : Document) {a : Attributes} (hkind : a.kind = .text) :
    (d.inspectText a).plan = (a.fixes .textStyles).map fun f => (a.id, f) := by
  unfold inspectText
  cases hstyle : a.textStyle with
  | some style => simp [Inspection.plan, Inspection.ofNode, Attributes.fixes, hstyle]
  | none => simp [Inspection.plan, Inspection.ofNode, Attributes.fixes, hstyle, hkind]

theorem plan_eq (d : Document) (kind : AuditKind) : d.plan kind =
    (d.roots.flatMap fun n => n.audited kind).flatMap fun n => (n.label.fixes kind).map fun f => (n.id, f) := by
  cases kind with
  | components =>
    rw [plan, List.flatMap_assoc, List.flatMap_assoc]
    simp [scan, Tree.scanComponents, Inspection.plan, Tree.inspectComponent, Inspection.ofNode, Attributes.fixes,
      List.flatMap_map, Tree.audited]
  | styles => exact d.paintPlan_eq
  | textStyles =>
    rw [plan, List.flatMap_assoc, List.flatMap_assoc]
    refine List.flatMap_congr fun root _ => ?_
    rw [scan, scanTexts, List.flatMap_map, Tree.audited]
    refine List.flatMap_congr fun t ht => d.plan_inspectText ?_
    exact beq_iff_eq.1 (List.mem_filter.1 ht).2

theorem mem_plan {p : String × Fix} : p ∈ d.plan kind ↔
    ∃ root ∈ d.roots, ∃ n ∈ root.audited kind, p.1 = n.id ∧ p.2 ∈ n.label.fixes kind := by
  obtain ⟨id, f⟩ := p
  rw [plan_eq, List.flatMap_assoc, List.mem_flatMap]
  refine exists_congr fun root => and_congr_right fun _ => ?_
  rw [List.mem_flatMap]
  refine exists_congr fun n => and_congr_right fun _ => ?_
  simp [and_comm, eq_comm]

theorem plan_fits (d : Document) (kind : AuditKind) : ∀ p ∈ d.plan kind, d.Fits p := by
  intro p hp
  obtain ⟨root, hroot, n, hn, hid, hfix⟩ := mem_plan.1 hp
  obtain ⟨stop, hreached⟩ := Tree.reached_of_audited hn
  exact ⟨n.label, mem_attributes_of_reached hroot hreached, hid.symm, Attributes.suits_of_mem_fixes hfix⟩

theorem mem_plan_of_inspection {f : Fix} (hi : i ∈ d.roots.flatMap (d.scan kind)) (hf : f ∈ i.fixes) :
    (i.finding.nodeId, f) ∈ d.plan kind :=
  List.mem_flatMap.2 ⟨i, hi, List.mem_map_of_mem hf⟩

theorem serves_of_mem_plan_styles (d' : Document) {p : String × Fix} (hp : p ∈ d.plan .styles) : d'.serves p.2 := by
  obtain ⟨root, -, n, -, -, hf⟩ := mem_plan.1 hp
  obtain ⟨slot, c, -, heq⟩ := Attributes.mem_fixes_styles.1 hf
  rw [heq]
  rfl

theorem severity_scanPaints {n : Node} (hi : i ∈ d.scanPaints n) : i.finding.severity = .warning ↔ i.fixes ≠ [] := by
  obtain ⟨m, -, hm⟩ := List.mem_filterMap.1 hi
  unfold inspectPaint at hm
  dsimp only at hm
  split at hm
  · cases hm
  · obtain rfl := Option.some.inj hm
    simp [Inspection.ofNode]

theorem nodeId_inspectText (d : Document) (a : Attributes) : (d.inspectText a).finding.nodeId = a.id := by
  unfold inspectText
  split <;> rfl

theorem severity_inspectText (d : Document) (a : Attributes) :
    (d.inspectText a).finding.severity = .warning ↔ a.textStyle = none := by
  unfold inspectText
  cases a.textStyle <;> simp [Inspection.ofNode]

theorem fixes_inspectText {a : Attributes} (hstyle : a.textStyle = none) :
    (d.inspectText a).fixes = a.textFix?.toList := by
  unfold inspectText
  rw [hstyle]
  rfl

theorem applied_scan {n : Node} (hi : i ∈ d.scan kind n) : i.finding.applied = false := by
  cases kind with
  | components =>
    obtain ⟨m, -, rfl⟩ := List.mem_map.1 hi
    rfl
  | styles =>
    obtain ⟨m, -, hm⟩ := List.mem_filterMap.1 hi
    unfold inspectPaint at hm
    dsimp only at hm
    split at hm
    · cases hm
    · obtain rfl := Option.some.inj hm
      rfl
  | textStyles =>
    obtain ⟨m, -, rfl⟩ := List.mem_map.1 hi
    unfold inspectText
    split <;> rfl

end Document

/-! ## What is found -/

/-- The finding of an inspection is put right just if a style serves each of its fixes, of which there are some. -/
structure Finding.Settles (d : Document) (i : Inspection) (f : Finding) : Prop where
  nodeId : f.nodeId = i.finding.nodeId
  severity : f.severity = i.finding.severity
  applied : f.applied ↔ i.fixes ≠ [] ∧ ∀ x ∈ i.fixes, d.serves x

theorem Inspection.repaired_spec {i : Inspection} (hnew : i.finding.applied = false) (bound : List String) :
    (i.repaired bound).nodeId = i.finding.nodeId ∧ (i.repaired bound).severity = i.finding.severity ∧
      ((i.repaired bound).applied ↔ i.fixes ≠ [] ∧ bound.length = i.fixes.length) := by
  unfold repaired
  split
  · next h =>
    refine ⟨rfl, rfl, iff_of_false (by simp [hnew]) ?_⟩
    rintro ⟨hsome, hlength⟩
    exact h.elim (fun hempty => hsome (List.isEmpty_iff.1 hempty)) (fun hne => hne hlength)
  · next h =>
    rw [not_or, List.isEmpty_iff, not_not] at h
    exact ⟨rfl, rfl, iff_of_true rfl h⟩

namespace Editor

variable {e : Editor}

theorem length_bound (id : String) (fs : List Fix) {r : Repair} (hd : r.editor.document.Distinct)
    (hfits : ∀ f ∈ fs, r.editor.document.Fits (id, f)) :
    (fs.foldl (Repair.take id) r).bound.length = r.bound.length + fs.countP r.editor.document.serves := by
  induction fs generalizing r with
  | nil => rfl
  | cons f fs ih =>
    obtain ⟨hf, hfs⟩ := List.forall_mem_cons.1 hfits
    obtain ⟨⟨style, hstyle, hserved⟩, hmended⟩ := fix_mended hd hf
    have heditor := take_editor id r f
    have hbound : (r.take id f).bound = r.bound ++ style.toList := by
      rw [Repair.take]
      simp only [hstyle]
    rw [List.foldl_cons, ih, hbound, heditor, hmended.serves, List.length_append, List.countP_cons, ← hserved]
    · cases style <;> simp [Nat.add_assoc, Nat.add_comm]
    · rw [heditor]
      exact fix_distinct hd id f
    · intro f' hf'
      rw [heditor]
      exact hmended.fits (hfs f' hf')

theorem repair_findings (hd : e.document.Distinct) {is : List Inspection} (hnew : ∀ i ∈ is, i.finding.applied = false)
    (hfits : ∀ p ∈ is.flatMap Inspection.plan, e.document.Fits p) :
    List.Forall₂ (Finding.Settles e.document) is (e.repair is).2.2 := by
  induction is generalizing e with
  | nil => exact .nil
  | cons i is ih =>
    obtain ⟨hi, his⟩ := List.forall_mem_cons.1 hnew
    rw [List.flatMap_cons, List.forall_mem_append] at hfits
    obtain ⟨hfirst, hrest⟩ := hfits
    have heditor : (Repair.run e i).editor = e.fixAll i.plan := foldl_take_editor _ _ _
    have hmended := fixAll_mended hd hfirst
    have hlength : (Repair.run e i).bound.length = i.fixes.countP e.document.serves := by
      have h := length_bound i.finding.nodeId i.fixes (r := ⟨e, [], []⟩) hd fun f hf =>
        hfirst _ (List.mem_map_of_mem hf)
      rwa [List.length_nil, Nat.zero_add] at h
    have hfindings : (e.repair (i :: is)).2.2 =
        i.repaired (Repair.run e i).bound :: ((e.fixAll i.plan).repair is).2.2 := by
      rw [← heditor]
      rfl
    rw [hfindings]
    refine .cons ?_ ?_
    · obtain ⟨hid, hseverity, happlied⟩ := Inspection.repaired_spec hi (Repair.run e i).bound
      rw [hlength, List.countP_eq_length] at happlied
      exact ⟨hid, hseverity, happlied⟩
    · -- the other findings are those of a mended document, but that one serves the same fixes
      have hfound := ih (fixAll_distinct hd i.plan) his fun p hp => hmended.fits (hrest p hp)
      refine hfound.imp fun j f h => ⟨h.nodeId, h.severity, ?_⟩
      rw [h.applied, hmended.serves]

/-! ## Audits -/

theorem audit_false (hroots : e.document.roots ≠ []) (kind : AuditKind) :
    (e.audit kind false).answer =
      .ok ((e.document.roots.flatMap (e.document.scan kind)).map Inspection.finding) := by
  rw [audit, onSelection_eq, if_neg hroots]
  rfl

theorem audit_true (hroots : e.document.roots ≠ []) (kind : AuditKind) :
    (e.audit kind true).answer = .ok (e.repair (e.document.roots.flatMap (e.document.scan kind))).2.2 := by
  rw [audit, onSelection_eq, if_neg hroots]
  rfl

theorem not_serves_of_mem_plan (hd : e.document.Distinct) (kind : AuditKind) :
    ∀ p ∈ (e.audit kind true).editor.document.plan kind, ¬ (e.audit kind true).editor.document.serves p.2 := by
  rw [audit_editor]
  have hmended := fixAll_mended hd (e.document.plan_fits kind)
  obtain ⟨g, hnodes, heased, hgone⟩ := hmended.nodes
  intro p hp hserves
  obtain ⟨root', hroot', n', hn', hid, hfix⟩ := Document.mem_plan.1 hp
  rw [Document.roots_map (fun a => (heased a).id) hnodes hmended.selection] at hroot'
  obtain ⟨root, hroot, rfl⟩ := List.mem_map.1 hroot'
  rw [Tree.audited_map fun a => (heased a).kind] at hn'
  obtain ⟨n, hn, rfl⟩ := List.mem_map.1 hn'
  rw [Tree.label_map] at hfix
  rw [hmended.serves] at hserves
  -- the node is an eased one, so the same was asked for it before
  refine hgone n.label p.2 ?_ hserves kind hfix
  exact Document.mem_plan.2 ⟨root, hroot, n, hn, rfl, (heased n.label).fixes kind hfix⟩

theorem audit_audit (hd : e.document.Distinct) (kind : AuditKind) :
    ((e.audit kind true).editor.audit kind true).editor = (e.audit kind true).editor := by
  rw [audit_editor, fixAll_eq_self (not_serves_of_mem_plan hd kind)]

theorem audit_findings (hd : e.document.Distinct) (kind : AuditKind) :
    List.Forall₂ (Finding.Settles e.document) (e.document.roots.flatMap (e.document.scan kind))
      (e.repair (e.document.roots.flatMap (e.document.scan kind))).2.2 := by
  refine repair_findings hd (fun i hi => ?_) (e.document.plan_fits kind)
  obtain ⟨root, -, hi⟩ := List.mem_flatMap.1 hi
  exact Document.applied_scan hi

theorem warns_scanPaints (d : Document) :
    ∀ i ∈ d.roots.flatMap (d.scan .styles), (i.finding.severity = .warning ↔ i.fixes ≠ []) := by
  intro i hi
  obtain ⟨root, -, hi⟩ := List.mem_flatMap.1 hi
  exact Document.severity_scanPaints hi

theorem styles_repaired (hd : e.document.Distinct) (hroots : e.document.roots ≠ []) :
    ∃ planned findings, (e.audit .styles false).answer = .ok planned ∧
      (e.audit .styles true).answer = .ok findings ∧
      List.Forall₂ (fun p f : Finding => f.nodeId = p.nodeId ∧ f.severity = p.severity ∧
        (f.applied ↔ f.severity = .warning)) planned findings := by
  refine ⟨_, _, audit_false hroots .styles, audit_true hroots .styles, ?_⟩
  rw [List.forall₂_map_left_iff]
  have hserves : ∀ i ∈ e.document.roots.flatMap (e.document.scan .styles), ∀ x ∈ i.fixes, e.document.serves x :=
    fun i hi x hx => Document.serves_of_mem_plan_styles e.document (Document.mem_plan_of_inspection hi hx)
  have hfound := (List.forall₂_and_left _ _).2
    ⟨fun i hi => And.intro (warns_scanPaints e.document i hi) (hserves i hi), audit_findings hd .styles⟩
  refine hfound.imp fun i f h => ?_
  obtain ⟨⟨hwarns, hserves⟩, hsettles⟩ := h
  refine ⟨hsettles.nodeId, hsettles.severity, ?_⟩
  rw [hsettles.applied, hsettles.severity, hwarns]
  exact and_iff_left hserves

theorem roots_audit (hd : e.document.Distinct) (hroots : e.document.roots ≠ []) (kind : AuditKind) :
    (e.audit kind true).editor.document.roots ≠ [] := by
  have hmended := fixAll_mended hd (e.document.plan_fits kind)
  obtain ⟨g, hnodes, heased, -⟩ := hmended.nodes
  rw [audit_editor, Document.roots_map (fun a => (heased a).id) hnodes hmended.selection]
  exact mt List.map_eq_nil_iff.1 hroots

theorem styles_rescanned (hd : e.document.Distinct) (hroots : e.document.roots ≠ []) :
    ∃ findings, ((e.audit .styles true).editor.audit .styles false).answer = .ok findings ∧
      ∀ f ∈ findings, ¬ f.needsAttention := by
  refine ⟨_, audit_false (roots_audit hd hroots .styles) .styles, fun f hf hattention => ?_⟩
  obtain ⟨i, hi, rfl⟩ := List.mem_map.1 hf
  have hwarning : i.finding.severity = .warning := beq_iff_eq.1 (Bool.and_eq_true_iff.1 hattention).1
  obtain ⟨x, hx⟩ := List.exists_mem_of_ne_nil _ ((warns_scanPaints _ i hi).1 hwarning)
  have hplanned := Document.mem_plan_of_inspection hi hx
  exact not_serves_of_mem_plan hd .styles _ hplanned (Document.serves_of_mem_plan_styles _ hplanned)

theorem styles_added (e : Editor) :
    (e.audit .styles true).editor.document.styles.length =
      e.document.styles.length + (e.document.missing.map Color.toHex).dedup.length := by
  have hmissing : (((e.document.plan .styles).filterMap fun p => p.2.color?).map Color.toHex).filter
      (· ∉ e.document.hexes) = e.document.missing.map Color.toHex := by
    rw [List.filter_map, Document.missing]
    refine congrArg _ (List.filter_congr fun c _ => ?_)
    rw [Function.comp_apply, Bool.eq_iff_iff]
    simp [Document.mem_hexes]
  rw [audit_editor, (e.fixAll_supplied (e.document.plan .styles)).length_eq, hmissing]

theorem texts_repaired (hd : e.document.Distinct) (hroots : e.document.roots ≠ []) :
    ∃ findings, (e.audit .textStyles true).answer = .ok findings ∧
      List.Forall₂ (fun (t : Node) (f : Finding) => f.nodeId = t.id ∧
        (f.severity = .warning ↔ t.label.textStyle = none) ∧
        (f.severity = .warning → (f.applied ↔ ∃ family size, t.label.fontFamily? = some family ∧
          t.label.fontSize = some size ∧ ∃ s ∈ e.document.styles, s.hasFont family size)))
        (e.document.roots.flatMap Tree.texts) findings := by
  refine ⟨_, audit_true hroots .textStyles, ?_⟩
  have hinspections : e.document.roots.flatMap (e.document.scan .textStyles) =
      (e.document.roots.flatMap Tree.texts).map fun t => e.document.inspectText t.label := by
    rw [List.map_flatMap]
    rfl
  have hfound := audit_findings hd .textStyles
  rw [hinspections, List.forall₂_map_left_iff] at hfound
  rw [hinspections]
  refine hfound.imp fun t f h => ?_
  have hseverity : f.severity = .warning ↔ t.label.textStyle = none := by
    rw [h.severity, Document.severity_inspectText]
  refine ⟨?_, hseverity, fun hwarning => ?_⟩
  · rw [h.nodeId, Document.nodeId_inspectText]
    rfl
  · rw [h.applied, Document.fixes_inspectText (hseverity.1 hwarning), Attributes.textFix?]
    cases t.label.fontFamily? <;> cases t.label.fontSize <;> simp [Document.serves]

/-- Audits that put right what they find leave nothing behind that they could put right. -/
theorem repairsFully (e : Editor) (hd : e.document.Distinct) (hroots : e.document.roots ≠ []) : e.RepairsFully where
  paints := styles_repaired hd hroots
  rescanned := styles_rescanned hd hroots
  added := styles_added e
  texts := texts_repaired hd hroots
  settled kind := congrArg Editor.document (audit_audit hd kind)

end Editor

/-- A selected frame with a rectangle and two texts, one of which is selected too. Two of the three loose paints have
one colour, and there is a text style for the font of one text. -/
def Document.unstyled : Document where
  nodes := [.branch (.bare "1:1" "Frame" .frame)
    [.leaf { Attributes.bare "1:2" "Rectangle" .rectangle with
      fills := some [.solid ⟨0.0, 0.0, 0.0⟩ 1.0 true none], strokes := some [.solid ⟨1.0, 1.0, 1.0⟩ 1.0 true none] },
     .leaf { Attributes.bare "1:3" "Title" .text with
      fills := some [.solid ⟨0.0, 0.0, 0.0⟩ 1.0 true none],
      fontName := some (.single ⟨"Inter", "Bold"⟩), fontSize := some 32.0 },
     .leaf { Attributes.bare "1:4" "Caption" .text with
      fontName := some (.single ⟨"Inter", "Regular"⟩), fontSize := some 12.0 }]]
  selection := ["1:1", "1:3"]
  styles := [⟨"S:1", "Heading", .text, none, some ⟨"Inter", "Bold"⟩, some 32.0⟩]
  unavailableFonts := []
  images := .empty

namespace Editor

theorem repairsFully_unstyled :
    let e := opening .unstyled
    e.document.Distinct ∧ e.document.roots ≠ [] ∧ e.RepairsFully ∧
      (e.document.missing.map Color.toHex).dedup = ["#ffffff", "#000000"] := by
  intro e
  have hd : e.document.Distinct := by decide
  have hroots : e.document.roots ≠ [] := by decide
  exact ⟨hd, hroots, repairsFully e hd hroots, by decide +kernel⟩

end Editor

end DesignCanvas
