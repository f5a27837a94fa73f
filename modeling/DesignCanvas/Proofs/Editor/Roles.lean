import DesignCanvas.Proofs.Editor.Parts

/-!
# Names after the role

What a layer is called after its role follows from its kind, its paints, its layout and that of the node right above
it. But a walk does not see what the selected node that it starts from is in: a frame or group whose role hangs on where
it is loses that role when it is selected itself and is not come to from a later selected node above it, and this is the
only way (`Editor.namesByPlace_iff`). No role follows from a name, so to rename a selection after the roles once more
answers the same and changes nothing (`Editor.renameByRole_again`).
-/

namespace DesignCanvas

/-! ## Roles -/

/-- A frame or group without a picture that does not lay out its children. -/
def Attributes.isPlainContainer (a : Attributes) : Bool :=
  (a.kind == .frame || a.kind == .group) && !a.hasImageFill && !a.isAutoLayout

/-- The node right above the place lays out its children. -/
def Place.inAutoLayout (p : Place Attributes) : Bool :=
  p.above.getLast?.any Attributes.isAutoLayout

/-- The role of a layer where it is in its document. -/
def Place.role? (p : Place Attributes) : Option Role :=
  p.label.role? p.inAutoLayout

/-- The role that a walk from the node with an id sees in a layer: it does not see what this node itself is in. -/
def Place.roleFrom? (start : String) (p : Place Attributes) : Option Role :=
  p.label.role? (p.label.id != start && p.inAutoLayout)

/-- A walk from a node that passes over reusable parts comes to the node with an id. -/
def Tree.comesTo (root : Node) (id : String) : Bool :=
  (root.reached Tree.isReusable).any fun n => n.id == id

namespace Document

/-- The last selected node that a walk comes to the node with an id from. -/
def lastStart? (d : Document) (id : String) : Option String :=
  (d.roots.filter fun root => root.comesTo id).getLast?.map Tree.id

end Document

namespace Attributes

variable {a : Attributes}

theorem role?_of_isPlainContainer (h : a.isPlainContainer) (inAutoLayout : Bool) :
    a.role? inAutoLayout = some (if inAutoLayout then .item else .content) := by
  simp only [isPlainContainer, Bool.and_eq_true, Bool.or_eq_true, beq_iff_eq, Bool.not_eq_true'] at h
  obtain ⟨⟨hkind, himage⟩, hlayout⟩ := h
  rcases hkind with hkind | hkind <;> simp [role?, hkind, Kind.isReusable, himage, containerRole, hlayout]

theorem role?_eq_role? (h : a.isPlainContainer = false) (b b' : Bool) : a.role? b = a.role? b' := by
  unfold role?
  split_ifs with hreusable htext himage hkind hprimitive
  · rfl
  · rfl
  · rfl
  · have hlayout : a.isAutoLayout = true := by simpa [isPlainContainer, hkind, himage] using h
    simp [containerRole, hlayout]
  · rfl
  · rfl

theorem isSome_role? (b b' : Bool) : (a.role? b).isSome = (a.role? b').isSome := by
  cases hplain : a.isPlainContainer with
  | true => rw [role?_of_isPlainContainer hplain, role?_of_isPlainContainer hplain]; rfl
  | false => rw [role?_eq_role? hplain b b']

end Attributes

namespace Place

variable {p : Place Attributes} {start : String}

theorem roleFrom?_of_ne (h : start ≠ p.label.id) : p.roleFrom? start = p.role? := by
  rw [roleFrom?, bne_iff_ne.2 h.symm, Bool.true_and]
  rfl

theorem roleFrom?_self (p : Place Attributes) : p.roleFrom? p.label.id = p.label.role? false := by
  simp [roleFrom?]

theorem isSome_roleFrom? (start : String) (p : Place Attributes) :
    (p.roleFrom? start).isSome = p.role?.isSome :=
  Attributes.isSome_role? _ _

end Place

/-! ## Roles by place -/

theorem Tree.label_of_above_eq_nil {t : Node} {p : Place Attributes} (hp : p ∈ t.places) (h : p.above = []) :
    p.label = t.label := by
  cases t with
  | leaf a => rw [List.mem_singleton.1 hp]; rfl
  | branch a ts =>
    rcases List.mem_cons.1 hp with rfl | hp
    · rfl
    · obtain ⟨q, -, rfl⟩ := List.mem_map.1 hp
      exact absurd h (List.cons_ne_nil _ _)

theorem Tree.root_mem_places (t : Node) : ⟨[], t.label⟩ ∈ t.places := by
  cases t <;> simp [Tree.places, Tree.label]

namespace Document

variable {d : Document} (hd : (d.attributes.map Attributes.id).Nodup)

section Walk

variable {root : Node} (hroot : root ∈ d.roots) {p : Place Attributes} (hp : p ∈ Forest.places d.nodes)

include hd hroot hp

theorem roleRenaming?_of_visited {v : Visited Attributes} (hv : v ∈ root.visited Tree.isReusable)
    (hid : v.tree.id = p.label.id) :
    roleRenaming? v = (p.roleFrom? root.id).map fun role => ⟨p.label.id, role.name⟩ := by
  obtain ⟨id, -, hfind⟩ := List.mem_filterMap.1 hroot
  obtain ⟨outer, hplaces⟩ := Forest.places_find? hfind
  have hplace : v.place ∈ root.places := by
    have hstop : ∀ t : Node, t.isReusable = t.label.isReusable := fun _ => rfl
    have hvisited := Tree.places_visited hstop root
    have hmem := List.mem_map_of_mem (f := Visited.place) hv
    rw [hvisited] at hmem
    exact (List.mem_filter.1 hmem).1
  have hself : v.place.under outer = p :=
    eq_of_place hd (hplaces.subset (List.mem_map_of_mem hplace)) hp hid
  have hlabel : v.tree.label = p.label := congrArg Place.label hself
  have habove : outer ++ v.ancestors.map Tree.label = p.above := congrArg Place.above hself
  have hflag : (v.ancestors.getLast?.any fun n => n.label.isAutoLayout) =
      (p.label.id != root.id && p.inAutoLayout) := by
    by_cases hstart : p.label.id = root.id
    · -- the walk starts at the node itself, with nothing above it
      have hroot' : (⟨outer ++ [], root.label⟩ : Place Attributes) = p :=
        eq_of_place hd (hplaces.subset (List.mem_map_of_mem root.root_mem_places)) hp hstart.symm
      have hnil : v.ancestors = [] := by
        rw [← hroot'] at habove
        simpa using habove
      rw [hnil, hstart, bne_self_eq_false, Bool.false_and]
      rfl
    · have hsome : v.ancestors ≠ [] := by
        intro hnil
        have hlabel' : v.place.label = root.label :=
          Tree.label_of_above_eq_nil hplace (by rw [Visited.place, hnil]; rfl)
        exact hstart (hid.symm.trans (congrArg Attributes.id hlabel'))
      rw [bne_iff_ne.2 hstart, Bool.true_and, Place.inAutoLayout, ← habove,
        List.getLast?_append_of_ne_nil _ (by simpa using hsome), List.getLast?_map, Option.any_map]
  rw [roleRenaming?, hflag, Tree.id, hlabel]
  rfl

theorem last?_visited (hrole : p.role?.isSome) :
    Renaming.last? ((root.visited Tree.isReusable).filterMap roleRenaming?) p.label.id =
      if root.comesTo p.label.id then (p.roleFrom? root.id).map Role.name else none := by
  cases hlast : Renaming.last? ((root.visited Tree.isReusable).filterMap roleRenaming?) p.label.id with
  | none =>
    have hnone : ¬ root.comesTo p.label.id := by
      intro hcomes
      obtain ⟨n, hn, hid⟩ := List.any_eq_true.1 hcomes
      obtain ⟨v, hv, rfl⟩ := List.mem_map.1 hn
      obtain ⟨role, hgiven⟩ := Option.isSome_iff_exists.1 ((p.isSome_roleFrom? root.id).trans hrole)
      have hrenaming := roleRenaming?_of_visited hd hroot hp hv (beq_iff_eq.1 hid)
      rw [hgiven] at hrenaming
      exact Renaming.last?_eq_none.1 hlast _ (List.mem_filterMap.2 ⟨v, hv, hrenaming⟩) rfl
    rw [if_neg hnone]
  | some name =>
    obtain ⟨v, hv, hrenaming⟩ := List.mem_filterMap.1 (Renaming.last?_eq_some hlast)
    have hid : v.tree.id = p.label.id := by
      obtain ⟨role, -, hgiven⟩ := Option.map_eq_some_iff.1 hrenaming
      exact congrArg Renaming.id hgiven
    have hcomes : root.comesTo p.label.id :=
      List.any_eq_true.2 ⟨v.tree, List.mem_map_of_mem hv, beq_iff_eq.2 hid⟩
    rw [roleRenaming?_of_visited hd hroot hp hv hid] at hrenaming
    obtain ⟨role, hgiven, heq⟩ := Option.map_eq_some_iff.1 hrenaming
    rw [if_pos hcomes, hgiven, ← (Renaming.mk.inj heq).2]
    rfl

end Walk

include hd

/-- The last walk that comes to a layer gives it its name. -/
theorem last?_renamingsByRole {p : Place Attributes} (hp : p ∈ Forest.places d.nodes) (hrole : p.role?.isSome) :
    Renaming.last? d.renamingsByRole p.label.id =
      (d.lastStart? p.label.id).bind fun start => (p.roleFrom? start).map Role.name := by
  have hall : ∀ ns : List Node, (∀ root ∈ ns, root ∈ d.roots) →
      Renaming.last? ((ns.flatMap (Tree.visited Tree.isReusable)).filterMap roleRenaming?) p.label.id =
        ((ns.filter fun root => root.comesTo p.label.id).getLast?.map Tree.id).bind
          fun start => (p.roleFrom? start).map Role.name := by
    intro ns hroots
    induction ns using List.reverseRecOn with
    | nil => rfl
    | append_singleton ns root ih =>
      obtain ⟨hns, hroot⟩ := List.forall_mem_append.1 hroots
      have hone := last?_visited hd (hroot root (List.mem_singleton_self root)) hp hrole
      rw [List.flatMap_append, List.filterMap_append, Renaming.last?_append, ih hns, List.flatMap_singleton, hone,
        List.filter_append]
      by_cases hcomes : root.comesTo p.label.id
      · obtain ⟨role, hgiven⟩ := Option.isSome_iff_exists.1 ((p.isSome_roleFrom? root.id).trans hrole)
        simp [hcomes, hgiven]
      · simp [hcomes]
  exact hall d.roots fun _ h => h

omit hd

theorem isSome_lastStart? {id : String} : (d.lastStart? id).isSome ↔ d.roots.any fun root => root.comesTo id := by
  rw [lastStart?, Option.isSome_map, ← Option.ne_none_iff_isSome, Ne, List.getLast?_eq_none_iff,
    List.filter_eq_nil_iff, List.any_eq_true]
  push Not
  rfl

end Document

namespace Editor

/-- Every layer that a walk comes to, and that is in no reusable part, gets the name of its role where it is. -/
def NamesByPlace (e : Editor) : Prop :=
  ∀ p ∈ Forest.places e.document.nodes, (e.document.roots.any fun root => root.comesTo p.label.id) →
    p.spared Attributes.isReusable → ∀ role, p.role? = some role →
      ∃ n, e.renameByRole.editor.document.find? p.label.id = some n ∧ n.label.name = role.name

variable {e : Editor}

/-- A layer that a walk comes to has the name of the role that the last one sees in it. -/
theorem name_renameByRole (hd : (e.document.attributes.map Attributes.id).Nodup) {p : Place Attributes}
    (hp : p ∈ Forest.places e.document.nodes) (hrole : p.role?.isSome) {start : String}
    (hstart : e.document.lastStart? p.label.id = some start) :
    ∃ n role, e.renameByRole.editor.document.find? p.label.id = some n ∧ p.roleFrom? start = some role ∧
      n.label.name = role.name := by
  obtain ⟨role, hgiven⟩ := Option.isSome_iff_exists.1 ((p.isSome_roleFrom? start).trans hrole)
  obtain ⟨n, hn, hname⟩ :=
    Document.name_renamed hd e.document.renamingsByRole (Document.label_mem_of_place hp)
  rw [Document.last?_renamingsByRole hd hp hrole, hstart, Option.bind_some, hgiven] at hname
  exact ⟨n, role, by rw [document_renameByRole hd, hn], hgiven, hname⟩

/-- Layers are named by their place just if no frame or group in an automatic layout, itself without one and without a
picture, is selected and come to from no later selected node but itself. -/
theorem namesByPlace_iff (e : Editor) (hd : (e.document.attributes.map Attributes.id).Nodup) :
    e.NamesByPlace ↔ ∀ p ∈ Forest.places e.document.nodes, p.clear Attributes.isReusable → p.inAutoLayout →
      p.label.isPlainContainer → e.document.lastStart? p.label.id ≠ some p.label.id := by
  constructor
  · intro hnames p hp hclear hlayout hplain hself
    have hitem : p.role? = some .item := by
      rw [Place.role?, Attributes.role?_of_isPlainContainer hplain, if_pos hlayout]
    have hcontent : p.roleFrom? p.label.id = some .content := by
      rw [Place.roleFrom?_self, Attributes.role?_of_isPlainContainer hplain]
      rfl
    have hspared : p.spared Attributes.isReusable := by
      rw [Place.spared, Attributes.not_isReusable_of_role? hitem, hclear]
      rfl
    have hcomes := Document.isSome_lastStart?.1 (by rw [hself]; rfl)
    obtain ⟨n, hn, hplace⟩ := hnames p hp hcomes hspared .item hitem
    obtain ⟨n', role, hn', hrole, hgiven⟩ := name_renameByRole hd hp (by rw [hitem]; rfl) hself
    obtain rfl := Option.some.inj (hcontent.symm.trans hrole)
    obtain rfl := Option.some.inj (hn.symm.trans hn')
    exact absurd (hplace.symm.trans hgiven) (by decide)
  · intro h p hp hcomes hspared role hrole
    obtain ⟨start, hstart⟩ := Option.isSome_iff_exists.1 (Document.isSome_lastStart?.2 hcomes)
    obtain ⟨n, role', hn, hrole', hgiven⟩ := name_renameByRole hd hp (by rw [hrole]; rfl) hstart
    have hsame : p.roleFrom? start = p.role? := by
      by_cases hself : start = p.label.id
      · subst hself
        cases hplain : p.label.isPlainContainer with
        | false => exact Attributes.role?_eq_role? hplain _ _
        | true =>
          have hclear : p.clear Attributes.isReusable := (Bool.and_eq_true_iff.1 hspared).2
          have hlayout : p.inAutoLayout = false :=
            Bool.eq_false_iff.2 fun hlayout => h p hp hclear hlayout hplain hstart
          rw [Place.roleFrom?_self, Place.role?, hlayout]
      · exact Place.roleFrom?_of_ne hself
    rw [hsame, hrole] at hrole'
    obtain rfl := Option.some.inj hrole'
    exact ⟨n, hn, hgiven⟩

end Editor

/-- A bar that lays out its children, among them a group with a text in it and a frame, next to a card that does not. -/
def Document.toolbar (selection : List String) : Document where
  nodes := [.branch (.bare "1:1" "Page" .page)
    [.branch { Attributes.bare "1:2" "Bar" .frame with layoutMode := some .horizontal }
      [.branch (.bare "1:3" "Left" .group) [.leaf (.bare "1:4" "Title" .text)],
       .branch (.bare "1:5" "Right" .frame) []],
     .branch (.bare "1:6" "Card" .frame) [.leaf (.bare "1:7" "Line" .line)]]]
  selection
  styles := []
  unavailableFonts := []
  images := .empty

namespace Editor

/-- The group is selected first and then the bar around it, and the text is selected last. -/
theorem namesByPlace_toolbar :
    let e := opening (.toolbar ["1:3", "1:2", "9:9", "1:6", "1:4"])
    (e.document.attributes.map Attributes.id).Nodup ∧ e.NamesByPlace ∧
      e.renameByRole.editor.document.attributes.map Attributes.name =
        ["Page", "Section", "Item", "Text", "Item", "Content", "Item"] := by
  intro e
  have hd : (e.document.attributes.map Attributes.id).Nodup := by decide
  exact ⟨hd, (namesByPlace_iff e hd).2 (by decide +kernel), by decide +kernel⟩

/-- The group is selected last, and the walk from it does not see that it is in the bar. -/
theorem not_namesByPlace_toolbar :
    let e := opening (.toolbar ["1:2", "1:3"])
    (e.document.attributes.map Attributes.id).Nodup ∧ ¬ e.NamesByPlace ∧
      e.renameByRole.editor.document.attributes.map Attributes.name =
        ["Page", "Section", "Content", "Text", "Item", "Card", "Line"] := by
  intro e
  refine ⟨by decide, fun h => ?_, by decide +kernel⟩
  obtain ⟨n, hn, hname⟩ := h
    ⟨[.bare "1:1" "Page" .page, { Attributes.bare "1:2" "Bar" .frame with layoutMode := some .horizontal }],
      .bare "1:3" "Left" .group⟩ (by decide +kernel) (by decide +kernel) (by decide) .item (by decide)
  have hgiven : (e.renameByRole.editor.document.find? "1:3").map (fun n => n.label.name) = some "Content" := by
    decide +kernel
  rw [show e.renameByRole.editor.document.find? "1:3" = some n from hn, Option.map_some, hname] at hgiven
  exact absurd hgiven (by decide)

end Editor

/-! ## Renaming again -/

theorem roleRenaming?_map (rs : List Renaming) (v : Visited Attributes) :
    roleRenaming? (v.map (Attributes.renamed rs)) = roleRenaming? v := by
  have hlast : (v.ancestors.map (Tree.map (Attributes.renamed rs))).getLast?.any (fun n => n.label.isAutoLayout) =
      v.ancestors.getLast?.any fun n => n.label.isAutoLayout := by
    rw [List.getLast?_map, Option.any_map]
    refine congrArg (fun f => v.ancestors.getLast?.any f) (funext fun n => ?_)
    show (n.map (Attributes.renamed rs)).label.isAutoLayout = n.label.isAutoLayout
    rw [Tree.label_map]
    rfl
  rw [roleRenaming?, roleRenaming?, Visited.map, hlast, Tree.id, Tree.label_map]
  rfl

namespace Document

variable {d : Document}

theorem roots_renamed (rs : List Renaming) : (d.renamed rs).roots = d.roots.map (Tree.map (Attributes.renamed rs)) :=
  roots_map (fun _ => rfl) rfl rfl

theorem renamingsByRole_renamed (rs : List Renaming) : (d.renamed rs).renamingsByRole = d.renamingsByRole := by
  have hvisited : ∀ n : Node, (n.map (Attributes.renamed rs)).visited Tree.isReusable =
      (n.visited Tree.isReusable).map (Visited.map (Attributes.renamed rs)) :=
    Tree.visited_map fun n => by rw [Tree.isReusable, Tree.label_map]; rfl
  rw [renamingsByRole, roots_renamed, List.flatMap_map, List.flatMap_congr fun n _ => hvisited n, ← List.map_flatMap,
    List.filterMap_map]
  exact List.filterMap_congr fun v _ => roleRenaming?_map rs v

end Document

namespace Editor

variable {e : Editor}

theorem answer_renameByRole (hd : (e.document.attributes.map Attributes.id).Nodup) :
    e.renameByRole.answer =
      let n := e.document.renamingsByRole.countP fun r => (e.document.find? r.id).isSome
      if e.document.roots = [] then .error .emptySelection
      else if n = 0 then .error .nothingToRename
      else .ok ⟨n, s!"{n}개의 레이어를 자동으로 네이밍했습니다."⟩ := by
  rw [renameByRole, onSelection_eq]
  split
  · rfl
  · exact answer_runRenamings hd _ _ _

/-- To rename what is selected after the roles once more answers the same and changes nothing. -/
theorem renameByRole_again (e : Editor) (hd : (e.document.attributes.map Attributes.id).Nodup) :
    let r := e.renameByRole
    let r' := r.editor.renameByRole
    r'.answer = r.answer ∧ r'.editor.document = r.editor.document := by
  intro r r'
  have hdocument : r.editor.document = e.document.renamed e.document.renamingsByRole := document_renameByRole hd
  have hd' : (r.editor.document.attributes.map Attributes.id).Nodup := by rwa [hdocument, Document.ids_renamed]
  have hplan : r.editor.document.renamingsByRole = e.document.renamingsByRole := by
    rw [hdocument, Document.renamingsByRole_renamed]
  constructor
  · have hroots : r.editor.document.roots = [] ↔ e.document.roots = [] := by
      rw [hdocument, Document.roots_renamed, List.map_eq_nil_iff]
    have hfind : ∀ id, (r.editor.document.find? id).isSome = (e.document.find? id).isSome := by
      intro id
      rw [hdocument, Document.isSome_find?_renamed]
    rw [answer_renameByRole hd', answer_renameByRole hd, hplan]
    simp only [hfind, hroots]
  · rw [document_renameByRole hd', hplan, hdocument, Document.renamed_renamed]

/-- The group and the text in it are come to from the bar and from the group itself, which sees another role. -/
theorem renameByRole_again_toolbar :
    let e := opening (.toolbar ["1:2", "1:3", "9:9", "1:3"])
    let r := e.renameByRole
    let r' := r.editor.renameByRole
    (e.document.attributes.map Attributes.id).Nodup ∧
      e.document.renamingsByRole.map Renaming.name =
        ["Section", "Item", "Text", "Item", "Content", "Text", "Content", "Text"] ∧
      r'.answer = r.answer ∧ r'.editor.document = r.editor.document := by
  have hd : ((opening (.toolbar ["1:2", "1:3", "9:9", "1:3"])).document.attributes.map Attributes.id).Nodup := by decide
  exact ⟨hd, by decide +kernel, renameByRole_again _ hd⟩

end Editor

end DesignCanvas
