import DesignCanvas.Proofs.Json.Record
import DesignCanvas.Scene.Codec

/-!
# Nodes read back

Every node of every shape is read back from the value that it is written as (`Tree.readsBack`). A list of fonts is not
taken for one font, as no font stands where a font has a text; an attribute that is not written is read as missing; and
the children are found behind all attributes, whichever of them there are.
-/

namespace DesignCanvas

open Json

/-! ## Colours, paints and fonts -/

theorem Color.readsBack : ReadsBack Color.toJson Color.ofJson? :=
  fun _ => rfl

theorem ScaleMode.readsBack : ReadsBack (fun m => .str (ScaleMode.name m)) ScaleMode.ofJson? := by
  intro m
  cases m <;> rfl

theorem LayoutMode.readsBack : ReadsBack (fun m => .str (LayoutMode.name m)) LayoutMode.ofJson? := by
  intro m
  cases m <;> rfl

theorem Kind.readsBack : ReadsBack (fun k => .str (Kind.typeName k)) Kind.ofJson? := by
  intro k
  cases k <;> rfl

theorem Paint.readsBack : ReadsBack Paint.toJson Paint.ofJson? := by
  intro p
  cases p with
  | solid color opacity visible token => cases token <;> rfl
  | image hash mode visible opacity => cases mode <;> rfl
  | gradientLinear | gradientRadial | unsupported => rfl

theorem paints_readsBack : ReadsBack paintsToJson (list? Paint.ofJson?) :=
  Paint.readsBack.list

theorem Font.readsBack : ReadsBack Font.toJson Font.ofJson? :=
  fun _ => rfl

theorem soundItems_fonts (fs : List Font) : soundItems (fs.map Font.toJson) = true := by
  induction fs with
  | nil => rfl
  | cons f fs ih => exact ih

/-- A list of fonts is no font: as an array of two fields it would begin with a text. -/
theorem Font.ofJson?_list (fs : List Font) : Font.ofJson? (.arr (fs.map Font.toJson)) = none := by
  match fs with
  | [] | [_] | [_, _] => rfl
  | _ :: _ :: _ :: fs => simp [Font.ofJson?, record?]

theorem FontName.readsBack : ReadsBack FontName.toJson FontName.ofJson? := by
  intro n
  cases n with
  | single f => rfl
  | mixed fs =>
    have hlist : list? Font.ofJson? (.arr (fs.map Font.toJson)) = some fs := Font.readsBack.list fs
    have hsound : (Json.arr (fs.map Font.toJson)).sound = true := soundItems_fonts fs
    rw [FontName.toJson, FontName.ofJson?, if_pos hsound, Font.ofJson?_list, hlist]
    rfl

/-! ## Attributes -/

namespace Attributes

theorem keys_members (a : Attributes) : (a.members.map Prod.fst).Sublist nodeFields.dropLast := by
  have hoptional (name : String) {α : Type} (f : α → Json) (o : Option α) := keys_optionalMember name f o
  simp only [members, List.map_append]
  exact List.Sublist.refl _ |>.append (hoptional "opacity" _ _) |>.append (hoptional "cornerRadius" _ _)
    |>.append (hoptional "layoutMode" _ _) |>.append (hoptional "fills" _ _) |>.append (hoptional "strokes" _ _)
    |>.append (hoptional "fillStyleId" _ _) |>.append (hoptional "strokeStyleId" _ _)
    |>.append (hoptional "characters" _ _) |>.append (hoptional "fontName" _ _) |>.append (hoptional "fontSize" _ _)
    |>.append (hoptional "textStyleId" _ _)

theorem lookup_members (a : Attributes) :
    a.members.lookup "id" = some (.str a.id) ∧ a.members.lookup "name" = some (.str a.name) ∧
      a.members.lookup "type" = some (.str a.kind.typeName) ∧
      a.members.lookup "visible" = some (.bool a.visible) ∧ a.members.lookup "x" = some (.float a.x) ∧
      a.members.lookup "y" = some (.float a.y) ∧ a.members.lookup "width" = some (.float a.width) ∧
      a.members.lookup "height" = some (.float a.height) ∧ a.members.lookup "opacity" = a.opacity.map .float ∧
      a.members.lookup "cornerRadius" = a.cornerRadius.map .float ∧
      a.members.lookup "layoutMode" = a.layoutMode.map (fun m => .str m.name) ∧
      a.members.lookup "fills" = a.fills.map paintsToJson ∧ a.members.lookup "strokes" = a.strokes.map paintsToJson ∧
      a.members.lookup "fillStyleId" = a.fillStyle.map .str ∧
      a.members.lookup "strokeStyleId" = a.strokeStyle.map .str ∧
      a.members.lookup "characters" = a.characters.map .str ∧
      a.members.lookup "fontName" = a.fontName.map FontName.toJson ∧
      a.members.lookup "fontSize" = a.fontSize.map .float ∧ a.members.lookup "textStyleId" = a.textStyle.map .str := by
  simp [members, List.lookup_append, lookup_optionalMember, List.lookup_cons]

theorem ofRecord?_members (a : Attributes) {rest : List (String × Json)}
    (hrest : ∀ name ∈ nodeFields.dropLast, rest.lookup name = none) : ofRecord? ⟨a.members ++ rest⟩ = some a := by
  have hget : ∀ name ∈ nodeFields.dropLast, Record.get? ⟨a.members ++ rest⟩ name = a.members.lookup name := by
    intro name hname
    rw [Record.get?, List.lookup_append, hrest name hname, Option.or_none]
  simp only [nodeFields, List.dropLast, List.forall_mem_cons, lookup_members] at hget
  obtain ⟨id, name, kind, visible, x, y, width, height, opacity, cornerRadius, layoutMode, fills, strokes,
    fillStyle, strokeStyle, characters, fontName, fontSize, textStyle, -⟩ := hget
  simp only [ofRecord?, Record.required_eq .str id, Record.required_eq .str name,
    Record.required_eq Kind.readsBack kind, Record.defaulted_eq .bool visible, Record.defaulted_eq .float x,
    Record.defaulted_eq .float y, Record.defaulted_eq .float width, Record.defaulted_eq .float height,
    Record.optional_eq .float rfl opacity, Record.optional_eq .float rfl cornerRadius,
    Record.optional_eq LayoutMode.readsBack rfl layoutMode, Record.optional_eq paints_readsBack rfl fills,
    Record.optional_eq paints_readsBack rfl strokes, Record.optional_eq .str rfl fillStyle,
    Record.optional_eq .str rfl strokeStyle, Record.optional_eq .str rfl characters,
    Record.optional_eq FontName.readsBack rfl fontName, Record.optional_eq .float rfl fontSize,
    Record.optional_eq .str rfl textStyle, Option.bind_eq_bind, Option.bind_some, Option.pure_def]

end Attributes

/-! ## Nodes -/

theorem nodup_nodeFields : nodeFields.Nodup := by
  decide

theorem childrenOfMembers?_append {members rest : List (String × Json)} (h : "children" ∉ members.map Prod.fst) :
    childrenOfMembers? (members ++ rest) = childrenOfMembers? rest := by
  induction members with
  | nil => rfl
  | cons m members ih =>
    obtain ⟨hfirst, hrest⟩ := not_or.1 (List.mem_cons.not.1 h)
    rw [List.cons_append, childrenOfMembers?, if_neg (Ne.symm hfirst), ih hrest]

theorem nodeOfJson?_members (a : Attributes) {rest : List (String × Json)}
    (hrest : (rest.map Prod.fst).Sublist ["children"]) :
    nodeOfJson? (.obj (a.members ++ rest)) = (childrenOfMembers? rest).map (Tree.ofChildren a) := by
  have hkeys : ((a.members ++ rest).map Prod.fst).Sublist nodeFields := by
    rw [List.map_append]
    exact a.keys_members.append hrest
  have hchildren : "children" ∉ a.members.map Prod.fst := by
    intro hmem
    exact absurd (a.keys_members.subset hmem) (by decide)
  have hlookup : ∀ name ∈ nodeFields.dropLast, rest.lookup name = none := by
    intro name hname
    rw [List.lookup_eq_none_iff]
    intro m hm
    have hm : m.1 = "children" := List.mem_singleton.1 (hrest.subset (List.mem_map_of_mem hm))
    rw [hm, bne_iff_ne]
    rintro rfl
    exact absurd hname (by decide)
  rw [nodeOfJson?, record?_obj nodup_nodeFields hkeys, Option.bind_some, a.ofRecord?_members hlookup,
    childrenOfMembers?_append hchildren]
  cases childrenOfMembers? rest <;> rfl

mutual

theorem Tree.readsBack : ∀ n : Node, nodeOfJson? n.toJson = some n
  | .leaf a => by
    have hnone : (([] : List (String × Json)).map Prod.fst).Sublist ["children"] := List.nil_sublist _
    have hread := nodeOfJson?_members a hnone
    rw [List.append_nil] at hread
    exact hread
  | .branch a ns => by
    rw [Tree.toJson, nodeOfJson?_members a (List.Sublist.refl _), childrenOfMembers?, if_pos rfl, childrenOfJson?,
      Forest.readsBack ns]
    rfl

theorem Forest.readsBack : ∀ ns : List Node, nodesOfItems? (Forest.toJson ns) = some ns
  | [] => rfl
  | n :: ns => by
    rw [Forest.toJson, nodesOfItems?, Tree.readsBack n, Forest.readsBack ns]
    rfl

end

end DesignCanvas
