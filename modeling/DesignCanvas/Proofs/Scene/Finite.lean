import DesignCanvas.Proofs.Json.Finite
import DesignCanvas.Scene.Codec

/-!
# Nodes with finite numbers

The numbers that stand in a node are all that JSON could lose of it: if they are finite, the value that the node is
written as is carried as it is (`Forest.carried_toJson`). And what is read from a finite value has finite numbers
(`Forest.yields`).
-/

namespace DesignCanvas

open Json

/-! ## The numbers of a node -/

def Color.numbers (c : Color) : List Float :=
  [c.r, c.g, c.b]

def Paint.numbers : Paint → List Float
  | .solid color opacity _ _ => opacity :: color.numbers
  | .image _ _ _ opacity => [opacity]
  | .gradientLinear | .gradientRadial | .unsupported => []

def Attributes.numbers (a : Attributes) : List Float :=
  [a.x, a.y, a.width, a.height] ++ a.opacity.toList ++ a.cornerRadius.toList ++ a.fontSize.toList
    ++ (a.fills.getD []).flatMap Paint.numbers ++ (a.strokes.getD []).flatMap Paint.numbers

/-- All numbers of a list are finite. -/
def AllFinite (xs : List Float) : Prop :=
  ∀ x ∈ xs, x.isFinite

instance (xs : List Float) : Decidable (AllFinite xs) :=
  inferInstanceAs (Decidable (∀ x ∈ xs, x.isFinite))

theorem allFinite_append {xs ys : List Float} : AllFinite (xs ++ ys) ↔ AllFinite xs ∧ AllFinite ys :=
  List.forall_mem_append

theorem allFinite_cons {x : Float} {xs : List Float} : AllFinite (x :: xs) ↔ x.isFinite ∧ AllFinite xs :=
  List.forall_mem_cons

theorem allFinite_nil : AllFinite [] :=
  nofun

theorem allFinite_flatMap {as : List α} {f : α → List Float} :
    AllFinite (as.flatMap f) ↔ ∀ a ∈ as, AllFinite (f a) := by
  simp only [AllFinite, List.mem_flatMap, forall_exists_index, and_imp]
  exact ⟨fun h a ha x hx => h x a ha hx, fun h x a ha hx => h a ha x hx⟩

theorem allFinite_toList {o : Option Float} : AllFinite o.toList ↔ ∀ x ∈ o, x.isFinite := by
  simp [AllFinite]

theorem allFinite_paints {o : Option (List Paint)} :
    AllFinite ((o.getD []).flatMap Paint.numbers) ↔ ∀ ps ∈ o, ∀ p ∈ ps, AllFinite p.numbers := by
  rw [allFinite_flatMap]
  cases o with
  | none => simp
  | some ps => simp

/-! ## Writing -/

theorem Color.carried_toJson {c : Color} (h : AllFinite c.numbers) : c.toJson.carried = c.toJson := by
  simp only [Color.numbers, allFinite_cons] at h
  obtain ⟨hr, hg, hb, -⟩ := h
  refine carried_obj ?_
  simp only [List.forall_mem_cons]
  exact ⟨carried_float hr, carried_float hg, carried_float hb, nofun⟩

theorem Paint.carried_toJson {p : Paint} (h : AllFinite p.numbers) : p.toJson.carried = p.toJson := by
  cases p with
  | solid color opacity visible token =>
    obtain ⟨hopacity, hcolor⟩ := allFinite_cons.1 h
    refine carried_obj (List.forall_mem_append.2 ⟨?_, carried_optionalMember fun _ _ => rfl⟩)
    simp only [List.forall_mem_cons]
    exact ⟨rfl, Color.carried_toJson hcolor, carried_float hopacity, rfl, nofun⟩
  | image hash mode visible opacity =>
    obtain ⟨hopacity, -⟩ := allFinite_cons.1 h
    refine carried_obj ?_
    simp only [List.forall_mem_cons]
    exact ⟨rfl, rfl, rfl, rfl, carried_float hopacity, nofun⟩
  | gradientLinear | gradientRadial | unsupported => rfl

theorem carried_paintsToJson {ps : List Paint} (h : ∀ p ∈ ps, AllFinite p.numbers) :
    (paintsToJson ps).carried = paintsToJson ps :=
  carried_arr (List.forall_mem_map.2 fun p hp => Paint.carried_toJson (h p hp))

theorem Font.carried_toJson (f : Font) : f.toJson.carried = f.toJson :=
  rfl

theorem FontName.carried_toJson (n : FontName) : n.toJson.carried = n.toJson := by
  cases n with
  | single f => rfl
  | mixed fs => exact carried_arr (List.forall_mem_map.2 fun f _ => f.carried_toJson)

theorem Attributes.carried_members {a : Attributes} (h : AllFinite a.numbers) :
    ∀ m ∈ a.members, m.2.carried = m.2 := by
  simp only [Attributes.numbers, allFinite_append, allFinite_cons, allFinite_toList, allFinite_paints] at h
  obtain ⟨⟨⟨⟨⟨⟨hx, hy, hwidth, hheight, -⟩, hopacity⟩, hradius⟩, hsize⟩, hfills⟩, hstrokes⟩ := h
  simp only [Attributes.members, List.forall_mem_append, List.forall_mem_cons]
  refine ⟨⟨⟨⟨⟨⟨⟨⟨⟨⟨⟨?_, ?_⟩, ?_⟩, ?_⟩, ?_⟩, ?_⟩, ?_⟩, ?_⟩, ?_⟩, ?_⟩, ?_⟩, ?_⟩
  · exact ⟨rfl, rfl, rfl, rfl, carried_float hx, carried_float hy, carried_float hwidth, carried_float hheight, nofun⟩
  · exact carried_optionalMember fun x hx => carried_float (hopacity x hx)
  · exact carried_optionalMember fun x hx => carried_float (hradius x hx)
  · exact carried_optionalMember fun _ _ => rfl
  · exact carried_optionalMember fun ps hps => carried_paintsToJson (hfills ps hps)
  · exact carried_optionalMember fun ps hps => carried_paintsToJson (hstrokes ps hps)
  · exact carried_optionalMember fun _ _ => rfl
  · exact carried_optionalMember fun _ _ => rfl
  · exact carried_optionalMember fun _ _ => rfl
  · exact carried_optionalMember fun n _ => n.carried_toJson
  · exact carried_optionalMember fun x hx => carried_float (hsize x hx)
  · exact carried_optionalMember fun _ _ => rfl

mutual

theorem Tree.carried_toJson : ∀ {n : Node}, (∀ a ∈ n.labels, AllFinite a.numbers) → n.toJson.carried = n.toJson
  | .leaf a, h => carried_obj (Attributes.carried_members (h a (List.mem_singleton_self a)))
  | .branch a ns, h => by
    obtain ⟨ha, hns⟩ := List.forall_mem_cons.1 h
    refine carried_obj (List.forall_mem_append.2 ⟨Attributes.carried_members ha, ?_⟩)
    exact List.forall_mem_singleton.2 (carried_arr (Forest.carried_toJson hns))

theorem Forest.carried_toJson : ∀ {ns : List Node}, (∀ a ∈ Forest.labels ns, AllFinite a.numbers) →
    ∀ v ∈ Forest.toJson ns, v.carried = v
  | [], _ => nofun
  | n :: ns, h => by
    obtain ⟨hn, hns⟩ := List.forall_mem_append.1 h
    exact List.forall_mem_cons.2 ⟨Tree.carried_toJson hn, Forest.carried_toJson hns⟩

end

/-! ## Reading -/

theorem Color.yields : Yields Color.ofJson? fun c => AllFinite c.numbers := by
  intro v c hv h
  simp only [Color.ofJson?, Option.bind_eq_bind, Option.bind_eq_some_iff, Option.pure_def, Option.some.injEq] at h
  obtain ⟨f, hf, r, hr, g, hg, b, hb, rfl⟩ := h
  have hfields := Record.finite_of_record? hv hf
  have hr := hfields.required Yields.float hr
  have hg := hfields.required Yields.float hg
  have hb := hfields.required Yields.float hb
  simp only [Color.numbers, allFinite_cons]
  exact ⟨hr, hg, hb, allFinite_nil⟩

theorem Paint.yields : Yields Paint.ofJson? fun p => AllFinite p.numbers := by
  intro v p hv h
  simp only [Paint.ofJson?, Option.bind_eq_bind, Option.bind_eq_some_iff] at h
  obtain ⟨⟨type, rest⟩, htag, h⟩ := h
  have hrest := finite_of_tagged? hv htag
  dsimp only at h
  split at h
  · simp only [solidOfJson?, Option.bind_eq_bind, Option.bind_eq_some_iff, Option.pure_def, Option.some.injEq] at h
    obtain ⟨f, hf, color, hcolor, opacity, hopacity, visible, -, token, -, rfl⟩ := h
    have hfields := Record.finite_of_record? hrest hf
    have hcolor := hfields.required Color.yields hcolor
    have hopacity := hfields.defaulted Yields.float (by decide) hopacity
    exact allFinite_cons.2 ⟨hopacity, hcolor⟩
  · split at h
    · simp only [imageOfJson?, Option.bind_eq_bind, Option.bind_eq_some_iff, Option.pure_def, Option.some.injEq] at h
      obtain ⟨f, hf, hash, -, mode, -, visible, -, opacity, hopacity, rfl⟩ := h
      have hfields := Record.finite_of_record? hrest hf
      have hopacity := hfields.defaulted Yields.float (by decide) hopacity
      exact allFinite_cons.2 ⟨hopacity, allFinite_nil⟩
    · -- a gradient and what is unsupported have no numbers
      obtain ⟨-, h⟩ := Option.ite_none_right_eq_some.1 h
      obtain rfl := Option.some.inj h
      split
      · exact allFinite_nil
      · split <;> exact allFinite_nil

theorem Attributes.allFinite_of_record {f : Record} {a : Attributes} (hf : f.Finite) (h : ofRecord? f = some a) :
    AllFinite a.numbers := by
  rw [ofRecord?] at h
  -- the fields are read in the order of the record, the id, the name, the kind and the visibility first
  iterate 4 obtain ⟨_, -, h⟩ := Option.bind_eq_some_iff.1 h
  obtain ⟨x, hx, h⟩ := Option.bind_eq_some_iff.1 h
  obtain ⟨y, hy, h⟩ := Option.bind_eq_some_iff.1 h
  obtain ⟨width, hwidth, h⟩ := Option.bind_eq_some_iff.1 h
  obtain ⟨height, hheight, h⟩ := Option.bind_eq_some_iff.1 h
  obtain ⟨opacity, hopacity, h⟩ := Option.bind_eq_some_iff.1 h
  obtain ⟨radius, hradius, h⟩ := Option.bind_eq_some_iff.1 h
  obtain ⟨_, -, h⟩ := Option.bind_eq_some_iff.1 h
  obtain ⟨fills, hfills, h⟩ := Option.bind_eq_some_iff.1 h
  obtain ⟨strokes, hstrokes, h⟩ := Option.bind_eq_some_iff.1 h
  iterate 4 obtain ⟨_, -, h⟩ := Option.bind_eq_some_iff.1 h
  obtain ⟨size, hsize, h⟩ := Option.bind_eq_some_iff.1 h
  obtain ⟨_, -, h⟩ := Option.bind_eq_some_iff.1 h
  obtain rfl := Option.some.inj h
  have hx := hf.defaulted Yields.float (by decide) hx
  have hy := hf.defaulted Yields.float (by decide) hy
  have hwidth := hf.defaulted Yields.float (by decide) hwidth
  have hheight := hf.defaulted Yields.float (by decide) hheight
  have hopacity := hf.optional Yields.float hopacity
  have hradius := hf.optional Yields.float hradius
  have hsize := hf.optional Yields.float hsize
  have hfills := hf.optional Paint.yields.list hfills
  have hstrokes := hf.optional Paint.yields.list hstrokes
  simp only [Attributes.numbers, allFinite_append, allFinite_cons, allFinite_toList, allFinite_paints]
  exact ⟨⟨⟨⟨⟨⟨hx, hy, hwidth, hheight, allFinite_nil⟩, hopacity⟩, hradius⟩, hsize⟩, hfills⟩, hstrokes⟩

theorem labels_ofChildren (a : Attributes) (ns : Option (List Node)) :
    (Tree.ofChildren a ns).labels = a :: Forest.labels (ns.getD []) := by
  cases ns <;> rfl

mutual

theorem Tree.yields : ∀ {v : Json} {n : Node}, v.finite → nodeOfJson? v = some n → ∀ a ∈ n.labels, AllFinite a.numbers
  | .obj members, n, hv, h => by
    simp only [nodeOfJson?, Option.bind_eq_bind, Option.bind_eq_some_iff, Option.pure_def, Option.some.injEq] at h
    obtain ⟨a, ⟨f, hf, ha⟩, ns, hns, rfl⟩ := h
    rw [labels_ofChildren]
    exact List.forall_mem_cons.2
      ⟨Attributes.allFinite_of_record (Record.finite_of_record? hv hf) ha, Forest.yields_members hv hns⟩
  | .arr items, n, hv, h => by
    simp only [nodeOfJson?, Option.bind_eq_bind, Option.bind_eq_some_iff, Option.pure_def, Option.some.injEq] at h
    obtain ⟨a, ⟨f, hf, ha⟩, ns, hns, rfl⟩ := h
    rw [labels_ofChildren]
    exact List.forall_mem_cons.2
      ⟨Attributes.allFinite_of_record (Record.finite_of_record? hv hf) ha, Forest.yields_fields hv hns⟩
  | .null, _, _, h | .bool _, _, _, h | .num _, _, _, h | .str _, _, _, h | .broken, _, _, h => by
    simp [nodeOfJson?] at h

theorem Forest.yields_json : ∀ {v : Json} {ns : Option (List Node)}, v.finite → childrenOfJson? v = some ns →
    ∀ a ∈ Forest.labels (ns.getD []), AllFinite a.numbers
  | .null, ns, _, h => by
    rw [childrenOfJson?] at h
    obtain rfl := Option.some.inj h
    exact List.forall_mem_nil _
  | .arr items, ns, hv, h => by
    rw [childrenOfJson?] at h
    obtain ⟨ns, hns, rfl⟩ := Option.map_eq_some_iff.1 h
    exact Forest.yields_items hv hns
  | .bool _, _, _, h | .num _, _, _, h | .str _, _, _, h | .obj _, _, _, h | .broken, _, _, h => by
    simp [childrenOfJson?] at h

theorem Forest.yields_items : ∀ {vs : List Json} {ns : List Node}, finiteItems vs → nodesOfItems? vs = some ns →
    ∀ a ∈ Forest.labels ns, AllFinite a.numbers
  | [], ns, _, h => by
    rw [nodesOfItems?] at h
    obtain rfl := Option.some.inj h
    exact List.forall_mem_nil _
  | v :: vs, ns, hv, h => by
    obtain ⟨hv, hvs⟩ := Bool.and_eq_true_iff.1 hv
    simp only [nodesOfItems?, Option.bind_eq_bind, Option.bind_eq_some_iff, Option.pure_def, Option.some.injEq] at h
    obtain ⟨n, hn, ns, hns, rfl⟩ := h
    exact List.forall_mem_append.2 ⟨Tree.yields hv hn, Forest.yields_items hvs hns⟩

theorem Forest.yields_members : ∀ {ms : List (String × Json)} {ns : Option (List Node)}, finiteMembers ms →
    childrenOfMembers? ms = some ns → ∀ a ∈ Forest.labels (ns.getD []), AllFinite a.numbers
  | [], ns, _, h => by
    rw [childrenOfMembers?] at h
    obtain rfl := Option.some.inj h
    exact List.forall_mem_nil _
  | (name, v) :: ms, ns, hv, h => by
    obtain ⟨hv, hms⟩ := Bool.and_eq_true_iff.1 hv
    rw [childrenOfMembers?] at h
    split at h
    · exact Forest.yields_json hv h
    · exact Forest.yields_members hms h

theorem Forest.yields_fields : ∀ {skip : Nat} {vs : List Json} {ns : Option (List Node)}, finiteItems vs →
    childrenOfItems? skip vs = some ns → ∀ a ∈ Forest.labels (ns.getD []), AllFinite a.numbers
  | _, [], ns, _, h => by
    rw [childrenOfItems?] at h
    obtain rfl := Option.some.inj h
    exact List.forall_mem_nil _
  | 0, v :: vs, ns, hv, h => by
    obtain ⟨hv, -⟩ := Bool.and_eq_true_iff.1 hv
    rw [childrenOfItems?] at h
    exact Forest.yields_json hv h
  | skip + 1, v :: vs, ns, hv, h => by
    obtain ⟨-, hvs⟩ := Bool.and_eq_true_iff.1 hv
    rw [childrenOfItems?] at h
    exact Forest.yields_fields hvs h

end

theorem Forest.yields : Yields nodesOfJson? fun ns => ∀ a ∈ Forest.labels ns, AllFinite a.numbers := by
  intro v ns hv h
  cases v with
  | arr items => exact Forest.yields_items hv h
  | null | bool | num | str | obj | broken => cases h

end DesignCanvas
