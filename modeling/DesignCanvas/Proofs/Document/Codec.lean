import DesignCanvas.Document.Basic
import DesignCanvas.Proofs.Scene.Codec
import DesignCanvas.Proofs.Scene.Finite

/-!
# Documents read back

A document that is written is read back: its styles, the sizes of its images, which are kept in the order of their
fingerprints, and its nodes. What can be lost is a double that is not finite, for which null is kept
(`Document.encoded`); a document without any is read back from what is kept (`Document.roundTrip`).
-/

namespace DesignCanvas

open Json

/-! ## Styles -/

namespace Style

theorem readsBack : ReadsBack Style.toJson Style.ofJson? := by
  intro s
  let f : Record := ⟨[("id", .str s.id), ("name", .str s.name), ("kind", .str s.kind.name)]
    ++ optionalMember "color" Color.toJson s.color ++ optionalMember "fontName" Font.toJson s.font
    ++ optionalMember "fontSize" .float s.fontSize⟩
  have hrecord : record? ["id", "name", "kind", "color", "fontName", "fontSize"] 3 s.toJson = some f := by
    refine record?_obj (by decide) ?_
    simp only [List.map_append]
    exact List.Sublist.refl _ |>.append (keys_optionalMember "color" _ _) |>.append (keys_optionalMember "fontName" _ _)
      |>.append (keys_optionalMember "fontSize" _ _)
  have hlookup : f.fields.lookup "id" = some (.str s.id) ∧ f.fields.lookup "name" = some (.str s.name) ∧
      f.fields.lookup "kind" = some (.str s.kind.name) ∧ f.fields.lookup "color" = s.color.map Color.toJson ∧
      f.fields.lookup "fontName" = s.font.map Font.toJson ∧ f.fields.lookup "fontSize" = s.fontSize.map .float := by
    simp [f, List.lookup_append, lookup_optionalMember, List.lookup_cons]
  have hkind : ReadsBack (fun k => .str (StyleKind.name k)) (fun v => v.choice?.bind StyleKind.ofName?) := by
    intro k
    cases k <;> rfl
  obtain ⟨id, name, kind, color, font, fontSize⟩ := hlookup
  simp only [ofJson?, hrecord, Record.required_eq .str id, Record.required_eq .str name,
    Record.required_eq hkind kind, Record.optional_eq Color.readsBack rfl color,
    Record.optional_eq Font.readsBack rfl font, Record.optional_eq .float rfl fontSize, Option.bind_eq_bind,
    Option.bind_some, Option.pure_def]

end Style

/-! ## Images -/

theorem insertEntry_last {key : String} {size : Nat} {es : List (String × Nat)} (h : ∀ e ∈ es, e.1 < key) :
    insertEntry key size es = es ++ [(key, size)] := by
  induction es with
  | nil => rfl
  | cons e es ih =>
    obtain ⟨he, hes⟩ := List.forall_mem_cons.1 h
    rw [insertEntry, if_neg (String.lt_asymm he), if_neg (String.ne_of_lt he).symm, ih hes, List.cons_append]

namespace Images

theorem foldlM_insert (is : Images) {es : List (String × Nat)} (h : (is.entries ++ es).Pairwise fun a b => a.1 < b.1) :
    (es.map fun (hash, size) => (hash, Json.nat size)).foldlM (fun is (hash, v) => v.nat?.map (is.insert hash)) is =
      some ⟨is.entries ++ es, h⟩ := by
  induction es generalizing is with
  | nil => simp
  | cons e es ih =>
    obtain ⟨hash, size⟩ := e
    have hbefore : ∀ e ∈ is.entries, e.1 < hash :=
      fun e he => (List.pairwise_append.1 h).2.2 e he (hash, size) (List.mem_cons_self ..)
    have hinsert : (is.insert hash size).entries = is.entries ++ [(hash, size)] := insertEntry_last hbefore
    have hrest : ((is.insert hash size).entries ++ es).Pairwise fun a b => a.1 < b.1 := by
      rw [hinsert, List.append_assoc]
      exact h
    have hread : (Json.nat size).nat? = some size := ReadsBack.nat size
    rw [List.map_cons, List.foldlM_cons]
    dsimp only
    rw [hread, Option.map_some]
    refine (ih _ hrest).trans ?_
    simp only [hinsert, List.append_assoc, List.singleton_append]

theorem readsBack : ReadsBack Images.toJson Images.ofJson? :=
  fun is => foldlM_insert empty is.ascending

end Images

namespace Document

theorem readsBack : ReadsBack Document.toJson Document.ofJson? := by
  intro d
  have hnodes : ReadsBack (fun ns => .arr (Forest.toJson ns)) nodesOfJson? := Forest.readsBack
  let f : Record := ⟨[("nodes", .arr (Forest.toJson d.nodes)), ("selection", .strings d.selection),
    ("styles", .arr (d.styles.map Style.toJson)), ("unavailableFonts", .strings d.unavailableFonts),
    ("images", d.images.toJson)]⟩
  have hrecord : record? ["nodes", "selection", "styles", "unavailableFonts", "images"] 1 d.toJson = some f :=
    record?_obj (by decide) (List.Sublist.refl _)
  have nodes : f.required "nodes" nodesOfJson? = some d.nodes := Record.required_eq hnodes rfl
  have selection : f.defaulted "selection" (list? string?) [] = some d.selection := Record.defaulted_eq .strings rfl
  have styles : f.defaulted "styles" (list? Style.ofJson?) [] = some d.styles :=
    Record.defaulted_eq Style.readsBack.list rfl
  have fonts : f.defaulted "unavailableFonts" (list? string?) [] = some d.unavailableFonts :=
    Record.defaulted_eq .strings rfl
  have images : f.defaulted "images" Images.ofJson? .empty = some d.images := Record.defaulted_eq Images.readsBack rfl
  simp only [ofJson?, hrecord, nodes, selection, styles, fonts, images, Option.bind_eq_bind, Option.bind_some,
    Option.pure_def]

end Document

/-! ## Finite documents -/

def Style.numbers (s : Style) : List Float :=
  ((s.color.map Color.numbers).getD []) ++ s.fontSize.toList

namespace Style

theorem allFinite_color {o : Option Color} :
    AllFinite ((o.map Color.numbers).getD []) ↔ ∀ c ∈ o, AllFinite c.numbers := by
  cases o with
  | none => simp [allFinite_nil]
  | some c => simp

theorem carried_toJson {s : Style} (h : AllFinite s.numbers) : s.toJson.carried = s.toJson := by
  obtain ⟨hcolor, hsize⟩ := allFinite_append.1 h
  rw [allFinite_color] at hcolor
  rw [allFinite_toList] at hsize
  refine carried_obj ?_
  simp only [List.forall_mem_append, List.forall_mem_cons]
  refine ⟨⟨⟨⟨rfl, rfl, rfl, nofun⟩, ?_⟩, ?_⟩, ?_⟩
  · exact carried_optionalMember fun c hc => Color.carried_toJson (hcolor c hc)
  · exact carried_optionalMember fun f _ => f.carried_toJson
  · exact carried_optionalMember fun x hx => carried_float (hsize x hx)

theorem yields : Yields Style.ofJson? fun s => AllFinite s.numbers := by
  intro v s hv h
  simp only [ofJson?, Option.bind_eq_bind, Option.bind_eq_some_iff, Option.pure_def, Option.some.injEq] at h
  obtain ⟨f, hf, id, -, name, -, kind, -, color, hcolor, font, -, fontSize, hsize, rfl⟩ := h
  have hfields := Record.finite_of_record? hv hf
  have hcolor := hfields.optional Color.yields hcolor
  have hsize := hfields.optional Yields.float hsize
  exact allFinite_append.2 ⟨allFinite_color.2 hcolor, allFinite_toList.2 hsize⟩

end Style

namespace Document

def numbers (d : Document) : List Float :=
  d.attributes.flatMap Attributes.numbers ++ d.styles.flatMap Style.numbers

def encoded (d : Document) : Json :=
  d.toJson.carried

theorem pretty_encoded (d : Document) : d.encoded.pretty = d.write :=
  pretty_carried d.toJson

theorem encoded_eq {d : Document} (h : AllFinite d.numbers) : d.encoded = d.toJson := by
  obtain ⟨hnodes, hstyles⟩ := allFinite_append.1 h
  rw [allFinite_flatMap] at hnodes hstyles
  refine carried_obj ?_
  simp only [List.forall_mem_cons]
  refine ⟨?_, carried_strings _, ?_, carried_strings _, ?_, nofun⟩
  · exact carried_arr (Forest.carried_toJson hnodes)
  · exact carried_arr (List.forall_mem_map.2 fun s hs => Style.carried_toJson (hstyles s hs))
  · exact carried_obj (List.forall_mem_map.2 fun _ _ => rfl)

theorem yields : Yields Document.ofJson? fun d => AllFinite d.numbers := by
  intro v d hv h
  simp only [ofJson?, Option.bind_eq_bind, Option.bind_eq_some_iff, Option.pure_def, Option.some.injEq] at h
  obtain ⟨f, hf, nodes, hnodes, selection, -, styles, hstyles, fonts, -, images, -, rfl⟩ := h
  have hfields := Record.finite_of_record? hv hf
  have hnodes := hfields.required Forest.yields hnodes
  have hstyles := hfields.defaulted Style.yields.list (by simp) hstyles
  exact allFinite_append.2 ⟨allFinite_flatMap.2 hnodes, allFinite_flatMap.2 hstyles⟩

/-- A document with finite numbers is read back from the value that it is kept as. So what any finite value is read as
can be kept and read over and over and stays the same, as does the value. -/
theorem roundTrip :
    (∀ d : Document, AllFinite d.numbers → ofJson? d.encoded = some d) ∧
      ∀ (v : Json) (d : Document), v.finite → ofJson? v = some d →
        ofJson? d.encoded = some d ∧ (ofJson? d.encoded).map encoded = some d.encoded := by
  have hread : ∀ d : Document, AllFinite d.numbers → ofJson? d.encoded = some d := by
    intro d hd
    rw [encoded_eq hd]
    exact readsBack d
  refine ⟨hread, fun v d hv h => ?_⟩
  have hback := hread d (yields v d hv h)
  exact ⟨hback, by rw [hback, Option.map_some]⟩

end Document

/-- A document with paints of every type, texts in one font, in several and in none, and a frame without children. -/
def Document.gallery : Document where
  nodes := [.branch { Attributes.bare "1:1" "Frame" .frame with
        x := -10.5, width := 320.0, opacity := some 0.25, cornerRadius := some 4.0, layoutMode := some .vertical
        fills := some [.solid ⟨0.1, 0.2, 1.0⟩ 0.5 false (some "brand"), .image "0a1b" .crop true 0.75, .gradientLinear,
          .gradientRadial, .unsupported]
        strokes := some [], fillStyle := some "S:1" }
      [.leaf { Attributes.bare "1:2" "One" .text with
        characters := some "a\n", fontName := some (.single ⟨"Inter", "Bold"⟩), fontSize := some 12.0 },
      .leaf { Attributes.bare "1:3" "Two" .text with
        visible := false, fontName := some (.mixed [⟨"Inter", "Bold"⟩, ⟨"Lost", "Regular"⟩]), textStyle := some "S:2" },
      .branch { Attributes.bare "1:4" "Three" .text with fontName := some (.mixed []) }
        [.branch (.bare "1:5" "Empty" .other) []]]]
  selection := ["1:1", "9:9"]
  styles := [⟨"S:1", "Brand", .paint, some ⟨0.1, 0.2, 1.0⟩, none, none⟩,
    ⟨"S:2", "Body", .text, none, some ⟨"Inter", "Bold"⟩, some 12.0⟩]
  unavailableFonts := ["Lost"]
  images := (Images.empty.insert "0a1b" 3).insert "00ff" 18446744073709551615

/-- A document in another form: with a node as an array of its first fields, and members that nothing reads. -/
def Json.sparse : Json :=
  .obj [("version", .null), ("nodes", .arr [.arr [.str "1:1", .str "A", .str "RECTANGLE"],
    .obj [("type", .str "WIDGET"), ("x", .nat 5), ("id", .str "1:2"), ("children", .null), ("name", .str "B")]])]

namespace Document

theorem roundTrip_gallery :
    ofJson? gallery.encoded = some gallery ∧ ∃ d, ofJson? Json.sparse = some d ∧ ofJson? d.encoded = some d :=
  ⟨roundTrip.1 gallery (by decide +kernel), _, rfl, (roundTrip.2 Json.sparse _ (by decide) rfl).1⟩

end Document

end DesignCanvas
