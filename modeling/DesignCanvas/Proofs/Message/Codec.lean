import DesignCanvas.Assistant.Serve
import DesignCanvas.Proofs.Json.Compact
import DesignCanvas.Proofs.Json.Record
import DesignCanvas.Proofs.Json.Trailing
import DesignCanvas.Proofs.Scene.Finite

/-!
# Messages read back

A request is written with the name of its operation as its tag and is read back, but for the positions in its fields,
which are not kept (`Request.rewound`). A response is read back from the value that it is kept as if its numbers are
finite: like for a document, null is kept for a double that is not (`messages_readBack`). As a line of text a request is
always read back. A response is if its counts fit 64 bits and its doubles are read back from their own texts, which not
every double is (`Response.parse?_line`).
-/

namespace DesignCanvas

open Json

/-! ## Requests -/

theorem Renaming.readsBack : ReadsBack Renaming.toJson Renaming.ofJson? :=
  fun _ => rfl

theorem AuditKind.readsBack : ReadsBack (fun k => .str (AuditKind.name k)) AuditKind.ofJson? := by
  intro k
  cases k <;> rfl

/-- The position of a field is not kept: it is read as it stands before its first value. -/
theorem Field.ofJson?_toJson (f : Field) : ofJson? f.toJson = some f.reset := by
  let r : Record := ⟨[("name", .str f.name), ("description", .str f.description), ("values", .strings f.values)]⟩
  have hrecord : record? ["name", "description", "values"] 3 f.toJson = some r :=
    record?_obj (by decide) (List.Sublist.refl _)
  have values : r.required "values" (list? string?) = some f.values := Record.required_eq .strings rfl
  rw [ofJson?, hrecord, Option.bind_eq_bind, Option.bind_some, values]
  rfl

theorem Field.legible_toJson (f : Field) : f.toJson.legible (depthLimit - 2) := by
  refine legible_obj.2 ⟨by decide, ?_⟩
  simp only [List.forall_mem_cons]
  exact ⟨rfl, rfl, legible_strings (by decide) f.values, nofun⟩

namespace Request

/-- The request with all fields before their first values. -/
def rewound : Request → Request
  | fillFields fields => fillFields (fields.map Field.reset)
  | r => r

theorem tag_eq (r : Request) : r.tag = r.operation := by
  cases r <;> simp only [tag, kind, operation] <;> decide +kernel

theorem toJson_eq (r : Request) : r.toJson = .obj (("type", .str r.operation) :: r.members) := by
  rw [toJson, tag_eq]

theorem legible_toJson (r : Request) : r.toJson.legible depthLimit := by
  rw [toJson, legible_obj, List.forall_mem_cons]
  refine ⟨by decide, rfl, ?_⟩
  cases r with
  | rename changes =>
    exact List.forall_mem_singleton.2 (legible_arr.2 ⟨by decide, List.forall_mem_map.2 fun _ _ => rfl⟩)
  | fillFields fields =>
    exact List.forall_mem_singleton.2 (legible_arr.2 ⟨by decide, List.forall_mem_map.2 fun f _ => f.legible_toJson⟩)
  | selectNodes ids => exact List.forall_mem_singleton.2 (legible_strings (by decide) ids)
  | _ => simp [members, legible]

theorem tagged?_toJson (r : Request) : tagged? "type" r.toJson = some (r.operation, .obj r.members) := by
  have hsound : (Json.obj (("type", .str r.tag) :: r.members)).sound := sound_of_legible r.legible_toJson
  rw [toJson_eq]
  refine tagged?_obj hsound ?_
  cases r <;> simp [members]

theorem ofField?_obj {name : String} {f : Json → Option α} {request : α → Request} {v : Json} {a : α}
    (h : f v = some a) : ofField? name f request (.obj [(name, v)]) = some (request a) := by
  have hrecord : record? [name] 1 (.obj [(name, v)]) = some ⟨[(name, v)]⟩ :=
    record?_obj (List.nodup_singleton name) (List.Sublist.refl _)
  have hfield : (⟨[(name, v)]⟩ : Record).required name f = some a := by
    rw [Record.required, Record.get?, List.lookup_cons_self, Option.bind_some, h]
  rw [ofField?, hrecord, Option.bind_eq_bind, Option.bind_some, hfield]
  rfl

theorem ofContents?_members (r : Request) : ofContents? r.operation (.obj r.members) = some r.rewound := by
  cases r with
  | command text => exact ofField?_obj rfl
  | rename changes => exact ofField?_obj (Renaming.readsBack.list changes)
  | renameSelected name => exact ofField?_obj rfl
  | fillTexts value => exact ofField?_obj rfl
  | fillFields fields => exact ofField?_obj (list?_map Field.ofJson?_toJson fields)
  | fillPictures kind => exact ofField?_obj rfl
  | countNamed name => exact ofField?_obj rfl
  | audit kind fix => cases kind <;> rfl
  | compare outline => exact ofField?_obj rfl
  | selectNode id => exact ofField?_obj rfl
  | selectNodes ids => exact ofField?_obj (ReadsBack.strings ids)
  | summary | layers | renameByRole | spelling => rfl

theorem ofJson?_toJson (r : Request) : ofJson? r.toJson = some r.rewound := by
  rw [ofJson?, tagged?_toJson, Option.bind_eq_bind, Option.bind_some]
  exact ofContents?_members r

theorem ofLine?_toJson (r : Request) : ofLine? r.toJson.compact = some r.rewound := by
  rw [ofLine?, parse?_compact r.legible_toJson, Option.bind_some, ofJson?_toJson]

end Request

/-! ## What was found out -/

theorem LayerRow.readsBack : ReadsBack LayerRow.toJson LayerRow.ofJson? :=
  fun _ => rfl

theorem NameCount.readsBack : ReadsBack NameCount.toJson NameCount.ofJson? := by
  intro c
  let f : Record := ⟨[("selectionCount", .nat c.selected), ("matchingCount", .nat c.matching)]⟩
  have hrecord : record? ["selectionCount", "matchingCount"] 2 c.toJson = some f :=
    record?_obj (by decide) (List.Sublist.refl _)
  have selected : f.required "selectionCount" nat? = some c.selected := Record.required_eq .nat rfl
  have matching : f.required "matchingCount" nat? = some c.matching := Record.required_eq .nat rfl
  simp only [ofJson?, hrecord, selected, matching, Option.bind_eq_bind, Option.bind_some, Option.pure_def]

theorem Finding.readsBack : ReadsBack Finding.toJson Finding.ofJson? := by
  rintro ⟨nodeId, name, category, detail, applied, severity⟩
  cases severity <;> rfl

namespace MatchResult

theorem readsBack : ReadsBack MatchResult.toJson MatchResult.ofJson? := by
  intro m
  let f : Record := ⟨[("status", .str m.status.name), ("label", .str m.label), ("expected", .str m.expected),
    ("actual", orNull .str m.actual), ("nodeId", orNull .str m.nodeId), ("path", orNull .str m.path),
    ("similarity", orNull .float m.similarity)]⟩
  have hrecord :
      record? ["status", "label", "expected", "actual", "nodeId", "path", "similarity"] 7 m.toJson = some f :=
    record?_obj (by decide) (List.Sublist.refl _)
  have hstatus : ReadsBack (fun s => .str (MatchStatus.name s)) (fun v => v.choice?.bind MatchStatus.ofName?) := by
    intro s
    cases s <;> rfl
  have status : f.required "status" (fun v => v.choice?.bind MatchStatus.ofName?) = some m.status :=
    Record.required_eq hstatus rfl
  have label : f.required "label" string? = some m.label := Record.required_eq .str rfl
  have expected : f.required "expected" string? = some m.expected := Record.required_eq .str rfl
  have actual : f.optional "actual" string? = some m.actual := Record.optional_orNull .str rfl rfl
  have nodeId : f.optional "nodeId" string? = some m.nodeId := Record.optional_orNull .str rfl rfl
  have path : f.optional "path" string? = some m.path := Record.optional_orNull .str rfl rfl
  have similarity : f.optional "similarity" float? = some m.similarity := Record.optional_orNull .float rfl rfl
  simp only [ofJson?, hrecord, status, label, expected, actual, nodeId, path, similarity, Option.bind_eq_bind,
    Option.bind_some, Option.pure_def]

def numbers (m : MatchResult) : List Float :=
  m.similarity.toList

theorem carried_toJson {m : MatchResult} (h : AllFinite m.numbers) : m.toJson.carried = m.toJson := by
  have htext (o : Option String) : (orNull .str o).carried = orNull .str o :=
    forall_orNull (P := fun v => v.carried = v) rfl fun _ _ => rfl
  have hsimilarity : (orNull .float m.similarity).carried = orNull .float m.similarity :=
    forall_orNull (P := fun v => v.carried = v) rfl fun x hx => carried_float (allFinite_toList.1 h x hx)
  refine carried_obj ?_
  simp only [List.forall_mem_cons]
  exact ⟨rfl, rfl, rfl, htext _, htext _, htext _, hsimilarity, nofun⟩

theorem legible_toJson {m : MatchResult} (h : ∀ x ∈ m.numbers, (Number.float x).legible) :
    m.toJson.legible (depthLimit - 3) := by
  have htext (room : Nat) (o : Option String) : (orNull .str o).legible room :=
    forall_orNull (P := fun v => v.legible room) rfl fun _ _ => rfl
  have hsimilarity (room : Nat) : (orNull .float m.similarity).legible room :=
    forall_orNull (P := fun v => v.legible room) rfl fun x hx => h x (Option.mem_toList.2 hx)
  refine legible_obj.2 ⟨by decide, ?_⟩
  simp only [List.forall_mem_cons]
  exact ⟨rfl, rfl, rfl, htext _ _, htext _ _, htext _ _, hsimilarity _, nofun⟩

end MatchResult

namespace Payload

theorem ofItems?_items (p : Payload) : ofItems? p.kind p.items = some p := by
  cases p with
  | layers rows => exact congrArg (Option.map layers) (LayerRow.readsBack.list rows)
  | count c => exact congrArg (Option.map count) (NameCount.readsBack c)
  | findings fs => exact congrArg (Option.map findings) (Finding.readsBack.list fs)
  | results rs => exact congrArg (Option.map results) (MatchResult.readsBack.list rs)
  | texts ts => exact congrArg (Option.map texts) (ReadsBack.strings ts)

theorem readsBack : ReadsBack Payload.toJson Payload.ofJson? := by
  intro p
  let f : Record := ⟨[("kind", .str p.kind), ("items", p.items)]⟩
  have hrecord : record? ["kind", "items"] 2 p.toJson = some f := record?_obj (by decide) (List.Sublist.refl _)
  have kind : f.required "kind" choice? = some p.kind := rfl
  have items : f.get? "items" = some p.items := rfl
  have hfirst : nameFirst f = true := rfl
  simp only [ofJson?, hrecord, kind, items, hfirst, Bool.true_or, if_true, ofItems?_items, Option.bind_eq_bind,
    Option.bind_some]

/-- The numbers in what was found out, apart from counts. -/
def numbers : Payload → List Float
  | results rs => rs.flatMap MatchResult.numbers
  | layers _ | count _ | findings _ | texts _ => []

theorem carried_items {p : Payload} (h : AllFinite p.numbers) : p.items.carried = p.items := by
  cases p with
  | results rs =>
    rw [numbers, allFinite_flatMap] at h
    exact carried_arr (List.forall_mem_map.2 fun m hm => MatchResult.carried_toJson (h m hm))
  | layers rows => exact carried_arr (List.forall_mem_map.2 fun _ _ => rfl)
  | findings fs => exact carried_arr (List.forall_mem_map.2 fun _ _ => rfl)
  | count c => rfl
  | texts ts => exact carried_strings ts

theorem carried_toJson {p : Payload} (h : AllFinite p.numbers) : p.toJson.carried = p.toJson := by
  refine carried_obj ?_
  simp only [List.forall_mem_cons]
  exact ⟨rfl, carried_items h, nofun⟩

def counts : Payload → List Nat
  | count c => [c.selected, c.matching]
  | layers _ | findings _ | results _ | texts _ => []

theorem legible_items {p : Payload} (hcounts : ∀ n ∈ p.counts, n < significandLimit)
    (hnumbers : ∀ x ∈ p.numbers, (Number.float x).legible) : p.items.legible (depthLimit - 2) := by
  cases p with
  | results rs =>
    refine legible_arr.2 ⟨by decide, List.forall_mem_map.2 fun m hm => MatchResult.legible_toJson fun x hx => ?_⟩
    exact hnumbers x (List.mem_flatMap.2 ⟨m, hm, hx⟩)
  | count c =>
    simp only [counts, List.forall_mem_cons] at hcounts
    obtain ⟨hselected, hmatching, -⟩ := hcounts
    refine legible_obj.2 ⟨by decide, ?_⟩
    simp only [List.forall_mem_cons]
    exact ⟨Number.legible_nat hselected, Number.legible_nat hmatching, nofun⟩
  | layers rows => exact legible_arr.2 ⟨by decide, List.forall_mem_map.2 fun _ _ => rfl⟩
  | findings fs => exact legible_arr.2 ⟨by decide, List.forall_mem_map.2 fun _ _ => rfl⟩
  | texts ts => exact legible_strings (by decide) ts

theorem legible_toJson {p : Payload} (hcounts : ∀ n ∈ p.counts, n < significandLimit)
    (hnumbers : ∀ x ∈ p.numbers, (Number.float x).legible) : p.toJson.legible (depthLimit - 1) := by
  refine legible_obj.2 ⟨by decide, ?_⟩
  simp only [List.forall_mem_cons]
  exact ⟨rfl, legible_items hcounts hnumbers, nofun⟩

end Payload

/-! ## Responses -/

namespace Response

theorem readsBack : ReadsBack Response.toJson Response.ofJson? := by
  intro r
  let f : Record := ⟨[("operation", .str r.operation), ("status", .str r.status.name), ("message", .str r.message)]
    ++ optionalMember "changed" .nat r.changed ++ optionalMember "data" Payload.toJson r.data⟩
  have hrecord : record? ["operation", "status", "message", "changed", "data"] 3 r.toJson = some f := by
    refine record?_obj (by decide) ?_
    simp only [List.map_append]
    exact List.Sublist.refl _ |>.append (keys_optionalMember "changed" _ _) |>.append (keys_optionalMember "data" _ _)
  have hlookup : f.fields.lookup "operation" = some (.str r.operation) ∧
      f.fields.lookup "status" = some (.str r.status.name) ∧ f.fields.lookup "message" = some (.str r.message) ∧
      f.fields.lookup "changed" = r.changed.map .nat ∧ f.fields.lookup "data" = r.data.map Payload.toJson := by
    simp [f, List.lookup_append, lookup_optionalMember, List.lookup_cons]
  have hstatus : ReadsBack (fun s => .str (Status.name s)) (fun v => v.choice?.bind Status.ofName?) := by
    intro s
    cases s <;> rfl
  obtain ⟨operation, status, message, changed, data⟩ := hlookup
  simp only [ofJson?, hrecord, Record.required_eq .str operation, Record.required_eq hstatus status,
    Record.required_eq .str message, Record.optional_eq .nat rfl changed,
    Record.optional_eq Payload.readsBack rfl data, Option.bind_eq_bind, Option.bind_some, Option.pure_def]

def numbers (r : Response) : List Float :=
  (r.data.map Payload.numbers).getD []

/-- The value that a response is kept as. -/
def encoded (r : Response) : Json :=
  r.toJson.carried

/-- The line of a response is the text of the value that the response is kept as. -/
theorem line_eq (r : Response) : r.line = r.encoded.compact ++ "\n" := by
  rw [line, encoded, compact_carried]

theorem encoded_eq {r : Response} (h : AllFinite r.numbers) : r.encoded = r.toJson := by
  refine carried_obj ?_
  simp only [List.forall_mem_append, List.forall_mem_cons]
  refine ⟨⟨⟨rfl, rfl, rfl, nofun⟩, carried_optionalMember fun _ _ => rfl⟩, carried_optionalMember fun p hp => ?_⟩
  rw [numbers, Option.mem_def.1 hp] at h
  exact Payload.carried_toJson h

def counts (r : Response) : List Nat :=
  r.changed.toList ++ (r.data.map Payload.counts).getD []

theorem legible_toJson {r : Response} (hcounts : ∀ n ∈ r.counts, n < significandLimit)
    (hnumbers : ∀ x ∈ r.numbers, (Number.float x).legible) : r.toJson.legible depthLimit := by
  obtain ⟨hchanged, hfound⟩ := List.forall_mem_append.1 hcounts
  refine legible_obj.2 ⟨by decide, ?_⟩
  simp only [List.forall_mem_append, List.forall_mem_cons]
  refine ⟨⟨⟨rfl, rfl, rfl, nofun⟩, forall_optionalMember (P := fun v => v.legible _) fun n hn => ?_⟩,
    forall_optionalMember (P := fun v => v.legible _) fun p hp => ?_⟩
  · exact Number.legible_nat (hchanged n (Option.mem_toList.2 hn))
  · rw [Option.mem_def.1 hp] at hfound
    rw [numbers, Option.mem_def.1 hp] at hnumbers
    exact Payload.legible_toJson hfound hnumbers

theorem parse?_line {r : Response} (hcounts : ∀ n ∈ r.counts, n < significandLimit)
    (hnumbers : ∀ x ∈ r.numbers, (Number.float x).legible) : (parse? r.line).bind ofJson? = some r := by
  have hline : parse? r.line = parse? r.toJson.compact := parse?_blank (c := '\n') (by decide) _
  rw [hline, parse?_compact (legible_toJson hcounts hnumbers), Option.bind_some, readsBack r]

-- a double near ten elevenths: its digits are rounded twice when they are read, which leads to the next double
example : (Number.float 0.9090909090909091).legible = false := by decide +kernel

end Response

/-- A request is written with the name of its operation as its tag, and it is read back with all fields before their
first values, both from its value and from its text. A response with finite numbers is read back from its value, and
also from its text if its counts fit 64 bits and each double in it is read back from its digits. -/
theorem messages_readBack :
    (∀ r : Request, r.toJson = .obj (("type", .str r.operation) :: r.members) ∧
      Request.ofJson? r.toJson = some r.rewound ∧ Request.ofLine? r.toJson.compact = some r.rewound) ∧
      ∀ r : Response, AllFinite r.numbers → Response.ofJson? r.encoded = some r ∧
        ((∀ n ∈ r.counts, n < significandLimit) → (∀ x ∈ r.numbers, (Number.float x).legible) →
          (parse? r.line).bind Response.ofJson? = some r) := by
  refine ⟨fun r => ⟨r.toJson_eq, r.ofJson?_toJson, r.ofLine?_toJson⟩, fun r h => ⟨?_, Response.parse?_line⟩⟩
  rw [Response.encoded_eq h]
  exact Response.readsBack r

/-- A response with a result of each status, one of them without a text that was claimed. -/
def Response.comparison : Response where
  operation := "compare-with-notion"
  status := .success
  message := "일치 1개, 불일치 1개, 누락 1개"
  changed := some 0
  data := some (.results [
    ⟨.matched, "내용", "Home", some "Home", some "1:2", some "Frame", some 1.0⟩,
    ⟨.mismatched, "버튼", "Confirm", some "Conform", some "1:3", some "Frame/\"Bar\"\n", some 0.8571428571428571⟩,
    ⟨.missing, "내용", "Help", none, none, none, none⟩])

theorem messages_readBack_comparison :
    AllFinite Response.comparison.numbers ∧
      Response.ofJson? Response.comparison.encoded = some Response.comparison ∧
      (parse? Response.comparison.line).bind Response.ofJson? = some Response.comparison := by
  have hfinite : AllFinite Response.comparison.numbers := by decide +kernel
  obtain ⟨hvalue, htext⟩ := messages_readBack.2 Response.comparison hfinite
  exact ⟨hfinite, hvalue, htext (by decide +kernel) (by decide +kernel)⟩

/-- A response with the similarity of two texts that have ten of eleven characters in common. -/
def Response.elevenths : Response where
  operation := "compare-with-notion"
  status := .success
  message := ""
  changed := none
  data := some (.results [
    ⟨.mismatched, "내용", "Backgrounds", some "Background", some "1:2", some "Frame", some 0.9090909090909091⟩])

/-- The digits of the double are rounded twice when they are read, which leads to the next one. -/
theorem not_readBack_elevenths :
    AllFinite Response.elevenths.numbers ∧
      (parse? Response.elevenths.line).bind Response.ofJson? ≠ some Response.elevenths := by
  refine ⟨by decide +kernel, ?_⟩
  decide +kernel

end DesignCanvas
