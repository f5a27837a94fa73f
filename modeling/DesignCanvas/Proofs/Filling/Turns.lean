import DesignCanvas.Filling.Texts
import Mathlib.Data.List.Induction

/-!
# Turns and values

Which field a text is assigned and which value it takes can be said of the names of the texts alone: `Field.turns` and
`Field.handed`. Handing out values one after another keeps pools whose cursors and turn count what was handed out so
far (`Pools.draw_past`), so it hands out just these values (`Pools.assign_eq`).
-/

namespace DesignCanvas

theorem mapIdx_take_concat (f : List α → α → β) (l : List α) (a : α) :
    (l ++ [a]).mapIdx (fun k x => f ((l ++ [a]).take k) x) = l.mapIdx (fun k x => f (l.take k) x) ++ [f l a] := by
  rw [List.mapIdx_concat, List.take_left]
  congr 1
  refine List.ext_getElem (by simp) fun k hk hk' => ?_
  rw [List.length_mapIdx] at hk
  simp only [List.getElem_mapIdx]
  rw [List.take_append_of_le_length (by omega)]

namespace Field

variable {fields : List Field} {before : List String} {name : String}

/-- The position of the first field with a name, whatever the case of its letters. -/
def index? (fields : List Field) (name : String) : Option Nat :=
  fields.findIdx? fun f => Text.lowered f.name == Text.lowered name

/-- How many texts are named like no field. -/
def unmatched (fields : List Field) (names : List String) : Nat :=
  names.countP fun name => (index? fields name).isNone

/-- The position of the field for a text that comes after others: the first field with its name, or else the fields in
turn. -/
def turn (fields : List Field) (before : List String) (name : String) : Nat :=
  (index? fields name).getD (unmatched fields before % fields.length)

/-- The positions of the fields that texts with some names are assigned. -/
def turns (fields : List Field) (names : List String) : List Nat :=
  names.mapIdx fun k name => turn fields (names.take k) name

/-- The value for a text with the field at a position, if the texts before it have fields at some positions: the one
after those that its field gave them, again from the first one after the last. -/
def valueAt (fields : List Field) (before : List Nat) (i : Nat) : Option String :=
  fields[i]?.bind fun f => f.values[before.count i % f.values.length]?

/-- The values that texts with some names take. -/
def handed (fields : List Field) (names : List String) : List (Option String) :=
  (turns fields names).mapIdx fun k i => valueAt fields ((turns fields names).take k) i

theorem turns_concat (fields : List Field) (before : List String) (name : String) :
    turns fields (before ++ [name]) = turns fields before ++ [turn fields before name] :=
  mapIdx_take_concat (turn fields) before name

theorem handed_concat (fields : List Field) (before : List String) (name : String) :
    handed fields (before ++ [name]) =
      handed fields before ++ [valueAt fields (turns fields before) (turn fields before name)] := by
  rw [handed, turns_concat]
  exact mapIdx_take_concat (valueAt fields) (turns fields before) _

theorem handed_append (fields : List Field) (before after : List String) :
    ∃ rest, handed fields (before ++ after) = handed fields before ++ rest := by
  induction after using List.reverseRecOn with
  | nil => exact ⟨[], by rw [List.append_nil, List.append_nil]⟩
  | append_singleton after name ih =>
    obtain ⟨rest, hrest⟩ := ih
    rw [← List.append_assoc, handed_concat, hrest, List.append_assoc]
    exact ⟨_, rfl⟩

theorem exists_of_mem_handed {names : List String} {v : Option String} (hv : v ∈ handed fields names) :
    ∃ before name, v = valueAt fields (turns fields before) (turn fields before name) := by
  induction names using List.reverseRecOn with
  | nil => exact absurd hv List.not_mem_nil
  | append_singleton names name ih =>
    rw [handed_concat, List.mem_append] at hv
    exact hv.elim ih fun hlast => ⟨names, name, List.mem_singleton.1 hlast⟩

theorem length_handed (fields : List Field) (names : List String) : (handed fields names).length = names.length := by
  rw [handed, List.length_mapIdx, turns, List.length_mapIdx]

theorem turn_lt (hfields : fields ≠ []) (before : List String) (name : String) :
    turn fields before name < fields.length := by
  unfold turn
  cases hname : index? fields name with
  | none => exact Nat.mod_lt _ (List.length_pos_iff.2 hfields)
  | some i => exact (List.findIdx?_eq_some_iff_getElem.1 hname).1

/-! ## A field that has handed out values -/

/-- A field that was asked for a value so many times. -/
def past (f : Field) (n : Nat) : Field :=
  { f with cursor := if f.values = [] then 0 else n % f.values.length }

theorem past_zero (f : Field) : f.past 0 = f.reset := by
  rw [past, Nat.zero_mod, ite_self]
  rfl

theorem next_past (f : Field) (n : Nat) :
    (f.past n).next = (f.values[n % f.values.length]?, f.past (n + 1)) := by
  by_cases hvalues : f.values = []
  · simp [next, past, hvalues]
  · have hlt : n % f.values.length < f.values.length := Nat.mod_lt _ (List.length_pos_iff.2 hvalues)
    simp [next, past, hvalues, List.getElem?_eq_getElem hlt]

end Field

/-! ## Pools that have handed out values -/

namespace Pools

variable {fields : List Field} {before : List String} {name : String}

/-- The pools after texts with some names. -/
def past (fields : List Field) (before : List String) : Pools where
  fields := fields.mapIdx fun i f => f.past ((Field.turns fields before).count i)
  turn := Field.unmatched fields before

theorem past_nil (fields : List Field) : past fields [] = ofFields fields := by
  rw [past, ofFields]
  congr 1
  refine List.ext_getElem (by simp) fun i hi hi' => ?_
  simp [Field.turns, Field.past_zero]

theorem getElem?_past (i : Nat) :
    (past fields before).fields[i]? = fields[i]?.map fun f => f.past ((Field.turns fields before).count i) := by
  rw [past, List.getElem?_mapIdx]

theorem named?_past : (past fields before).named? name = Field.index? fields name := by
  have hnames : (past fields before).fields.map Field.name = fields.map Field.name := by
    refine List.ext_getElem (by simp [past]) fun i hi hi' => ?_
    simp [past, Field.past]
  have hindex : ∀ fs : List Field, (fs.findIdx? fun f => Text.lowered f.name == Text.lowered name) =
      (fs.map Field.name).findIdx? fun s => Text.lowered s == Text.lowered name := by
    intro fs
    rw [List.findIdx?_map]
    rfl
  rw [named?, Field.index?, hindex, hindex fields, hnames]

theorem choice_past : (past fields before).choice name =
    (Field.turn fields before name, Field.unmatched fields (before ++ [name])) := by
  rw [choice, named?_past]
  cases hname : Field.index? fields name <;> simp [past, Field.turn, Field.unmatched, hname]

theorem set_past {i : Nat} (hi : i < fields.length)
    (hturns : Field.turns fields (before ++ [name]) = Field.turns fields before ++ [i]) :
    (past fields before).fields.set i (fields[i].past ((Field.turns fields before).count i + 1)) =
      (past fields (before ++ [name])).fields := by
  refine List.ext_getElem? fun j => ?_
  rw [List.getElem?_set, getElem?_past, getElem?_past, hturns, List.count_append, List.count_singleton]
  by_cases hij : i = j
  · subst hij
    simp [past, hi]
  · simp [hij]

theorem draw_past (hfields : fields ≠ []) (before : List String) (name : String) :
    (past fields before).draw name =
      (Field.valueAt fields (Field.turns fields before) (Field.turn fields before name),
        past fields (before ++ [name])) := by
  have hi := Field.turn_lt hfields before name
  have hfound : (past fields before).fields[Field.turn fields before name]? =
      some ((fields[Field.turn fields before name]).past
        ((Field.turns fields before).count (Field.turn fields before name))) := by
    rw [getElem?_past, List.getElem?_eq_getElem hi, Option.map_some]
  rw [draw, choice_past]
  simp only [hfound, Field.next_past, set_past hi (Field.turns_concat fields before name)]
  rw [Field.valueAt, List.getElem?_eq_getElem hi, Option.bind_some]
  rfl

theorem assign_past (hfields : fields ≠ []) {as : List Attributes} {rest : List (Option String)}
    (hrest : Field.handed fields (before ++ as.map Attributes.name) = Field.handed fields before ++ rest) :
    (past fields before).assign as = (as.zip rest).filterMap fun p => p.2.map fun value => ⟨p.1.id, value⟩ := by
  -- each text joins those before it, which are all that the pools depend on
  induction as generalizing before rest with
  | nil => rfl
  | cons a as ih =>
    obtain ⟨rest', hafter⟩ := Field.handed_append fields (before ++ [a.name]) (as.map Attributes.name)
    have hvalue : rest = Field.valueAt fields (Field.turns fields before) (Field.turn fields before a.name) :: rest' := by
      rw [Field.handed_concat, List.append_assoc, List.append_assoc, List.singleton_append] at hafter
      exact List.append_cancel_left (hrest.symm.trans hafter)
    rw [hvalue, assign, draw_past hfields, List.zip_cons_cons, List.filterMap_cons]
    cases Field.valueAt fields (Field.turns fields before) (Field.turn fields before a.name) with
    | none => exact ih hafter
    | some value => exact congrArg (List.cons _) (ih hafter)

theorem assign_ofFields_nil (as : List Attributes) : (ofFields []).assign as = [] := by
  induction as with
  | nil => rfl
  | cons a as ih => exact ih

theorem assign_eq (fields : List Field) (as : List Attributes) :
    (ofFields fields).assign as = (as.zip (Field.handed fields (as.map Attributes.name))).filterMap fun p =>
      p.2.map fun value => ⟨p.1.id, value⟩ := by
  by_cases hfields : fields = []
  · rw [hfields, assign_ofFields_nil, eq_comm, List.filterMap_eq_nil_iff]
    intro p hp
    obtain ⟨before, name, hvalue⟩ := Field.exists_of_mem_handed (List.of_mem_zip hp).2
    rw [hvalue]
    rfl
  · rw [← past_nil]
    exact assign_past hfields rfl

end Pools

end DesignCanvas
