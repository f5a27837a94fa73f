import DesignCanvas.Json.Printer
import DesignCanvas.Proofs.Json.Record

/-!
# Finite values

JSON has no text for a double that is not finite: null stands in its place (`Json.carried`), also in what is printed
(`Json.pretty_carried`, `Json.compact_carried`). What is read from a value in which all numbers are finite has finite
numbers in turn (`Json.Yields`).
-/

namespace DesignCanvas

namespace Json

mutual

/-- A value in which all numbers are finite. -/
def finite : Json → Bool
  | .num n => n.toFloat.isFinite
  | .arr items => finiteItems items
  | .obj members => finiteMembers members
  | .null | .bool _ | .str _ | .broken => true

def finiteItems : List Json → Bool
  | [] => true
  | v :: vs => v.finite && finiteItems vs

def finiteMembers : List (String × Json) → Bool
  | [] => true
  | (_, v) :: ms => v.finite && finiteMembers ms

end

mutual

/-- The value with null for every double that is not finite. -/
def carried : Json → Json
  | .num (.float x) => if x.isFinite then .num (.float x) else .null
  | .num (.int n) => .num (.int n)
  | .arr items => .arr (carriedItems items)
  | .obj members => .obj (carriedMembers members)
  | .null => .null
  | .bool b => .bool b
  | .str s => .str s
  | .broken => .broken

def carriedItems : List Json → List Json
  | [] => []
  | v :: vs => v.carried :: carriedItems vs

def carriedMembers : List (String × Json) → List (String × Json)
  | [] => []
  | (k, v) :: ms => (k, v.carried) :: carriedMembers ms

end

theorem finite_arr {items : List Json} : (Json.arr items).finite ↔ ∀ v ∈ items, v.finite := by
  rw [finite]
  induction items with
  | nil => simp [finiteItems]
  | cons v vs ih => simp [finiteItems, ih]

theorem finite_obj {members : List (String × Json)} : (Json.obj members).finite ↔ ∀ m ∈ members, m.2.finite := by
  rw [finite]
  induction members with
  | nil => simp [finiteMembers]
  | cons m ms ih => simp [finiteMembers, ih]

theorem carried_arr {items : List Json} (h : ∀ v ∈ items, v.carried = v) : (Json.arr items).carried = .arr items := by
  rw [carried]
  congr 1
  induction items with
  | nil => rfl
  | cons v vs ih =>
    obtain ⟨hv, hvs⟩ := List.forall_mem_cons.1 h
    rw [carriedItems, hv, ih hvs]

theorem carried_obj {members : List (String × Json)} (h : ∀ m ∈ members, m.2.carried = m.2) :
    (Json.obj members).carried = .obj members := by
  rw [carried]
  congr 1
  induction members with
  | nil => rfl
  | cons m ms ih =>
    obtain ⟨hm, hms⟩ := List.forall_mem_cons.1 h
    rw [carriedMembers, hm, ih hms]

theorem carried_float {x : Float} (h : x.isFinite) : (Json.float x).carried = .float x :=
  if_pos h

theorem carried_strings (xs : List String) : (Json.strings xs).carried = .strings xs :=
  carried_arr (List.forall_mem_map.2 fun _ _ => rfl)

theorem carried_optionalMember {name : String} {f : α → Json} {o : Option α} (h : ∀ a ∈ o, (f a).carried = f a) :
    ∀ m ∈ optionalMember name f o, m.2.carried = m.2 :=
  forall_optionalMember (P := fun v => v.carried = v) h

mutual

theorem prettyAt_carried (level : Nat) : ∀ v : Json, v.carried.prettyAt level = v.prettyAt level
  | .num (.float x) => by
    rw [carried]
    split
    · rfl
    · next hx => rw [prettyAt, prettyAt, writeNumber, if_neg hx]
  | .num (.int n) => rfl
  | .arr items => by rw [carried, prettyAt, prettyAt, prettyItems_carried]
  | .obj members => by rw [carried, prettyAt, prettyAt, prettyMembers_carried]
  | .null | .bool _ | .str _ | .broken => rfl

theorem prettyItems_carried (level : Nat) : ∀ vs : List Json, prettyItems level (carriedItems vs) = prettyItems level vs
  | [] => rfl
  | v :: vs => by rw [carriedItems, prettyItems, prettyItems, prettyAt_carried level v, prettyItems_carried level vs]

theorem prettyMembers_carried (level : Nat) :
    ∀ ms : List (String × Json), prettyMembers level (carriedMembers ms) = prettyMembers level ms
  | [] => rfl
  | (k, v) :: ms => by
    rw [carriedMembers, prettyMembers, prettyMembers, prettyAt_carried level v, prettyMembers_carried level ms]

end

theorem pretty_carried (v : Json) : v.carried.pretty = v.pretty :=
  prettyAt_carried 0 v

mutual

theorem compact_carried : ∀ v : Json, v.carried.compact = v.compact
  | .num (.float x) => by
    rw [carried]
    split
    · rfl
    · next hx => rw [compact, compact, writeNumber, if_neg hx]
  | .num (.int n) => rfl
  | .arr items => by rw [carried, compact, compact, compactItems_carried]
  | .obj members => by rw [carried, compact, compact, compactMembers_carried]
  | .null | .bool _ | .str _ | .broken => rfl

theorem compactItems_carried : ∀ vs : List Json, compactItems (carriedItems vs) = compactItems vs
  | [] => rfl
  | v :: vs => by rw [carriedItems, compactItems, compactItems, compact_carried v, compactItems_carried vs]

theorem compactMembers_carried : ∀ ms : List (String × Json), compactMembers (carriedMembers ms) = compactMembers ms
  | [] => rfl
  | (k, v) :: ms => by
    rw [carriedMembers, compactMembers, compactMembers, compact_carried v, compactMembers_carried ms]

end

/-! ## Reading finite values -/

/-- What is read from finite values has a property. -/
def Yields (g : Json → Option α) (P : α → Prop) : Prop :=
  ∀ v a, v.finite → g v = some a → P a

namespace Yields

variable {g : Json → Option α} {P : α → Prop}

theorem float : Yields float? fun x => x.isFinite := by
  intro v x hv h
  cases v with
  | num n =>
    obtain rfl := Option.some.inj h
    exact hv
  | null | bool | str | arr | obj | broken => cases h

theorem list (h : Yields g P) : Yields (list? g) fun as => ∀ a ∈ as, P a := by
  intro v as hv hread
  cases v with
  | arr items =>
    rw [list?] at hread
    rw [finite_arr] at hv
    induction items generalizing as with
    | nil =>
      obtain rfl := Option.some.inj hread
      simp
    | cons v vs ih =>
      obtain ⟨hv, hvs⟩ := List.forall_mem_cons.1 hv
      rw [List.mapM_cons] at hread
      obtain ⟨a, ha, hread⟩ := Option.bind_eq_some_iff.1 hread
      obtain ⟨as', has, hread⟩ := Option.bind_eq_some_iff.1 hread
      obtain rfl := Option.some.inj hread
      exact List.forall_mem_cons.2 ⟨h v a hv ha, ih as' hvs has⟩
  | null | bool | num | str | obj | broken => cases hread

theorem nullable (h : Yields g P) : Yields (nullable? g) fun o => ∀ a ∈ o, P a := by
  intro v o hv hread
  unfold nullable? at hread
  split at hread
  · obtain rfl := Option.some.inj hread
    simp
  · obtain ⟨a, ha, rfl⟩ := Option.map_eq_some_iff.1 hread
    intro b hb
    obtain rfl := Option.some.inj hb
    exact h v a hv ha

end Yields

end Json

/-- All numbers in the fields are finite. -/
def Record.Finite (r : Record) : Prop :=
  ∀ m ∈ r.fields, m.2.finite

namespace Record

open Json

variable {r : Record} {name : String} {g : Json → Option α} {P : α → Prop} {a : α} {o : Option α}

theorem finite_of_record? {names : List String} {least : Nat} {v : Json} (hv : v.finite)
    (h : record? names least v = some r) : r.Finite := by
  cases v with
  | obj members =>
    obtain ⟨-, h⟩ := Option.ite_none_right_eq_some.1 h
    obtain rfl := Option.some.inj h
    exact finite_obj.1 hv
  | arr items =>
    obtain ⟨-, h⟩ := Option.ite_none_right_eq_some.1 h
    obtain rfl := Option.some.inj h
    exact fun m hm => finite_arr.1 hv _ (List.of_mem_zip hm).2
  | null | bool | num | str | broken => cases h

theorem Finite.get? (hr : r.Finite) {v : Json} (h : r.get? name = some v) : v.finite := by
  obtain ⟨l₁, l₂, hl, -⟩ := List.lookup_eq_some_iff.1 h
  exact hr (name, v) (by simp [hl])

theorem Finite.required (hr : r.Finite) (hg : Yields g P) (h : r.required name g = some a) : P a := by
  obtain ⟨v, hv, ha⟩ := Option.bind_eq_some_iff.1 h
  exact hg v a (hr.get? hv) ha

theorem Finite.defaulted (hr : r.Finite) (hg : Yields g P) {default : α} (hdefault : P default)
    (h : r.defaulted name g default = some a) : P a := by
  unfold Record.defaulted at h
  split at h
  · next v hv => exact hg v a (hr.get? hv) h
  · obtain rfl := Option.some.inj h
    exact hdefault

theorem Finite.optional (hr : r.Finite) (hg : Yields g P) (h : r.optional name g = some o) : ∀ a ∈ o, P a := by
  unfold Record.optional at h
  split at h
  · next v hv => exact hg.nullable v o (hr.get? hv) h
  · obtain rfl := Option.some.inj h
    simp

end Record

theorem Json.finite_of_tagged? {tag name : String} {v rest : Json} (hv : v.finite)
    (h : tagged? tag v = some (name, rest)) : rest.finite := by
  obtain ⟨-, h⟩ := Option.ite_none_right_eq_some.1 h
  cases v with
  | obj members =>
    obtain ⟨-, h⟩ := Option.ite_none_right_eq_some.1 h
    split at h
    · obtain ⟨-, rfl⟩ := Prod.mk.inj (Option.some.inj h)
      exact finite_obj.2 fun m hm => finite_obj.1 hv m (List.mem_filter.1 hm).1
    · cases h
  | arr items =>
    rw [finite_arr] at hv
    split at h
    · next hitems =>
      cases hitems
    · next hitems =>
      obtain ⟨-, rfl⟩ := Prod.mk.inj (Option.some.inj h)
      obtain rfl := Json.arr.inj hitems
      exact finite_arr.2 fun w hw => hv w (List.mem_cons_of_mem _ hw)
    · cases h
  | null | bool | num | str | broken => cases h

end DesignCanvas
