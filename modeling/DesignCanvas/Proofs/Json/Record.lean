import DesignCanvas.Json.Record
import Mathlib.Data.List.Nodup

/-!
# Records read back

What a codec has to do (`Json.ReadsBack`), and how this goes through lists and the fields of records. A record is
written with some of its names in their order, so no name comes twice and each field is found by its name.
-/

namespace DesignCanvas

open Json

/-- Reading a value that was written gives what was written. -/
def Json.ReadsBack (f : α → Json) (g : Json → Option α) : Prop :=
  ∀ a, g (f a) = some a

theorem Json.list?_map {f : α → Json} {g : Json → Option β} {k : α → β} (h : ∀ a, g (f a) = some (k a)) (as : List α) :
    list? g (.arr (as.map f)) = some (as.map k) := by
  rw [list?]
  induction as with
  | nil => rfl
  | cons a as ih => rw [List.map_cons, List.mapM_cons, h a, ih]; rfl

namespace Json.ReadsBack

theorem str : ReadsBack Json.str string? := fun _ => rfl

theorem bool : ReadsBack Json.bool bool? := fun _ => rfl

theorem float : ReadsBack Json.float float? := fun _ => rfl

theorem nat : ReadsBack Json.nat nat? := by
  intro n
  rw [Json.nat, nat?, if_pos (Int.natCast_nonneg n), Int.toNat_natCast]

variable {f : α → Json} {g : Json → Option α}

theorem list (h : ReadsBack f g) : ReadsBack (fun as => .arr (as.map f)) (list? g) := by
  intro as
  rw [list?_map h, List.map_id']

theorem strings : ReadsBack Json.strings (list? string?) :=
  str.list

theorem nullable (h : ReadsBack f g) (hnull : g .null = none) (a : α) : nullable? g (f a) = some (some a) := by
  unfold nullable?
  split
  · next hfa =>
    have hread := h a
    rw [hfa, hnull] at hread
    cases hread
  · rw [h a]
    rfl

end Json.ReadsBack

/-! ## Fields -/

namespace Record

variable {r : Record} {name : String} {f : α → Json} {g : Json → Option α} {a : α} {o : Option α}

theorem required_eq (h : ReadsBack f g) (hget : r.get? name = some (f a)) : r.required name g = some a := by
  rw [required, hget, Option.bind_some, h a]

theorem defaulted_eq {default : α} (h : ReadsBack f g) (hget : r.get? name = some (f a)) :
    r.defaulted name g default = some a := by
  rw [defaulted, hget]
  exact h a

theorem optional_eq (h : ReadsBack f g) (hnull : g .null = none) (hget : r.get? name = o.map f) :
    r.optional name g = some o := by
  rw [optional, hget]
  cases o with
  | none => rfl
  | some a => exact h.nullable hnull a

theorem optional_orNull (h : ReadsBack f g) (hnull : g .null = none) (hget : r.get? name = some (orNull f o)) :
    r.optional name g = some o := by
  rw [optional, hget]
  cases o with
  | none => rfl
  | some a => exact h.nullable hnull a

end Record

/-! ## Members -/

theorem lookup_optionalMember (name key : String) (f : α → Json) (o : Option α) :
    (optionalMember name f o).lookup key = if key = name then o.map f else none := by
  cases o with
  | none => simp [optionalMember]
  | some a =>
    rw [optionalMember, List.lookup_cons, List.lookup_nil]
    by_cases h : key = name
    · simp [h]
    · simp [h, beq_false_of_ne h]

theorem forall_optionalMember {name : String} {f : α → Json} {o : Option α} {P : Json → Prop} (h : ∀ a ∈ o, P (f a)) :
    ∀ m ∈ optionalMember name f o, P m.2 := by
  cases o with
  | none => nofun
  | some a => exact List.forall_mem_singleton.2 (h a rfl)

theorem Json.forall_orNull {f : α → Json} {o : Option α} {P : Json → Prop} (hnull : P .null) (h : ∀ a ∈ o, P (f a)) :
    P (orNull f o) := by
  cases o with
  | none => exact hnull
  | some a => exact h a rfl

theorem keys_optionalMember (name : String) (f : α → Json) (o : Option α) :
    ((optionalMember name f o).map Prod.fst).Sublist [name] := by
  cases o with
  | none => exact List.nil_sublist _
  | some a => exact List.Sublist.refl _

/-- Members with some of the names of a record, each once, are one. -/
theorem Json.record?_obj {names : List String} {least : Nat} {members : List (String × Json)}
    (hnames : names.Nodup) (hkeys : (members.map Prod.fst).Sublist names) :
    record? names least (.obj members) = some ⟨members⟩ := by
  refine if_pos (List.all_eq_true.2 fun n _ => decide_eq_true ?_)
  have hcount : (members.map Prod.fst).count n ≤ 1 := List.nodup_iff_count_le_one.1 (hkeys.nodup hnames) n
  rwa [List.count, List.countP_map] at hcount

theorem Json.tagged?_obj {tag name : String} {members : List (String × Json)} (hsound : (Json.obj members).sound)
    (htag : tag ∉ members.map Prod.fst) :
    tagged? tag (.obj ((tag, .str name) :: members)) = some (name, .obj members) := by
  have hother : ∀ m ∈ members, m.1 ≠ tag := fun m hm heq => htag (heq ▸ List.mem_map_of_mem hm)
  have honce : occurrences tag ((tag, .str name) :: members) = 1 := by
    have hnone : members.countP (fun m => m.1 == tag) = 0 := List.countP_eq_zero.2 (by simpa using hother)
    rw [occurrences, List.countP_cons_of_pos (by simp), hnone]
  have hrest : ((tag, Json.str name) :: members).filter (fun m => m.1 != tag) = members := by
    rw [List.filter_cons_of_neg (by simp), List.filter_eq_self.2 (by simpa using hother)]
  have hwhole : (Json.obj ((tag, .str name) :: members)).sound := hsound
  rw [tagged?, if_pos hwhole, if_pos honce, List.lookup_cons_self, hrest]

end DesignCanvas
