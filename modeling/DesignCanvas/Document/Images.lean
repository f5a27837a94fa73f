import DesignCanvas.Json.Record

/-!
# Registered images

The images that a document knows: their fingerprints with their sizes in bytes, in ascending order, each
fingerprint once.
-/

namespace DesignCanvas

open Json

/-- Puts an entry in its place among ascending ones, instead of an entry with the same key. -/
def insertEntry (key : String) (size : Nat) : List (String × Nat) → List (String × Nat)
  | [] => [(key, size)]
  | e :: es =>
    if key < e.1 then (key, size) :: e :: es
    else if key = e.1 then (key, size) :: es
    else e :: insertEntry key size es

theorem key_of_mem_insertEntry {key : String} {size : Nat} {es : List (String × Nat)} {e : String × Nat}
    (h : e ∈ insertEntry key size es) : e.1 = key ∨ e ∈ es := by
  induction es with
  | nil => simp [insertEntry] at h; simp [h]
  | cons d ds ih =>
    simp only [insertEntry] at h
    split at h
    · simp only [List.mem_cons] at h ⊢
      rcases h with rfl | h
      · exact Or.inl rfl
      · exact Or.inr h
    · split at h
      · simp only [List.mem_cons] at h ⊢
        rcases h with rfl | h
        · exact Or.inl rfl
        · exact Or.inr (Or.inr h)
      · simp only [List.mem_cons] at h ⊢
        rcases h with rfl | h
        · exact Or.inr (Or.inl rfl)
        · rcases ih h with h | h
          · exact Or.inl h
          · exact Or.inr (Or.inr h)

theorem ascending_insertEntry (key : String) (size : Nat) {es : List (String × Nat)}
    (h : es.Pairwise fun a b => a.1 < b.1) :
    (insertEntry key size es).Pairwise fun a b => a.1 < b.1 := by
  induction es with
  | nil => simp [insertEntry]
  | cons d ds ih =>
    obtain ⟨hd, hds⟩ := List.pairwise_cons.1 h
    simp only [insertEntry]
    split
    · next hlt =>
      refine List.pairwise_cons.2 ⟨fun e he => ?_, h⟩
      rcases List.mem_cons.1 he with rfl | he
      · exact hlt
      · exact String.lt_trans hlt (hd e he)
    · next hnlt =>
      split
      · next heq =>
        refine List.pairwise_cons.2 ⟨fun e he => ?_, hds⟩
        rw [heq]
        exact hd e he
      · next hne =>
        refine List.pairwise_cons.2 ⟨fun e he => ?_, ih hds⟩
        rcases key_of_mem_insertEntry he with hk | hm
        · rw [hk]
          exact Decidable.byContradiction fun hlt =>
            hne (String.le_antisymm (String.not_lt.1 hlt) (String.not_lt.1 hnlt))
        · exact hd e hm

/-- The registered images of a document. -/
structure Images where
  entries : List (String × Nat)
  ascending : entries.Pairwise fun a b => a.1 < b.1
  deriving Repr

namespace Images

def empty : Images :=
  ⟨[], List.Pairwise.nil⟩

instance : Inhabited Images := ⟨empty⟩

/-- Registers an image under its fingerprint, in the place of an earlier one with the same. -/
def insert (is : Images) (hash : String) (size : Nat) : Images :=
  ⟨insertEntry hash size is.entries, ascending_insertEntry hash size is.ascending⟩

def keys (is : Images) : List String :=
  is.entries.map Prod.fst

/-- The images as an object of sizes. -/
def toJson (is : Images) : Json :=
  .obj (is.entries.map fun (hash, size) => (hash, .nat size))

/-- Reads images; of several with the same fingerprint the last one counts. -/
def ofJson? : Json → Option Images
  | .obj members => members.foldlM (fun is (hash, v) => v.nat?.map (is.insert hash)) empty
  | _ => none

end Images

end DesignCanvas
