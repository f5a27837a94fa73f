import DesignCanvas.Document.Images
import Mathlib.Data.List.Induction
import Mathlib.Data.List.Nodup

/-!
# Entries of registered images

Images are the same as soon as they have the same entries (`Images.ext_entries`), and an insertion adds its entry in
the place of the one with the same fingerprint (`Images.mem_insert`). So what is registered one after another is there
in the end (`Images.mem_keys_insertAll`) and can be registered again without a change (`Images.insertAll_insertAll`).
-/

namespace DesignCanvas

theorem mem_insertEntry {key : String} {size : Nat} {es : List (String × Nat)} (h : es.Pairwise fun a b => a.1 < b.1)
    {e : String × Nat} : e ∈ insertEntry key size es ↔ e = (key, size) ∨ (e ∈ es ∧ e.1 ≠ key) := by
  induction es with
  | nil => simp [insertEntry]
  | cons d ds ih =>
    obtain ⟨hd, hds⟩ := List.pairwise_cons.1 h
    have habove : ∀ c ∈ ds, c.1 ≠ d.1 := fun c hc => (String.ne_of_lt (hd c hc)).symm
    rw [insertEntry]
    split
    · next hlt =>
      have hother : ∀ c ∈ d :: ds, c.1 ≠ key := by
        intro c hc
        rcases List.mem_cons.1 hc with rfl | hc
        · exact (String.ne_of_lt hlt).symm
        · exact (String.ne_of_lt (String.lt_trans hlt (hd c hc))).symm
      rw [List.mem_cons]
      exact or_congr_right (iff_self_and.2 (hother e))
    · split
      · next hsame =>
        subst hsame
        rw [List.mem_cons, List.mem_cons, or_and_right]
        grind
      · rw [List.mem_cons, ih hds, List.mem_cons]
        grind

namespace Images

theorem ext_entries {is is' : Images} (h : ∀ e, e ∈ is.entries ↔ e ∈ is'.entries) : is = is' := by
  obtain ⟨es, hes⟩ := is
  obtain ⟨es', hes'⟩ := is'
  have hnodup : ∀ {es : List (String × Nat)}, (es.Pairwise fun a b => a.1 < b.1) → es.Nodup :=
    fun hes => hes.imp fun hlt heq => String.ne_of_lt hlt (congrArg Prod.fst heq)
  have hperm : es.Perm es' := (List.perm_ext_iff_of_nodup (hnodup hes) (hnodup hes')).2 h
  have heq : es = es' := hperm.eq_of_pairwise (fun a b _ _ hlt hlt' => absurd hlt' (String.lt_asymm hlt)) hes hes'
  subst heq
  rfl

theorem mem_insert {is : Images} {hash : String} {size : Nat} {e : String × Nat} :
    e ∈ (is.insert hash size).entries ↔ e = (hash, size) ∨ (e ∈ is.entries ∧ e.1 ≠ hash) :=
  mem_insertEntry is.ascending

theorem mem_keys_insert {is : Images} {hash key : String} {size : Nat} :
    key ∈ (is.insert hash size).keys ↔ key = hash ∨ key ∈ is.keys := by
  simp only [keys, List.mem_map, mem_insert]
  constructor
  · rintro ⟨e, rfl | ⟨he, -⟩, rfl⟩
    · exact .inl rfl
    · exact .inr ⟨e, he, rfl⟩
  · rintro (rfl | ⟨e, he, rfl⟩)
    · exact ⟨_, .inl rfl, rfl⟩
    · by_cases hkey : e.1 = hash
      · exact ⟨_, .inl rfl, hkey.symm⟩
      · exact ⟨e, .inr ⟨he, hkey⟩, rfl⟩

/-! ## Registering one image after another -/

theorem insert_insert (is : Images) (hash : String) (size size' : Nat) :
    (is.insert hash size).insert hash size' = is.insert hash size' := by
  refine ext_entries fun e => ?_
  simp only [mem_insert]
  grind

theorem insert_comm (is : Images) {hash hash' : String} (h : hash ≠ hash') (size size' : Nat) :
    (is.insert hash size).insert hash' size' = (is.insert hash' size').insert hash size := by
  refine ext_entries fun e => ?_
  simp only [mem_insert]
  grind

/-- The images after more of them were registered one after another. -/
def insertAll (is : Images) (es : List (String × Nat)) : Images :=
  es.foldl (fun is e => is.insert e.1 e.2) is

theorem insertAll_append (is : Images) (es es' : List (String × Nat)) :
    is.insertAll (es ++ es') = (is.insertAll es).insertAll es' :=
  List.foldl_append

theorem insertAll_concat (is : Images) (es : List (String × Nat)) (e : String × Nat) :
    is.insertAll (es ++ [e]) = (is.insertAll es).insert e.1 e.2 :=
  is.insertAll_append es [e]

theorem mem_keys_insertAll {is : Images} {es : List (String × Nat)} {key : String} :
    key ∈ (is.insertAll es).keys ↔ key ∈ is.keys ∨ key ∈ es.map Prod.fst := by
  induction es generalizing is with
  | nil => simp [insertAll]
  | cons e es ih =>
    have hcons : is.insertAll (e :: es) = (is.insert e.1 e.2).insertAll es := rfl
    rw [hcons, ih, mem_keys_insert, List.map_cons, List.mem_cons, or_assoc, or_left_comm]

theorem insert_insertAll_insert (is : Images) (hash : String) (size size' : Nat) (es : List (String × Nat)) :
    ((is.insert hash size).insertAll es).insert hash size' = (is.insertAll es).insert hash size' := by
  induction es using List.reverseRecOn with
  | nil => exact is.insert_insert hash size size'
  | append_singleton es e ih =>
    rw [insertAll_concat, insertAll_concat]
    by_cases hkey : e.1 = hash
    · rw [hkey, insert_insert, insert_insert, ih]
    · rw [insert_comm _ hkey, insert_comm _ hkey, ih]

theorem insertAll_insertAll (is : Images) (es : List (String × Nat)) :
    (is.insertAll es).insertAll es = is.insertAll es := by
  induction es using List.reverseRecOn with
  | nil => rfl
  | append_singleton es e ih => rw [insertAll_concat, insertAll_concat, insert_insertAll_insert, ih]

end Images

end DesignCanvas
