import DesignCanvas.Proofs.Outline.Similarity
import DesignCanvas.Proofs.Text.Lower

/-!
# The laws of similarity

Two texts are as alike as they are the other way round, and as their lower cases are. A text is four fifths like itself
and like any part of it, also where that is empty; so texts neither of which is part of the other have characters, and
the share that they have in common is that of a set in a larger one, which is not empty (`Score.similarity_laws`).
-/

namespace DesignCanvas

namespace Score

/-- Apart from letter case, one of two texts has the other one in it. -/
def Nested (a b : String) : Prop :=
  Text.lower a.toList <:+: Text.lower b.toList ∨ Text.lower b.toList <:+: Text.lower a.toList

instance (a b : String) : Decidable (Nested a b) :=
  inferInstanceAs (Decidable (_ ∨ _))

/-- The characters of a text in lower case. -/
def letters (a : String) : Finset Char :=
  (Text.lower a.toList).toFinset

theorem nested_comm (a b : String) : Nested a b ↔ Nested b a :=
  Or.comm

theorem shared_eq (s t : List Char) :
    shared s t = ⟨(s.toFinset ∩ t.toFinset).card, (s.toFinset ∪ t.toFinset).card⟩ := by
  rw [← shared_num, ← shared_den]

theorem similarity_eq (a b : String) : similarity a b =
    if Nested a b then containment else ⟨(letters a ∩ letters b).card, (letters a ∪ letters b).card⟩ := by
  rw [similarity, ofLowered_eq, shared_eq]
  rfl

theorem similarity_comm (a b : String) : similarity a b = similarity b a := by
  rw [similarity_eq, similarity_eq, Finset.inter_comm, Finset.union_comm]
  exact ite_congr (propext (nested_comm a b)) (fun _ => rfl) fun _ => rfl

theorem similarity_lowered (a b : String) : similarity (Text.lowered a) b = similarity a b := by
  rw [similarity, Text.lowered, String.toList_ofList, Text.lower_lower, similarity]

theorem similarity_of_nested {a b : String} (h : Nested a b) : similarity a b = containment := by
  rw [similarity_eq, if_pos h]

theorem letters_nonempty {a b : String} (h : ¬ Nested a b) : (letters a).Nonempty := by
  have hne : Text.lower a.toList ≠ [] := fun hnil => h (Or.inl (hnil ▸ List.nil_infix))
  obtain ⟨c, hc⟩ := List.exists_mem_of_ne_nil _ hne
  exact ⟨c, List.mem_toFinset.2 hc⟩

theorem containment_toFloat : containment.toFloat = 0.8 := by
  decide +kernel

/-- Similarity is symmetric and goes by the lower case of the texts. It is four fifths for texts of which one is part of
the other, as each text is of itself, and the share of the common characters in all of them otherwise. -/
theorem similarity_laws (a b : String) :
    similarity a b = similarity b a ∧
      similarity (Text.lowered a) b = similarity a b ∧ Text.lowered (Text.lowered a) = Text.lowered a ∧
      similarity a a = containment ∧ containment.toFloat = 0.8 ∧ (Nested a b → similarity a b = containment) ∧
      (¬ Nested a b → similarity a b = ⟨(letters a ∩ letters b).card, (letters a ∪ letters b).card⟩ ∧
        (letters a ∪ letters b).card ≠ 0 ∧ (letters a ∩ letters b).card ≤ (letters a ∪ letters b).card) := by
  refine ⟨similarity_comm a b, similarity_lowered a b, Text.lowered_lowered a,
    similarity_of_nested (Or.inl List.infix_rfl), containment_toFloat, similarity_of_nested, fun h => ⟨?_, ?_, ?_⟩⟩
  · rw [similarity_eq, if_neg h]
  · have hunion : (letters a ∪ letters b).Nonempty := (letters_nonempty h).mono Finset.subset_union_left
    exact hunion.card_ne_zero
  · exact Finset.card_le_card (Finset.inter_subset_left.trans Finset.subset_union_left)

/-- Two words with a capital sigma, which ends only the first one, and a letter whose lower case is two characters. -/
theorem similarity_laws_sigma :
    Nested "İ" "xi̇" ∧ similarity "İ" "xi̇" = ⟨4, 5⟩ ∧
      Text.lowered "ΟΔΟΣ" = "οδος" ∧ ¬ Nested "ΟΔΟΣ" "ΣΟΔΑ" ∧ similarity "ΟΔΟΣ" "ΣΟΔΑ" = ⟨2, 5⟩ := by
  have hnested : Nested "İ" "xi̇" := by decide
  have hapart : ¬ Nested "ΟΔΟΣ" "ΣΟΔΑ" := by decide
  obtain ⟨-, -, -, -, -, hcontained, -⟩ := similarity_laws "İ" "xi̇"
  obtain ⟨-, -, -, -, -, -, hshare⟩ := similarity_laws "ΟΔΟΣ" "ΣΟΔΑ"
  refine ⟨hnested, hcontained hnested, by decide, hapart, (hshare hapart).1.trans (by decide)⟩

end Score

end DesignCanvas
