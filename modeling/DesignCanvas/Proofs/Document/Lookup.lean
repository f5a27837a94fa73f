import DesignCanvas.Proofs.Editor.Removal
import DesignCanvas.Proofs.Tree.Occurrence

/-!
# Operations by id at the node that is found

Looking up and changing go down into a node before they go on to its siblings, removing and inserting look at all
siblings before they go down. Looking up and changing come to one node even where ids repeat, and where they are
distinct all four do (`Forest.acts_where_found`).
-/

namespace DesignCanvas

namespace Forest

/-- A node is changed if and only if one is found, at the place where it is found, and no other entry of the list of
all nodes becomes another. If ids are distinct it is removed from there as well, with what is below it, which stands
behind it in the list, and other nodes are put behind it there. -/
theorem acts_where_found (ns : List Node) (id : String) :
    (∀ f, modify? (Attributes.hasId id) f ns = none ↔ find? (Attributes.hasId id) ns = none) ∧
    ∀ n, find? (Attributes.hasId id) ns = some n → ∃ path before after,
      FirstAt (Attributes.hasId id) ns path n ∧ labels ns = before ++ n.labels ++ after ∧
      (∀ f, ∃ us, modify? (Attributes.hasId id) f ns = some us ∧ us = replaceAt [n.relabel (f n.label)] path ns ∧
        labels us = before ++ f n.label :: n.labels.tail ++ after) ∧
      ((ids ns).Nodup →
        (∀ a ∈ before ++ n.labels.tail ++ after, a.id ≠ id) ∧
        (∃ us, remove? (Attributes.hasId id) ns = some us ∧ us = replaceAt [] path ns ∧ labels us = before ++ after) ∧
        ∀ new, insertAfter? (Attributes.hasId id) new ns = some (replaceAt [n, new] path ns)) := by
  refine ⟨fun f => modify?_eq_none.trans find?_eq_none.symm, fun n hn => ?_⟩
  obtain ⟨path, hlocated⟩ := located_of_find? hn
  obtain ⟨before, after, hlabels, hreplaced⟩ := labels_replaceAt hlocated.at_path
  refine ⟨path, before, after, hlocated.toFirstAt, hlabels, fun f => ⟨_, hlocated.modify f, rfl, ?_⟩, fun hd => ?_⟩
  · rw [hreplaced, labels, labels, List.append_nil, Tree.labels_relabel]
  · have hid : id ∈ ids ns := id_of_find? hn ▸ ids_find? hn n.id_mem_ids
    have hcount := countP_hasId hd hid
    refine ⟨?_, ⟨_, ?_, rfl, ?_⟩, fun new => ?_⟩
    · have hothers : (before ++ n.labels.tail ++ after).countP (Attributes.hasId id) = 0 := by
        rw [hlabels, Tree.labels_eq_cons n] at hcount
        simp only [List.countP_append, List.countP_cons_of_pos hlocated.holds] at hcount ⊢
        omega
      exact fun a ha hid => List.countP_eq_zero.1 hothers a ha (beq_iff_eq.2 hid)
    · rw [remove?_eq_prune hcount, hlocated.prune hcount]
    · rw [hreplaced, labels, List.append_nil]
    · rw [insertAfter?_eq_graft hcount, hlocated.graft hcount]

/-- A card with an icon and a badge on it, and something beside the card. -/
def badges (beside : String) : List Node :=
  [.branch (.bare "1:1" "Card" .frame) [.leaf (.bare "1:2" "Icon" .ellipse),
      .branch (.bare "1:3" "Badge" .frame) [.leaf (.bare "1:4" "Count" .text)]],
    .leaf (.bare beside "Beside" .rectangle)]

/-- The badge is changed where it is found, and removed from there with its count. -/
theorem acts_where_found_badges :
    let ns := badges "1:5"
    let n : Node := .branch (.bare "1:3" "Badge" .frame) [.leaf (.bare "1:4" "Count" .text)]
    find? (Attributes.hasId "1:3") ns = some n ∧ (ids ns).Nodup ∧ ∃ path before after,
      FirstAt (Attributes.hasId "1:3") ns path n ∧ labels ns = before ++ n.labels ++ after ∧
      modify? (Attributes.hasId "1:3") (fun a => { a with name := "Mark" }) ns =
        some (replaceAt [n.relabel (.bare "1:3" "Mark" .frame)] path ns) ∧
      ∃ us, remove? (Attributes.hasId "1:3") ns = some us ∧ ids us = ["1:1", "1:2", "1:5"] ∧
        labels us = before ++ after := by
  intro ns n
  have hn : find? (Attributes.hasId "1:3") ns = some n := rfl
  have hd : (ids ns).Nodup := by decide
  obtain ⟨path, before, after, hfirst, hlabels, hmodify, hdistinct⟩ := (acts_where_found ns "1:3").2 n hn
  obtain ⟨_, hchanged, rfl, -⟩ := hmodify fun a => { a with name := "Mark" }
  obtain ⟨-, ⟨us, hremoved, -, hus⟩, -⟩ := hdistinct hd
  have hids : (remove? (Attributes.hasId "1:3") ns).map ids = some ["1:1", "1:2", "1:5"] := by decide
  rw [hremoved] at hids
  exact ⟨hn, hd, path, before, after, hfirst, hlabels, hchanged, us, hremoved, Option.some.inj hids, hus⟩

-- Where ids repeat, the badge on the card is changed and what is beside the card is removed.
example : (modify? (Attributes.hasId "1:3") (fun a => { a with name := "Mark" }) (badges "1:3")).map
      (fun us => (labels us).map Attributes.name) = some ["Card", "Icon", "Mark", "Count", "Beside"] ∧
    (remove? (Attributes.hasId "1:3") (badges "1:3")).map ids = some ["1:1", "1:2", "1:3", "1:4"] := by
  decide

end Forest

end DesignCanvas
