import DesignCanvas.Proofs.Document.Addressing
import DesignCanvas.Proofs.Outline.Greedy
import DesignCanvas.Proofs.Text.Reading

/-!
# Layers that are claimed

Every text of the design is claimed at most once, but a text below several selected nodes is there several times. So no
layer is claimed twice, whatever the outline, just if no text is below two selected nodes (`Document.claimsOnce_iff`):
an outline that names one character of the text often enough claims all texts with this character
(`Outline.exists_repeated`).
-/

namespace DesignCanvas

/-- No comparison with an outline claims a layer twice. -/
def Document.ClaimsOnce (d : Document) : Prop :=
  ∀ outline defaultLabel results, d.compare outline defaultLabel = .ok results →
    (results.filterMap MatchResult.nodeId).Nodup

/-! ## Claimed layers -/

theorem MatchResult.nodeId_ofClaim (i : OutlineItem) (c : Claim) :
    (ofClaim i c).nodeId = c.placed?.map fun t => t.1.nodeId := by
  cases c <;> rfl

section Reconcile

variable (items : List OutlineItem) (records : List TextRecord)

theorem nodeIds_reconcile :
    (reconcile items records).filterMap MatchResult.nodeId =
      ((Claim.ofItems items records).filterMap Claim.placed?).map fun t => t.1.nodeId := by
  have hlength : items.length = (Claim.ofItems items records).length := (Claim.length_ofItems items records).symm
  rw [reconcile]
  generalize Claim.ofItems items records = cs at hlength
  induction items generalizing cs with
  | nil => rw [List.length_eq_zero_iff.1 hlength.symm]; rfl
  | cons i is ih =>
    obtain ⟨c, cs, rfl⟩ := List.exists_cons_of_length_eq_add_one hlength.symm
    rw [List.zipWith_cons_cons, List.filterMap_cons, List.filterMap_cons, MatchResult.nodeId_ofClaim,
      ih cs (by simpa using hlength)]
    cases c.placed? <;> rfl

theorem nodup_nodeIds (h : (records.map TextRecord.nodeId).Nodup) :
    ((reconcile items records).filterMap MatchResult.nodeId).Nodup := by
  obtain ⟨ts, hperm, hsub⟩ := Claim.subperm_ofItems items records
  have hids : (records.zipIdx.map fun t => t.1.nodeId) = records.map TextRecord.nodeId := by
    have hmap := congrArg (List.map TextRecord.nodeId) (List.zipIdx_map_fst 0 records)
    rwa [List.map_map] at hmap
  rw [← hids] at h
  rw [nodeIds_reconcile]
  exact (hperm.map _).nodup_iff.1 (h.sublist (hsub.map _))

theorem mem_placed_of_alike {s : String} (hitems : ∀ i ∈ items, i.text = s) (hlength : items.length = records.length)
    {t : Placed} (ht : t ∈ records.zipIdx) (halike : 3 / 10 < likeness s t.1.text) :
    t ∈ (Claim.ofItems items records).filterMap Claim.placed? := by
  by_contra hfree
  -- no item is missing, since the text is left for it
  have hclaimed : ∀ c ∈ Claim.ofItems items records, c.placed?.isSome := by
    intro c hc
    obtain ⟨p, hp⟩ := List.mem_iff_getElem?.1 hc
    have hlt : p < items.length := by
      rw [← Claim.length_ofItems items records]
      exact (List.getElem?_eq_some_iff.1 hp).1
    have hi := List.getElem?_eq_getElem hlt
    cases c with
    | equal u => rfl
    | similar u score => rfl
    | missing =>
      have hchoice := Claim.getElem?_ofItems items records hi hp rfl
      have hle := Claim.choice_eq_missing.1 hchoice.symm t (Claim.mem_unclaimed records ht hfree p)
      rw [Claim.alike, hitems _ (List.getElem_mem hlt)] at hle
      exact absurd halike (not_lt.2 hle)
  have hcount : ((Claim.ofItems items records).filterMap Claim.placed?).length = records.zipIdx.length := by
    rw [List.length_filterMap_eq_countP, List.countP_eq_length.2 hclaimed, Claim.length_ofItems, hlength,
      List.length_zipIdx]
  have hperm := (Claim.subperm_ofItems items records).perm_of_length_le hcount.ge
  exact hfree (hperm.mem_iff.2 ht)

end Reconcile

/-! ## Outlines with one text -/

namespace Outline

theorem exists_line {u : Char} (hu : ¬ Text.isBlank u) :
    ∃ line : List Char, ('\n' ∉ line ∧ line.getLast? ≠ some '\r') ∧
      ∀ defaultLabel, ∃ i, itemsOfLine defaultLabel line = [i] ∧ i.text = String.ofList [u] := by
  have hblank : Text.isBlank u = false := by simpa using hu
  by_cases hcomma : u = ','
  · subst hcomma
    exact ⟨[','], by decide, fun defaultLabel => ⟨_, rfl, rfl⟩⟩
  · have hx : Text.isBlank 'x' = false := by decide
    have hline : u ≠ '\n' ∧ u ≠ '\r' := by
      constructor <;> rintro rfl <;> exact hu (by decide)
    refine ⟨['x', ':', u], ⟨by simp [hline.1.symm], by simp [hline.2]⟩, fun defaultLabel => ?_⟩
    have htrim : Text.trim ['x', ':', u] = ['x', ':', u] := by
      simp [Text.trim, Text.trimStart, Text.trimEnd, hblank, hx]
    have hcontent : content ['x', ':', u] = ['x', ':', u] := by
      have hheading : dropHeading ['x', ':', u] = ['x', ':', u] := by
        simp [dropHeading]
      have hbullet : dropBullet ['x', ':', u] = ['x', ':', u] := by
        simp [dropBullet, bullets]
      rw [content, htrim, hheading, hbullet, htrim]
    have hvalues : values [u] = [[u]] := by
      simp [values, Text.splitAt, Text.consFirst, hcomma, Text.trim, Text.trimStart, Text.trimEnd, hblank]
    have hsplit : Text.splitFirst? ':' ['x', ':', u] = some (['x'], [u]) := rfl
    refine ⟨⟨"x", String.ofList [u], String.ofList ['x', ':', u]⟩, ?_, rfl⟩
    rw [itemsOfLine, hcontent, htrim]
    simp only [hsplit, hvalues]
    rfl

theorem exists_repeated {text : String} (htext : isWritten text) :
    ∃ s, 3 / 10 < likeness s text ∧ ∀ (defaultLabel : String) (n : Nat), ∃ outline,
      (items defaultLabel outline).length = n ∧ ∀ i ∈ items defaultLabel outline, i.text = s := by
  obtain ⟨u, hblank, hinfix⟩ := Text.exists_lower_infix (s := text.toList) (by simpa [isWritten] using htext)
  obtain ⟨line, hline, hitem⟩ := exists_line hblank
  refine ⟨String.ofList [u], ?_, fun defaultLabel n => ?_⟩
  · rw [likeness, String.toList_ofList, if_pos (Or.inl hinfix)]
    norm_num
  · obtain ⟨i, hi, htext⟩ := hitem defaultLabel
    -- the same line again and again
    have hlines := Text.lines_flatMap (List.replicate n line) fun l hl => List.eq_of_mem_replicate hl ▸ hline
    have hitems : items defaultLabel (String.ofList ((List.replicate n line).flatMap (· ++ ['\n']))) =
        List.replicate n i := by
      rw [items, String.toList_ofList, hlines, List.flatMap_def, List.map_replicate, hi]
      exact List.flatten_replicate_singleton
    refine ⟨String.ofList ((List.replicate n line).flatMap (· ++ ['\n'])), ?_, ?_⟩
    · rw [hitems, List.length_replicate]
    · intro j hj
      rw [hitems] at hj
      rw [List.eq_of_mem_replicate hj, htext]

end Outline

/-! ## Layers of a document -/

namespace Document

variable {d : Document} {outline defaultLabel : String}

theorem mem_textRecords {r : TextRecord} (hr : r ∈ d.textRecords) :
    ∃ a ∈ d.attributes, a.id = r.nodeId ∧ a.text = r.text ∧ isWritten r.text := by
  obtain ⟨root, hroot, hr⟩ := List.mem_flatMap.1 hr
  obtain ⟨v, hv, hvr⟩ := List.mem_filterMap.1 hr
  have hreached : v.tree ∈ root.reached Tree.isText := List.mem_map_of_mem hv
  unfold TextRecord.ofVisited? at hvr
  dsimp only at hvr
  split at hvr
  · next h =>
    obtain rfl := Option.some.inj hvr
    exact ⟨v.tree.label, mem_attributes_of_reached hroot hreached, rfl, rfl, (Bool.and_eq_true_iff.1 h).2⟩
  · cases hvr

theorem compare_eq (hroots : d.roots ≠ []) (outline defaultLabel : String) :
    d.compare outline defaultLabel = if Outline.items defaultLabel outline = [] then .error .nothingToCompare
      else .ok (reconcile (Outline.items defaultLabel outline) d.textRecords) := by
  rw [compare, selectedNodes]
  cases hd : d.roots with
  | nil => exact absurd hd hroots
  | cons n ns => cases Outline.items defaultLabel outline <;> rfl

theorem eq_reconcile_of_compare {results : List MatchResult} (h : d.compare outline defaultLabel = .ok results) :
    results = reconcile (Outline.items defaultLabel outline) d.textRecords := by
  by_cases hroots : d.roots = []
  · rw [compare, selectedNodes, hroots] at h
    cases h
  · rw [compare_eq hroots] at h
    split at h
    · cases h
    · exact (Except.ok.inj h).symm

/-- No layer is claimed twice, whatever the outline, just if no text is below two selected nodes. -/
theorem claimsOnce_iff (hd : (d.attributes.map Attributes.id).Nodup) :
    d.ClaimsOnce ↔ (d.textRecords.map TextRecord.nodeId).Nodup := by
  constructor
  · intro h
    rw [List.Nodup, List.pairwise_map, List.pairwise_iff_getElem]
    intro j k hj hk hjk hid
    obtain ⟨a, ha, haid, hatext, hwritten⟩ := mem_textRecords (List.getElem_mem hj)
    obtain ⟨b, hb, hbid, hbtext, -⟩ := mem_textRecords (List.getElem_mem hk)
    obtain rfl : a = b := eq_of_id hd ha hb (haid.trans (hid.trans hbid.symm))
    obtain ⟨s, halike, houtline⟩ := Outline.exists_repeated hwritten
    obtain ⟨outline, hlength, hitems⟩ := houtline Outline.defaultLabel d.textRecords.length
    have hroots : d.roots ≠ [] := by
      intro hnil
      simp [textRecords, hnil] at hj
    have hsome : Outline.items Outline.defaultLabel outline ≠ [] := by
      intro hnil
      rw [hnil] at hlength
      simp [← hlength] at hj
    have hnodup := h outline Outline.defaultLabel _ ((compare_eq hroots _ _).trans (if_neg hsome))
    rw [nodeIds_reconcile] at hnodup
    -- both places of the layer are claimed
    have hfirst := mem_placed_of_alike _ d.textRecords hitems hlength
      (List.mem_zipIdx_iff_getElem?.2 (List.getElem?_eq_getElem hj) : (_, j) ∈ _) halike
    have hsecond := mem_placed_of_alike _ d.textRecords hitems hlength
      (List.mem_zipIdx_iff_getElem?.2 (List.getElem?_eq_getElem hk) : (_, k) ∈ _) (by rwa [← hbtext, hatext])
    have hsame := List.inj_on_of_nodup_map hnodup hfirst hsecond hid
    exact absurd (Prod.mk.inj hsame).2 hjk.ne
  · intro h outline defaultLabel results hresults
    rw [eq_reconcile_of_compare hresults]
    exact nodup_nodeIds _ _ h

end Document

/-- A frame with a text; the frame is selected, with the text or without it. -/
def Document.poster (selection : List String) : Document where
  nodes := [.branch (.bare "1:1" "Frame" .frame)
    [.leaf { Attributes.bare "1:2" "Title" .text with characters := some "ab" }]]
  selection
  styles := []
  unavailableFonts := []
  images := .empty

namespace Document

theorem claimsOnce_poster :
    ((poster ["1:1"]).attributes.map Attributes.id).Nodup ∧ (poster ["1:1"]).ClaimsOnce :=
  ⟨by decide, (claimsOnce_iff (d := poster ["1:1"]) (by decide)).2 (by decide)⟩

/-- A text that is selected together with the frame around it is matched with two items of an outline. -/
theorem not_claimsOnce_poster :
    let d := poster ["1:1", "1:2"]
    (d.attributes.map Attributes.id).Nodup ∧ ¬ d.ClaimsOnce ∧
      (d.compare "ab\nab" Outline.defaultLabel).toOption.map (List.map fun r => (r.status, r.nodeId)) =
        some [(.matched, some "1:2"), (.matched, some "1:2")] := by
  intro d
  have htwice : (d.compare "ab\nab" Outline.defaultLabel).toOption.map (List.map fun r => (r.status, r.nodeId)) =
      some [(.matched, some "1:2"), (.matched, some "1:2")] := by decide +kernel
  refine ⟨by decide, fun h => ?_, htwice⟩
  cases hcompare : d.compare "ab\nab" Outline.defaultLabel with
  | error refusal =>
    rw [hcompare] at htwice
    cases htwice
  | ok results =>
    have hnodup := h _ _ results hcompare
    rw [hcompare] at htwice
    have hids := congrArg (List.filterMap Prod.snd) (Option.some.inj htwice)
    rw [List.filterMap_map] at hids
    rw [show results.filterMap MatchResult.nodeId = ["1:2", "1:2"] from hids] at hnodup
    exact absurd hnodup (by decide)

end Document

end DesignCanvas
