import DesignCanvas.Proofs.Audit.Mending
import Mathlib.Data.List.Dedup

/-!
# The paint styles that fixes add

A fix of a paint makes a style just if no paint style has its colour, and no other fix makes a style. So a run of fixes
makes one style for each colour that was missing, however often the colour is asked for (`Editor.fixAll_supplied`).
-/

namespace DesignCanvas

def Style.hex? (s : Style) : Option String :=
  s.paintColor?.map Color.toHex

def Fix.color? : Fix → Option Color
  | .paint _ c => some c
  | .text .. => none

def Document.hexes (d : Document) : List String :=
  d.styles.filterMap Style.hex?

theorem Style.hasColor_iff {s : Style} {c : Color} : s.hasColor c ↔ s.hex? = some c.toHex := by
  unfold hasColor hex? paintColor?
  rw [Bool.and_eq_true, beq_iff_eq, Option.any_eq_true]
  split
  · next hkind => simp [hkind, Color.same_iff]
  · next hkind => simp [hkind]

theorem Document.mem_hexes {d : Document} {c : Color} : c.toHex ∈ d.hexes ↔ ∃ s ∈ d.styles, s.hasColor c := by
  rw [hexes, List.mem_filterMap]
  exact exists_congr fun s => and_congr_right fun _ => Style.hasColor_iff.symm

/-- Paint styles were added, one for each of the wanted colours that there was none for. -/
def Document.Supplied (d d' : Document) (wanted : List String) : Prop :=
  ∃ (added : List Style) (hexes : List String), d'.styles = d.styles ++ added ∧
    added.map Style.hex? = hexes.map some ∧ hexes.Nodup ∧ ∀ h, h ∈ hexes ↔ h ∈ wanted ∧ h ∉ d.hexes

namespace Document.Supplied

variable {d d₁ d₂ : Document} {wanted wanted' : List String}

theorem of_styles_eq (h : d₁.styles = d.styles) (hwanted : wanted ⊆ d.hexes) : d.Supplied d₁ wanted := by
  refine ⟨[], [], by rw [h, List.append_nil], rfl, List.nodup_nil, fun x => ?_⟩
  exact iff_of_false List.not_mem_nil fun hx => hx.2 (hwanted hx.1)

theorem trans (h : d.Supplied d₁ wanted) (h' : d₁.Supplied d₂ wanted') : d.Supplied d₂ (wanted ++ wanted') := by
  obtain ⟨added, hexes, hstyles, hadded, hnodup, hmem⟩ := h
  obtain ⟨added', hexes', hstyles', hadded', hnodup', hmem'⟩ := h'
  -- what the first fixes added is no longer missing for those that follow
  have hknown : ∀ x, x ∈ d₁.hexes ↔ x ∈ d.hexes ∨ x ∈ hexes := by
    intro x
    have hx : x ∈ added.filterMap Style.hex? ↔ some x ∈ added.map Style.hex? := by simp
    rw [Document.hexes, hstyles, List.filterMap_append, List.mem_append, hx, hadded]
    simp [Document.hexes]
  refine ⟨added ++ added', hexes ++ hexes', ?_, ?_, ?_, fun x => ?_⟩
  · rw [hstyles', hstyles, List.append_assoc]
  · rw [List.map_append, List.map_append, hadded, hadded']
  · refine List.nodup_append'.2 ⟨hnodup, hnodup', fun x hx hx' => ?_⟩
    exact ((hmem' x).1 hx').2 ((hknown x).2 (.inr hx))
  · rw [List.mem_append, List.mem_append, hmem', hknown, hmem]
    tauto

theorem length_eq (h : d.Supplied d₁ wanted) :
    d₁.styles.length = d.styles.length + (wanted.filter (· ∉ d.hexes)).dedup.length := by
  obtain ⟨added, hexes, hstyles, hadded, hnodup, hmem⟩ := h
  have hlength : added.length = hexes.length := by
    rw [← List.length_map Style.hex?, hadded, List.length_map]
  have hperm : hexes.Perm (wanted.filter (· ∉ d.hexes)).dedup := by
    refine (List.perm_ext_iff_of_nodup hnodup (List.nodup_dedup _)).2 fun x => ?_
    simp [hmem]
  rw [hstyles, List.length_append, hlength, hperm.length_eq]

end Document.Supplied

namespace Editor

theorem paintStyleFor_supplied (e : Editor) (c : Color) :
    e.document.Supplied (e.paintStyleFor c).1.document [c.toHex] := by
  unfold paintStyleFor
  split
  · next s hs =>
    have hmem := Document.mem_hexes.2 ⟨s, List.mem_of_find?_eq_some hs, List.find?_some hs⟩
    exact .of_styles_eq rfl (List.cons_subset.2 ⟨hmem, List.nil_subset _⟩)
  · next hnone =>
    have hmem : c.toHex ∉ e.document.hexes := fun h => by
      obtain ⟨s, hs, hcolor⟩ := Document.mem_hexes.1 h
      exact List.find?_eq_none.1 hnone s hs hcolor
    refine ⟨[_], [c.toHex], rfl, rfl, List.nodup_singleton _, fun x => ?_⟩
    rw [List.mem_singleton, iff_self_and]
    rintro rfl
    exact hmem

theorem fix_supplied (e : Editor) (id : String) (f : Fix) :
    e.document.Supplied (e.fix id f).editor.document (f.color?.toList.map Color.toHex) := by
  cases f with
  | paint slot c =>
    rw [Document.Supplied, styles_fix_paint]
    exact e.paintStyleFor_supplied c
  | text family size => exact .of_styles_eq (e.styles_fix_text id family size) (List.nil_subset _)

/-- Fixes add one style for each colour that they ask for and that there is no paint style for. -/
theorem fixAll_supplied (e : Editor) (plan : List (String × Fix)) :
    e.document.Supplied (e.fixAll plan).document ((plan.filterMap fun p => p.2.color?).map Color.toHex) := by
  induction plan generalizing e with
  | nil => exact .of_styles_eq rfl (List.nil_subset _)
  | cons p plan ih =>
    have hwanted : ((p :: plan).filterMap fun p => p.2.color?).map Color.toHex =
        p.2.color?.toList.map Color.toHex ++ (plan.filterMap fun p => p.2.color?).map Color.toHex := by
      cases hcolor : p.2.color? <;> simp [hcolor]
    rw [hwanted]
    exact (e.fix_supplied p.1 p.2).trans (ih _)

end Editor

end DesignCanvas
