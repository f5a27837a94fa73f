import DesignCanvas.Proofs.Editor.Copying
import Mathlib.Data.Finset.Card

/-!
# Searches without a bound

A number for a copy is searched with a counter of 32 bits and a number for a style with one that has no bound, and
nothing in the two loops says when they end. They end because each name can take one number only: the first after at
most one round more than there are ids of nodes, the second after at most as many steps as there are styles
(`Editor.searches_end`). What they end with are the numbers that the editor takes.
-/

namespace DesignCanvas

/-! ## Loops -/

/-- The loop with a body runs it so many times, from one state to another. The last round leaves the loop. -/
inductive Loop {σ : Type u} (body : σ → ForInStep σ) : σ → Nat → σ → Prop
  | done {s s' : σ} (h : body s = .done s') : Loop body s 1 s'
  | yield {s s' s'' : σ} {rounds : Nat} (h : body s = .yield s') (rest : Loop body s' rounds s'') :
      Loop body s (rounds + 1) s''

namespace Loop

variable {σ : Type u} {body : σ → ForInStep σ} {s s₁ s₂ : σ} {m n : Nat}

theorem unique (h₁ : Loop body s m s₁) (h₂ : Loop body s n s₂) : m = n ∧ s₁ = s₂ := by
  induction h₁ generalizing n with
  | done h =>
    cases h₂ with
    | done h' =>
      rw [h] at h'
      cases h'
      exact ⟨rfl, rfl⟩
    | yield h' rest' =>
      rw [h] at h'
      cases h'
  | yield h rest ih =>
    cases h₂ with
    | done h' =>
      rw [h] at h'
      cases h'
    | yield h' rest' =>
      rw [h] at h'
      cases h'
      obtain ⟨rfl, rfl⟩ := ih rest'
      exact ⟨rfl, rfl⟩

theorem of_states (state : Nat → σ) (hyield : ∀ i < m, body (state i) = .yield (state (i + 1)))
    (hdone : body (state m) = .done s) : Loop body (state 0) (m + 1) s := by
  induction m generalizing state with
  | zero => exact .done hdone
  | succ m ih =>
    have hrest : Loop body (state 1) (m + 1) s :=
      ih (fun i => state (i + 1)) (fun i hi => hyield (i + 1) (Nat.succ_lt_succ hi)) hdone
    exact .yield (hyield 0 m.succ_pos) hrest

end Loop

/-! ## Rounds of the two searches -/

/-- A round of the search for the number of a copy: the counter goes up, and the search goes on if the copy would have
an id that some node has. -/
def Editor.copyRound (e : Editor) (ids : List String) (copies : UInt32) : ForInStep UInt32 :=
  let copies := copies + 1
  if e.copyTaken ids copies.toNat then .yield copies else .done copies

/-- A round of the search for the number of a style: the search goes on with the next number if some style has the
id. -/
def styleRound (styles : List Style) (number : Nat) : ForInStep Nat :=
  if styles.any fun s => s.id == styleId number then .yield (number + 1) else .done number

namespace Editor

variable {e : Editor} {ids : List String}

def nodeIds (e : Editor) : Finset String :=
  (e.document.attributes.map Attributes.id).toFinset

theorem copyNumber_le (e : Editor) (ids : List String) : e.copyNumber ids ≤ e.copies + 1 + e.nodeIds.card := by
  have htaken : ∀ n, e.copyTaken ids n →
      ∃ s ∈ (e.document.attributes.map Attributes.id).dedup, serial s = n := by
    intro n hn
    obtain ⟨s, hs, hserial⟩ := e.serial_of_copyTaken ids n hn
    exact ⟨s, List.mem_dedup.2 hs, hserial⟩
  rw [nodeIds, List.card_toFinset]
  exact firstFree_le htaken _ _

theorem styleNumber_le_length (e : Editor) :
    e.styleNumber ≤ e.document.styles.length + 1 + e.document.styles.length := by
  have hle := firstFree_le (Style.serial_of_taken e.document.styles) e.document.styles.length
    (e.document.styles.length + 1)
  rwa [List.length_map] at hle

theorem copyRound_ofNat {copies : Nat} (h : copies + 1 < UInt32.size) :
    e.copyRound ids (.ofNat copies) =
      if e.copyTaken ids (copies + 1) then .yield (.ofNat (copies + 1)) else .done (.ofNat (copies + 1)) := by
  have hnext : UInt32.ofNat copies + 1 = .ofNat (copies + 1) := (UInt32.ofNat_add copies 1).symm
  rw [copyRound, hnext, UInt32.toNat_ofNat_of_lt' h]

theorem loop_copyRound (h : e.copyNumber ids < UInt32.size) : Loop (e.copyRound ids) (.ofNat e.copies)
    (e.copyNumber ids - e.copies) (.ofNat (e.copyNumber ids)) := by
  obtain ⟨m, hm⟩ := Nat.exists_eq_add_of_lt (e.nextNumber ids).above
  have hrounds : e.copyNumber ids - e.copies = m + 1 := by omega
  rw [hrounds]
  refine Loop.of_states (fun i => UInt32.ofNat (e.copies + i)) (fun i hi => ?_) ?_
  · have hpassed : e.copies + i + 1 < e.copyNumber ids := by omega
    have htaken : e.copyTaken ids (e.copies + i + 1) := taken_of_lt_firstFree (by omega) hpassed
    rw [copyRound_ofNat (by omega), if_pos htaken]
    rfl
  · have hfree := e.copyTaken_copyNumber ids
    rw [hm] at hfree ⊢
    rw [copyRound_ofNat (by omega), hfree]
    rfl

theorem loop_styleRound (e : Editor) : Loop (styleRound e.document.styles) (e.document.styles.length + 1)
    (e.styleNumber - e.document.styles.length) e.styleNumber := by
  obtain ⟨m, hm⟩ := Nat.exists_eq_add_of_le e.free_styleNumber.1
  have hrounds : e.styleNumber - e.document.styles.length = m + 1 := by omega
  rw [hrounds]
  refine Loop.of_states (fun i => e.document.styles.length + 1 + i) (fun i hi => ?_) ?_
  · have hpassed : e.document.styles.length + 1 + i < e.styleNumber := by omega
    exact if_pos (taken_of_lt_firstFree (Nat.le_add_right _ i) hpassed)
  · have hfree : ¬ e.document.styles.any fun s => s.id == styleId e.styleNumber := by
      simpa using e.styleId_styleNumber
    rw [← hm]
    exact if_neg hfree

/-- Both searches end, with the numbers that the editor takes: the search for the number of a copy, if its counter has
room for one round more than there are ids of nodes, after that many rounds at most and with a number that makes all ids
of the copy new, the search for the number of a style after as many steps as there are styles at most and with a number
that makes the id of the style new. -/
theorem searches_end (e : Editor) :
    (∀ id n, e.document.find? id = some n → e.copies + (e.nodeIds.card + 1) < 2 ^ 32 →
      ∃ rounds ≤ e.nodeIds.card + 1, ∃ k : UInt32, Loop (e.copyRound n.ids) (.ofNat e.copies) rounds k ∧
        k.toNat = e.copies + rounds ∧ k.toNat = e.copyNumber n.ids ∧
        ∀ old ∈ n.ids, old ++ s!"-copy-{k.toNat}" ∉ e.document.attributes.map Attributes.id) ∧
    ∃ steps ≤ e.document.styles.length, ∃ number,
      Loop (styleRound e.document.styles) (e.document.styles.length + 1) (steps + 1) number ∧
        number = e.document.styles.length + 1 + steps ∧ number = e.styleNumber ∧
        ∀ s ∈ e.document.styles, s.id ≠ s!"S:{number}" := by
  constructor
  · intro id n _ hroom
    have hle := e.copyNumber_le n.ids
    obtain ⟨habove, hfresh, -⟩ := e.nextNumber n.ids
    have hsize : e.copyNumber n.ids < UInt32.size := by
      rw [UInt32.size]
      omega
    have htoNat : (UInt32.ofNat (e.copyNumber n.ids)).toNat = e.copyNumber n.ids := UInt32.toNat_ofNat_of_lt' hsize
    refine ⟨_, ?_, _, loop_copyRound hsize, ?_, htoNat, ?_⟩
    · omega
    · rw [htoNat]
      omega
    · rwa [htoNat]
  · have hle := e.styleNumber_le_length
    have habove := e.free_styleNumber.1
    refine ⟨e.styleNumber - (e.document.styles.length + 1), by omega, _, ?_, by omega, rfl, e.styleId_styleNumber⟩
    have hrounds : e.styleNumber - (e.document.styles.length + 1) + 1 = e.styleNumber - e.document.styles.length := by
      omega
    rw [hrounds]
    exact e.loop_styleRound

/-- The first round finds an id taken, the second one none. -/
theorem searches_end_numbered :
    let e := opening .numbered
    let n : Node := .branch (.bare "1:1" "Frame" .frame) [.leaf (.bare "1:2" "Shape" .rectangle)]
    e.document.find? "1:1" = some n ∧ e.copies + (e.nodeIds.card + 1) < 2 ^ 32 ∧ Loop (e.copyRound n.ids) 0 2 2 ∧
      (∀ id ∈ n.ids, id ++ s!"-copy-{2}" ∉ e.document.attributes.map Attributes.id) ∧ Loop (styleRound []) 1 1 1 := by
  intro e n
  have hn : e.document.find? "1:1" = some n := rfl
  have hroom : e.copies + (e.nodeIds.card + 1) < 2 ^ 32 := by decide
  obtain ⟨hcopy, steps, hsteps, _, hstyle, rfl, -⟩ := searches_end e
  obtain ⟨rounds, -, k, hloop, hrounds, hnumber, hfresh⟩ := hcopy "1:1" n hn hroom
  have htwo : e.copyNumber n.ids = 2 := by decide +kernel
  rw [htwo] at hnumber
  obtain rfl : k = 2 := UInt32.toNat_inj.1 hnumber
  obtain rfl : rounds = 2 := by simpa [e, opening] using hrounds.symm
  obtain rfl : steps = 0 := Nat.le_zero.1 hsteps
  exact ⟨hn, hroom, hloop, hfresh, hstyle⟩

end Editor

end DesignCanvas
