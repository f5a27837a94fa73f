import DesignCanvas.Proofs.Command.Captures

/-!
# Numbers keep their value

A rule that reads numbers gives them the value that they are written with, or refuses a value that does not fit, just if
they are written in plain digits or their value makes no difference (`keepsNumbers_iff`). The patterns of the rules take
the digits of all scripts, but only plain ones are read: with another digit a small number is refused as too large, and
a small percentage becomes a full one (`not_keepsNumbers_fullWidth`).
-/

namespace DesignCanvas.Command

open Text (IsRun IsSigned IsPlain value signedValue)

variable {p : Phrase} {rule : Rule} {reading : Reading} {run rest : List Char} {runs : List (List Char)}

/-- The rules that read numbers. -/
def Rule.numeric : List Rule :=
  [width, height, opacity, fontSize, move, cornerRadius]

/-- The value of a run, if it is below the limit. -/
def fitting? (run : List Char) : Option Nat :=
  if value run < numberLimit then some (value run) else none

/-- The intent that carries the numbers with the values that they are written with, if they fit. -/
def Rule.intended? : Rule → List (List Char) → Option Intent
  | width, [run] => (fitting? run).map .resizeWidth
  | height, [run] => (fitting? run).map .resizeHeight
  | cornerRadius, [run] => (fitting? run).map .setCornerRadius
  | fontSize, [run] => (fitting? run).map .setFontSize
  | opacity, [run] => some (.setOpacity (min (value run) 100))
  | move, [dx, dy] =>
    if (-offsetLimit ≤ signedValue dx ∧ signedValue dx < offsetLimit) ∧
        -offsetLimit ≤ signedValue dy ∧ signedValue dy < offsetLimit then
      some (.move (signedValue dx) (signedValue dy))
    else none
  | _, _ => none

/-- A reading has the numbers that were captured, or refuses the command if they do not fit. -/
def Carries (rule : Rule) (runs : List (List Char)) (reading : Reading) : Prop :=
  match rule.intended? runs with
  | some intent => reading = .ok intent
  | none => ∃ fault, reading = .error fault

/-- The values make no difference: they do not fit anyway, or the percentage is full anyway. -/
def Beyond : Rule → List (List Char) → Prop
  | .opacity, [run] => 100 ≤ value run
  | rule, runs => rule.intended? runs = none

/-- A command that a rule for numbers decides has one list of numbers for this rule, unless it is refused for having
none, and is read with their values. -/
structure KeepsNumbers (input : String) : Prop where
  captured : ∀ rule ∈ Rule.numeric, ∀ reading, read input = answer rule reading → reading ≠ .error .noFontSize →
    ∃! runs, Captures (.of input) rule runs
  carried : ∀ rule reading runs, read input = answer rule reading → Captures (.of input) rule runs →
    Carries rule runs reading

/-! ## What is captured -/

theorem exists_captures (hrule : rule ∈ Rule.numeric) (hread : rule.read p = some reading)
    (hsize : reading ≠ .error .noFontSize) : ∃ runs, Captures p rule runs := by
  cases hmeasure : rule.measure? with
  | some m =>
    obtain ⟨words, intent⟩ := m
    rw [(read_measure hmeasure).1] at hread
    obtain ⟨run, hrun, -⟩ := Option.map_eq_some_iff.1 hread
    exact ⟨[run], .measure hmeasure ((measure_iff hmeasure).1 hrun)⟩
  | none =>
    cases rule with
    | opacity =>
      obtain ⟨-, hread⟩ := Option.ite_none_right_eq_some.1 hread
      obtain ⟨run, hrun, -⟩ := Option.map_eq_some_iff.1 hread
      exact ⟨[run], .opacity (opacity_iff.1 hrun)⟩
    | fontSize =>
      simp only [Rule.read, readFontSize] at hread
      split at hread
      · next run hrun => exact ⟨[run], .fontSize (fontSize_iff.1 hrun)⟩
      · next hnone =>
        obtain ⟨-, hread⟩ := Option.ite_none_right_eq_some.1 hread
        split at hread
        · next run rest hrun =>
          refine ⟨[run], .anywhere (fun run hfound => ?_) (anywhere_iff.1 hrun)⟩
          rw [fontSize_iff.2 hfound] at hnone
          cases hnone
        · exact absurd (Option.some.inj hread).symm hsize
    | move =>
      obtain ⟨⟨dx, dy⟩, hrun, -⟩ := Option.map_eq_some_iff.1 hread
      exact ⟨[dx, dy], .move (move_iff.1 hrun)⟩
    | width | height | cornerRadius => cases hmeasure
    | _ => exact absurd hrule (by decide)

/-! ## What is read -/

theorem number_eq (hrun : IsRun run rest) : number run =
    if IsPlain run ∧ value run < numberLimit then .ok (value run)
    else .error (.numberTooLarge (String.ofList run)) := by
  by_cases hplain : IsPlain run
  · simp [number, Text.plainNat?_eq_some hrun hplain, hplain]
  · simp [number, Text.plainNat?_eq_none hplain, hplain]

theorem offset_eq (hrun : IsSigned run rest) : offset run =
    if IsPlain run ∧ -offsetLimit ≤ signedValue run ∧ signedValue run < offsetLimit then .ok (signedValue run)
    else .error (.offsetTooLarge (String.ofList run)) := by
  by_cases hplain : IsPlain run
  · simp [offset, Text.plainInt?_eq_some hrun hplain, hplain]
  · simp [offset, Text.plainInt?_eq_none hrun hplain, hplain]

theorem percent_eq (hrun : IsRun run rest) : percent run = if IsPlain run then min (value run) 100 else 100 := by
  by_cases hplain : IsPlain run
  · simp [percent, Text.plainNat?_eq_some hrun hplain, hplain, Nat.min_comm]
  · simp [percent, Text.plainNat?_eq_none hplain, hplain]

theorem carries_number (hrun : IsRun run rest) (intent : Nat → Intent)
    (hrule : rule.intended? [run] = (fitting? run).map intent) :
    Carries rule [run] ((number run).map intent) ↔ IsPlain run ∨ rule.intended? [run] = none := by
  rw [Carries, hrule, number_eq hrun, fitting?]
  by_cases hfits : value run < numberLimit <;> by_cases hplain : IsPlain run <;>
    simp [hfits, hplain, Except.map]

theorem carries_opacity (hrun : IsRun run rest) :
    Carries .opacity [run] (.ok (.setOpacity (percent run))) ↔ IsPlain run ∨ Beyond .opacity [run] := by
  rw [percent_eq hrun]
  by_cases hplain : IsPlain run
  · simp [Carries, Rule.intended?, hplain]
  · simp only [Carries, Rule.intended?, Beyond, hplain, if_false, Except.ok.injEq, Intent.setOpacity.injEq, false_or]
    omega

theorem carries_move {dx dy rest' : List Char} (hdx : IsSigned dx rest) (hdy : IsSigned dy rest') :
    Carries .move [dx, dy] (do return .move (← offset dx) (← offset dy)) ↔
      (IsPlain dx ∧ IsPlain dy) ∨ Rule.intended? .move [dx, dy] = none := by
  simp only [Carries, Rule.intended?, offset_eq hdx, offset_eq hdy]
  by_cases hx : -offsetLimit ≤ signedValue dx ∧ signedValue dx < offsetLimit <;>
    by_cases hy : -offsetLimit ≤ signedValue dy ∧ signedValue dy < offsetLimit <;>
    by_cases hplain : IsPlain dx <;> by_cases hplain' : IsPlain dy <;>
    simp [hx, hy, hplain, hplain', bind, Except.bind, pure, Except.pure]

/-- Captured numbers are carried just if they are plain or make no difference. -/
theorem carries_iff (hread : rule.read p = some reading) (hruns : Captures p rule runs) :
    Carries rule runs reading ↔ (∀ run ∈ runs, IsPlain run) ∨ Beyond rule runs := by
  cases hruns with
  | @measure rule words intent run hmeasure hrun =>
    obtain ⟨t, hplace⟩ := hrun.exists_place
    obtain ⟨rest, hisRun⟩ := hplace.isRun
    rw [(read_measure hmeasure).1, readNumber, (measure_iff hmeasure).2 hrun] at hread
    obtain rfl := Option.some.inj hread
    rw [List.forall_mem_singleton]
    cases rule with
    | width | height | cornerRadius =>
      obtain ⟨-, rfl⟩ := Prod.mk.inj (Option.some.inj hmeasure)
      exact carries_number hisRun _ rfl
    | _ => cases hmeasure
  | @opacity run hrun =>
    obtain ⟨t, hplace⟩ := hrun.exists_place
    obtain ⟨-, hread⟩ := Option.ite_none_right_eq_some.1 hread
    rw [opacity_iff.2 hrun] at hread
    obtain rfl := Option.some.inj hread
    rw [List.forall_mem_singleton]
    exact carries_opacity hplace.isRun
  | @fontSize run hrun =>
    obtain ⟨t, hplace⟩ := hrun.exists_place
    obtain ⟨rest, hisRun⟩ := hplace.isRun
    rw [Rule.read, readFontSize, fontSize_iff.2 hrun] at hread
    obtain rfl := Option.some.inj hread
    rw [List.forall_mem_singleton]
    exact carries_number hisRun _ rfl
  | @anywhere run rest hnone hrun =>
    obtain ⟨t, -, hisRun⟩ := hrun.exists_place
    -- the rule falls back to a number anywhere only where the first pattern finds none
    have hsize : Text.firstMatch fontSizeAfter? p.lower = none := by
      rw [Option.eq_none_iff_forall_ne_some]
      exact fun run hfound => hnone run (fontSize_iff.1 hfound)
    rw [Rule.read, readFontSize, hsize] at hread
    obtain ⟨-, hread⟩ := Option.ite_none_right_eq_some.1 hread
    rw [anywhere_iff.2 hrun] at hread
    obtain rfl := Option.some.inj hread
    rw [List.forall_mem_singleton]
    exact carries_number hisRun _ rfl
  | @move dx dy hrun =>
    obtain ⟨t, hplace⟩ := hrun.exists_place
    obtain ⟨hdx, rest, hdy⟩ := hplace.isSigned
    rw [Rule.read, readMove, move_iff.2 hrun] at hread
    obtain rfl := Option.some.inj hread
    rw [List.forall_mem_cons, List.forall_mem_singleton]
    exact carries_move hdx hdy

/-- Numbers keep their value in a command just if they are written in plain digits or make no difference. -/
theorem keepsNumbers_iff (input : String) :
    KeepsNumbers input ↔ ∀ rule runs, DecidedBy input rule → Captures (.of input) rule runs →
      (∀ run ∈ runs, IsPlain run) ∨ Beyond rule runs := by
  constructor
  · rintro h rule runs ⟨reading, hanswer⟩ hruns
    exact (carries_iff (read_eq_answer_iff.1 hanswer).1 hruns).1 (h.carried rule reading runs hanswer hruns)
  · refine fun h => ⟨fun rule hrule reading hanswer hsize => ?_, fun rule reading runs hanswer hruns => ?_⟩
    · obtain ⟨runs, hruns⟩ := exists_captures hrule (read_eq_answer_iff.1 hanswer).1 hsize
      exact ⟨runs, hruns, fun _ hother => hother.unique hruns⟩
    · exact (carries_iff (read_eq_answer_iff.1 hanswer).1 hruns).2 (h rule runs ⟨reading, hanswer⟩ hruns)

/-- The smallest and the largest offset keep their value. -/
theorem keepsNumbers_offsets : KeepsNumbers "이동 (-9223372036854775808, 9223372036854775807)" := by
  have hread : read "이동 (-9223372036854775808, 9223372036854775807)" =
      .ok (.move, .move (-9223372036854775808) 9223372036854775807) := by decide +kernel
  have hcaptures : Captures (.of "이동 (-9223372036854775808, 9223372036854775807)") .move
      ["-9223372036854775808".toList, "9223372036854775807".toList] :=
    .move (move_iff.1 (by decide +kernel))
  refine (keepsNumbers_iff _).2 ?_
  rintro rule runs ⟨reading, hanswer⟩ hruns
  rw [hread] at hanswer
  cases reading with
  | ok intent =>
    obtain ⟨rfl, -⟩ := Prod.mk.inj (Except.ok.inj hanswer)
    rw [hruns.unique hcaptures]
    exact Or.inl (by decide)
  | error fault => cases hanswer

/-- Five per cent in a wide digit are read as a hundred. -/
theorem not_keepsNumbers_fullWidth :
    Captures (.of "투명도 ５%") .opacity [['５']] ∧ value ['５'] = 5 ∧
      read "투명도 ５%" = .ok (.opacity, .setOpacity 100) ∧ ¬ KeepsNumbers "투명도 ５%" := by
  have hread : read "투명도 ５%" = .ok (.opacity, .setOpacity 100) := by decide +kernel
  have hruns : Captures (.of "투명도 ５%") .opacity [['５']] := .opacity (opacity_iff.1 (by decide +kernel))
  refine ⟨hruns, by decide, hread, fun h => ?_⟩
  have hcarried := h.carried .opacity (.ok (.setOpacity 100)) [['５']] hread hruns
  have heq : (Except.ok (.setOpacity 100) : Reading) = .ok (.setOpacity 5) := hcarried
  exact absurd heq (by decide)

end DesignCanvas.Command
