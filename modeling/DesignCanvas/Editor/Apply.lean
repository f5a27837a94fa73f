import DesignCanvas.Editor.Steps
import DesignCanvas.Command.Intent
import DesignCanvas.Text.Search

/-!
# Carrying out intents

What each intent does to the selected nodes, and what is said when it is done or when there was nothing to do.
-/

namespace DesignCanvas

/-- The part of the whole that a percentage is. -/
def opacityOfPercent (percent : Nat) : Float :=
  Decimal.ofInt (min percent 100) / 100.0

namespace Editor

/-- Replaces the first occurrence of a text in every text below the selected nodes that has one. -/
def replaceText (e : Editor) (search replacement : String) : Result Outcome :=
  let rule (s : String) :=
    String.ofList (Text.replaceFirst search.toList replacement.toList s.toList)
  (Batch.runIds "replace_text" (Step.writeText rule) (e.document.textIdsWith search) e).finish
    (.textNotFound search) fun n => s!"\"{search}\"를 \"{replacement}\"로 {n}개 변경했습니다."

/-- Writes one text into every text below the selected nodes. -/
def replaceAllText (e : Editor) (text : String) : Result Outcome :=
  (e.writeAll "replace_all_text" text).finish .noText fun n => s!"{n}개의 텍스트를 \"{text}\"로 변경했습니다."

/-- Copies the selected nodes and selects the copies. -/
def duplicate (e : Editor) (ids : List String) : Result Outcome :=
  let b := Batch.runIds "duplicate" Step.copy ids e
  let r := b.finish .nothingToDuplicate fun n => s!"{n}개의 레이어를 복제했습니다."
  if b.changed = 0 then r else { r with editor := r.editor.select b.made }

/-- Runs a step over nodes and finishes the batch. -/
def each (e : Editor) (intent : Intent) (step : Editor → String → Step) (ids : List String)
    (refusal : Refusal) (message : Nat → String) : Result Outcome :=
  (Batch.runIds intent.operation step ids e).finish refusal message

/-- Carries out an intent on the nodes with given ids. -/
def applyTo (e : Editor) (ids : List String) (intent : Intent) : Result Outcome :=
  match intent with
  | .replaceText search replacement => e.replaceText search replacement
  | .replaceAllText text => e.replaceAllText text
  | .setColor hex color =>
    e.each intent (Step.setColor color) ids .nothingToColor fun n =>
      s!"{n}개의 레이어 색상을 {hex}로 변경했습니다."
  | .resizeWidth width =>
    e.each intent (Step.setWidth (Decimal.ofInt width)) ids .nothingToResize fun _ =>
      s!"너비를 {width}px로 변경했습니다."
  | .resizeHeight height =>
    e.each intent (Step.setHeight (Decimal.ofInt height)) ids .nothingToResize fun _ =>
      s!"높이를 {height}px로 변경했습니다."
  | .setOpacity percent =>
    e.each intent (Step.setOpacity (opacityOfPercent percent)) ids .nothingToFade fun _ =>
      s!"투명도를 {percent}%로 변경했습니다."
  | .duplicate => e.duplicate ids
  | .delete =>
    e.each intent Step.remove ids .nothingToDelete fun n => s!"{n}개의 레이어를 삭제했습니다."
  | .setFontSize size =>
    e.each intent (Step.setFontSize (Decimal.ofInt size)) ids .nothingToSize fun _ =>
      s!"폰트 크기를 {size}px로 변경했습니다."
  | .move dx dy =>
    e.each intent (Step.moveBy (Decimal.ofInt dx) (Decimal.ofInt dy)) ids .nothingToMove fun _ =>
      s!"레이어를 ({dx}, {dy})만큼 이동했습니다."
  | .reveal =>
    e.each intent (Step.setVisible true) ids .nothingToReveal fun n => s!"{n}개의 레이어를 표시했습니다."
  | .hide =>
    e.each intent (Step.setVisible false) ids .nothingToHide fun n => s!"{n}개의 레이어를 숨겼습니다."
  | .rename name =>
    e.each intent (Step.setName name) ids .nothingToRename fun _ =>
      s!"레이어 이름을 \"{name}\"으로 변경했습니다."
  | .setCornerRadius radius =>
    e.each intent (Step.setCornerRadius (Decimal.ofInt radius)) ids .nothingToRound fun _ =>
      s!"모서리 둥글기를 {radius}px로 변경했습니다."

/-- Carries out an intent on the selected nodes. -/
def apply (e : Editor) (intent : Intent) : Result Outcome :=
  e.onSelection fun ns => e.applyTo (ns.map Tree.id) intent

end Editor

end DesignCanvas
