import DesignCanvas.Proofs.Outline.Lines

/-!
# Bullets

A bullet in front of a line that has no marker of its own changes nothing about what the line says, unless the line is
blank. The blank of the bullet is then at the end of the line and is trimmed away before bullets are looked for, and the
mark that is left counts as a text. This is the only way (`Outline.bulletNeutral_iff`).
-/

namespace DesignCanvas

/-- What an item says, whatever line it comes from. -/
def OutlineItem.said (i : OutlineItem) : String × String :=
  (i.label, i.text)

namespace Outline

variable {line : List Char} {m : Char} {default : String}

/-- With a bullet in front, a line has items with the same labels and texts. -/
def BulletNeutral (line : String) : Prop :=
  ∀ b ∈ bullets, ∀ default,
    (items default (String.ofList b ++ line)).map OutlineItem.said = (items default line).map OutlineItem.said

/-- A line begins with no marker, once it is trimmed. -/
structure Unmarked (line : String) : Prop where
  heading : ¬ HasHeading (Text.trim line.toList)
  bullet : ¬ HasBullet (Text.trim line.toList)

instance (line : String) : Decidable (Unmarked line) :=
  decidable_of_iff (¬ HasHeading (Text.trim line.toList) ∧ ¬ HasBullet (Text.trim line.toList))
    ⟨fun h => ⟨h.1, h.2⟩, fun h => ⟨h.heading, h.bullet⟩⟩

/-! ## What a line with a bullet says -/

theorem not_hasHeading {s : List Char} (h : s.head? ≠ some '#') : ¬ HasHeading s :=
  fun hheading => h hheading.1

theorem dropBullet_append {b : List Char} (hb : b ∈ bullets) (s : List Char) : dropBullet (b ++ s) = s := by
  simp only [bullets, List.mem_cons, List.not_mem_nil, or_false] at hb
  rcases hb with rfl | rfl | rfl | rfl <;> rfl

theorem content_bullet {b : List Char} (hb : b ∈ bullets) (hline : ¬ Text.allBlank line) :
    content (b ++ line) = Text.trim line := by
  obtain ⟨m, rfl, hblank, hsign⟩ := exists_mark hb
  obtain ⟨c, hc, hne⟩ : ∃ c ∈ line, ¬ Text.isBlank c := by simpa [Text.allBlank] using hline
  obtain ⟨x, y, rfl⟩ := List.append_of_mem hc
  -- trimming stops before the blank of the bullet
  have htrim : Text.trim ([m, ' '] ++ (x ++ c :: y)) = [m, ' '] ++ Text.trimEnd (x ++ c :: y) := by
    have hend : [m, ' '] ++ (x ++ c :: y) = [] ++ m :: ([' '] ++ x ++ c :: y) := by simp
    rw [hend, Text.trim_append_cons hblank, Text.trimEnd_append_cons hne, Text.trimEnd_append_cons hne]
    simp [Text.trimStart]
  rw [content, htrim, dropHeading_of_not (not_hasHeading (by simpa using hsign)), dropBullet_append hb, Text.trim_trimEnd]

theorem trim_lone_bullet (hb : [m, ' '] ∈ bullets) (hline : Text.allBlank line) :
    Text.trim ([m, ' '] ++ line) = [m] := by
  obtain ⟨_, ⟨⟩, hblank, -⟩ := exists_mark hb
  have hblanks : ∀ c ∈ ' ' :: line, Text.isBlank c :=
    List.forall_mem_cons.2 ⟨by decide, List.all_eq_true.1 hline⟩
  have hend : Text.trimEnd (' ' :: line) = [] := (List.rdropWhile_eq_nil_iff).2 hblanks
  have hcut := Text.trim_append_cons hblank [] (' ' :: line)
  rw [hend] at hcut
  exact hcut

/-- In front of blanks the mark of a bullet is kept as a text. -/
theorem content_lone_bullet (hb : [m, ' '] ∈ bullets) (hline : Text.allBlank line) :
    content ([m, ' '] ++ line) = [m] := by
  obtain ⟨_, ⟨⟩, -, hsign⟩ := exists_mark hb
  have htrim := trim_lone_bullet hb hline
  have hshort : ¬ HasBullet [m] := by
    rintro ⟨b, hb, hprefix⟩
    obtain ⟨m', rfl, -⟩ := exists_mark hb
    exact absurd hprefix.length_le (by simp)
  rw [content_of_plain, htrim] <;> rw [htrim]
  · exact not_hasHeading (by simpa using hsign)
  · exact hshort

/-! ## The items of a line with a bullet -/

theorem said_congr {line' : List Char} (h : content line = content line') :
    (itemsOfLine default line).map OutlineItem.said = (itemsOfLine default line').map OutlineItem.said := by
  simp only [itemsOfLine, h]
  split
  · rfl
  · split
    · rfl
    · rw [List.map_map, List.map_map]
      rfl

theorem itemsOfLine_lone_bullet (default : String) (hb : [m, ' '] ∈ bullets) (hline : Text.allBlank line) :
    itemsOfLine default ([m, ' '] ++ line) = [⟨default, String.ofList [m], String.ofList [m]⟩] := by
  have hcolon : ∀ b ∈ bullets, ':' ∉ b := by decide
  have hnone : Text.splitFirst? ':' [m] = none :=
    Text.splitFirst?_eq_none.2 fun h => hcolon _ hb (List.mem_append_left [' '] h)
  rw [itemsOfLine, content_lone_bullet hb hline, trim_lone_bullet hb hline, hnone]
  rfl

theorem items_bullet (default : String) {b : List Char} (hb : b ∈ bullets) {line : String}
    (hline : '\n' ∉ line.toList) :
    items default (String.ofList b ++ line) = itemsOfLine default (b ++ line.toList) := by
  have hall : ∀ b ∈ bullets, '\n' ∉ b := by decide
  have hnewline : '\n' ∉ b ++ line.toList := fun h => (List.mem_append.1 h).elim (hall b hb) hline
  rw [← items_of_line default hnewline, String.ofList_append, String.ofList_toList]

/-- A bullet changes nothing about what a line without a marker says just if the line is more than blanks. -/
theorem bulletNeutral_iff (line : String) (hline : '\n' ∉ line.toList) (hmark : Unmarked line) :
    BulletNeutral line ↔ ¬ Text.allBlank line.toList := by
  have hplain : content line.toList = Text.trim line.toList := content_of_plain hmark.heading hmark.bullet
  have hself : ∀ default, items default line = itemsOfLine default line.toList := by
    intro default
    rw [← items_of_line default hline, String.ofList_toList]
  constructor
  · intro h hblank
    have hdash : ['-', ' '] ∈ bullets := by decide
    have hsilent : content line.toList = [] := hplain.trans (Text.trim_eq_nil_iff.2 (List.all_eq_true.1 hblank))
    have hsame := h _ hdash defaultLabel
    rw [items_bullet _ hdash hline, itemsOfLine_lone_bullet _ hdash hblank, hself, itemsOfLine_of_silent hsilent] at hsame
    cases hsame
  · intro h b hb default
    rw [items_bullet default hb hline, hself]
    exact said_congr ((content_bullet hb h).trans hplain.symm)

/-- A line with a label and values, blanks around it and a number sign in front. -/
theorem bulletNeutral_tagged :
    let line := "\t #tag: a, - b ,, c \r"
    '\n' ∉ line.toList ∧ Unmarked line ∧ BulletNeutral line ∧
      (items defaultLabel line).map OutlineItem.said = [("#tag", "a"), ("#tag", "- b"), ("#tag", "c")] := by
  intro line
  have hline : '\n' ∉ line.toList := by decide
  have hmark : Unmarked line := by decide
  exact ⟨hline, hmark, (bulletNeutral_iff line hline hmark).2 (by decide), by decide⟩

/-- With nothing after it, a bullet is an item itself. -/
theorem not_bulletNeutral_empty :
    '\n' ∉ "".toList ∧ Unmarked "" ∧ ¬ BulletNeutral "" ∧ items defaultLabel "" = [] ∧
      items defaultLabel "- " = [⟨defaultLabel, "-", "-"⟩] := by
  refine ⟨by decide, by decide, fun h => ?_, by decide, by decide⟩
  exact absurd (h ['-', ' '] (by decide) defaultLabel) (by decide)

end Outline

end DesignCanvas
