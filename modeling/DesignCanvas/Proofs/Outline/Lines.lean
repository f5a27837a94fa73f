import DesignCanvas.Outline.Item
import DesignCanvas.Proofs.Text.Pieces

/-!
# Items and lines

The items of an outline are those of its lines, one line after another, and each of them has a text that is trimmed,
not empty and on one line. A line in the form of a label, a colon and values with commas between them has one item for
each value (`Outline.items_lineByLine`).
-/

namespace DesignCanvas

/-- What an item has of the line that it comes from. -/
structure OutlineItem.ComesFrom (i : OutlineItem) (line : List Char) : Prop where
  text_ne : i.text ≠ ""
  trimmed : Text.trimmed i.text = i.text
  newline : '\n' ∉ i.text.toList
  source : i.line = String.ofList (Text.trim line)
  comma : ':' ∈ line → ',' ∉ i.text.toList

namespace Outline

variable {s line : List Char} {c : Char} {i : OutlineItem} {default : String}

/-! ## Markers -/

/-- A line begins with a bullet and the blank after it. -/
def HasBullet (s : List Char) : Prop :=
  ∃ b ∈ bullets, b <+: s

/-- A line begins with number signs that a blank or nothing comes after. -/
def HasHeading (s : List Char) : Prop :=
  s.head? = some '#' ∧ (s.dropWhile (· = '#')).head?.all Text.isBlank

instance (s : List Char) : Decidable (HasBullet s) :=
  inferInstanceAs (Decidable (∃ b ∈ bullets, b <+: s))

instance (s : List Char) : Decidable (HasHeading s) :=
  inferInstanceAs (Decidable (_ ∧ _))

theorem dropHeading_of_not (h : ¬ HasHeading s) : dropHeading s = s :=
  if_neg h

theorem dropBullet_of_not (h : ¬ HasBullet s) : dropBullet s = s := by
  have hnone : bullets.find? (fun b => b.isPrefixOf s) = none :=
    List.find?_eq_none.2 fun b hb hprefix => h ⟨b, hb, List.isPrefixOf_iff_prefix.1 hprefix⟩
  rw [dropBullet, hnone]

theorem exists_mark {b : List Char} (hb : b ∈ bullets) : ∃ m, b = [m, ' '] ∧ ¬ Text.isBlank m ∧ m ≠ '#' := by
  have hall : ∀ b ∈ bullets, b = [b.headD ' ', ' '] ∧ ¬ Text.isBlank (b.headD ' ') ∧ b.headD ' ' ≠ '#' := by decide
  exact ⟨_, hall b hb⟩

theorem dropHeading_suffix (s : List Char) : dropHeading s <:+ s := by
  unfold dropHeading
  dsimp only
  split
  · exact (Text.trimStart_isSuffix _).trans (List.dropWhile_suffix _)
  · exact List.suffix_rfl

theorem dropBullet_suffix (s : List Char) : dropBullet s <:+ s := by
  unfold dropBullet
  split
  · exact List.drop_suffix _ _
  · exact List.suffix_rfl

/-! ## What a line says -/

theorem trim_content (line : List Char) : Text.trim (content line) = content line :=
  Text.trim_trim _

theorem content_isInfix (line : List Char) : content line <:+: line := by
  refine (Text.trim_isInfix _).trans ?_
  exact ((dropBullet_suffix _).trans (dropHeading_suffix _)).isInfix.trans (Text.trim_isInfix line)

theorem mem_content (hblank : Text.isBlank c = false) (hsign : c ≠ '#') (hbullet : c ∉ bullets.flatten)
    (h : c ∈ line) : c ∈ content line := by
  rw [content, Text.mem_trim_iff hblank]
  have hheading : c ∈ dropHeading (Text.trim line) := by
    have htrim : c ∈ Text.trim line := (Text.mem_trim_iff hblank).2 h
    unfold dropHeading
    dsimp only
    split
    · rwa [Text.trimStart, Text.mem_dropWhile_iff hblank, Text.mem_dropWhile_iff (by simpa using hsign)]
    · exact htrim
  by_cases hb : HasBullet (dropHeading (Text.trim line))
  · unfold dropBullet
    split
    · next b hfind =>
      have hprefix : b.isPrefixOf (dropHeading (Text.trim line)) := by simpa using List.find?_some hfind
      obtain ⟨rest, hrest⟩ := List.isPrefixOf_iff_prefix.1 hprefix
      rw [← hrest, List.mem_append] at hheading
      rw [← hrest, List.drop_left]
      refine hheading.resolve_left fun hmem => hbullet ?_
      exact List.mem_flatten.2 ⟨b, List.mem_of_find?_eq_some hfind, hmem⟩
    · exact hheading
  · rwa [dropBullet_of_not hb]

theorem content_of_plain (hheading : ¬ HasHeading (Text.trim line)) (hbullet : ¬ HasBullet (Text.trim line)) :
    content line = Text.trim line := by
  rw [content, dropHeading_of_not hheading, dropBullet_of_not hbullet, Text.trim_trim]

theorem content_congr {line' : List Char} (h : Text.trim line = Text.trim line') : content line = content line' := by
  rw [content, content, h]

/-! ## The items of a line -/

theorem itemsOfLine_of_silent (h : content line = []) : itemsOfLine default line = [] := by
  simp [itemsOfLine, h]

theorem itemsOfLine_congr {line' : List Char} (h : Text.trim line = Text.trim line') :
    itemsOfLine default line = itemsOfLine default line' := by
  rw [itemsOfLine, itemsOfLine, content_congr h, h]

theorem itemsOfLine_nil : itemsOfLine default [] = [] :=
  itemsOfLine_of_silent rfl

theorem mem_values {v : List Char} (h : v ∈ values s) : v ≠ [] ∧ Text.trim v = v ∧ v <:+: s ∧ ',' ∉ v := by
  obtain ⟨hmem, hne⟩ := List.mem_filter.1 h
  obtain ⟨piece, hpiece, rfl⟩ := List.mem_map.1 hmem
  refine ⟨by simpa using hne, Text.trim_trim piece,
    (Text.trim_isInfix piece).trans (Text.infix_of_mem_splitAt hpiece), fun hcomma => ?_⟩
  exact Text.mark_notMem_of_mem_splitAt hpiece ((Text.trim_isInfix piece).subset hcomma)

theorem comesFrom_of_mem (hline : '\n' ∉ line) (h : i ∈ itemsOfLine default line) : i.ComesFrom line := by
  -- the text of an item is a trimmed part of what the line says
  have htext : ∀ {v : List Char}, v ≠ [] → Text.trim v = v → v <:+: content line →
      String.ofList v ≠ "" ∧ Text.trimmed (String.ofList v) = String.ofList v ∧
        '\n' ∉ (String.ofList v).toList := by
    intro v hne htrim hpart
    refine ⟨by simpa using hne, by rw [Text.trimmed, String.toList_ofList, htrim], ?_⟩
    rw [String.toList_ofList]
    exact fun hmem => hline ((hpart.trans (content_isInfix line)).subset hmem)
  unfold itemsOfLine at h
  dsimp only at h
  split at h
  · exact absurd h List.not_mem_nil
  · next hsaid =>
    split at h
    · next hcolon =>
      obtain rfl := List.mem_singleton.1 h
      obtain ⟨hne, htrim, hnewline⟩ := htext (by simpa using hsaid) (trim_content line) List.infix_rfl
      refine ⟨hne, htrim, hnewline, rfl, fun hmem => ?_⟩
      have hsays : ':' ∈ content line := mem_content (by decide) (by decide) (by decide) hmem
      exact absurd hsays (Text.splitFirst?_eq_none.1 hcolon)
    · next label rest hcolon =>
      obtain ⟨v, hv, rfl⟩ := List.mem_map.1 h
      obtain ⟨hne, htrim, hpart, hcomma⟩ := mem_values hv
      have hrest : rest <:+: content line := by
        rw [(Text.splitFirst?_eq_some hcolon).1]
        exact ((List.suffix_cons ':' rest).trans (List.suffix_append label _)).isInfix
      obtain ⟨hne, htrim, hnewline⟩ := htext hne htrim (hpart.trans hrest)
      refine ⟨hne, htrim, hnewline, rfl, fun _ => ?_⟩
      rwa [String.toList_ofList]

/-! ## The items of an outline -/

theorem items_eq_flatMap (default text : String) :
    items default text = (Text.splitAt '\n' text.toList).flatMap (itemsOfLine default) :=
  Text.flatMap_lines itemsOfLine_nil (fun l => itemsOfLine_congr (Text.trim_append_return l)) text.toList

theorem items_of_line (default : String) (hline : '\n' ∉ line) :
    items default (String.ofList line) = itemsOfLine default line := by
  rw [items_eq_flatMap, String.toList_ofList, Text.splitAt_of_notMem hline, List.flatMap_singleton]

theorem items_below (default a b : String) : items default (a ++ "\n" ++ b) = items default a ++ items default b := by
  have hlist : (a ++ "\n" ++ b).toList = a.toList ++ '\n' :: b.toList := by simp
  rw [items_eq_flatMap, hlist, Text.splitAt_append_cons, List.flatMap_append, ← items_eq_flatMap, ← items_eq_flatMap]

/-! ## Labels with values -/

/-- A label that can stand in front of a colon at the beginning of a line. -/
structure IsLabel (label : String) : Prop where
  ne : label ≠ ""
  trimmed : Text.trimmed label = label
  colon : ':' ∉ label.toList
  newline : '\n' ∉ label.toList
  sign : label.toList.head? ≠ some '#'
  bullet : ¬ HasBullet label.toList

/-- A value that can stand between commas. -/
structure IsValue (value : String) : Prop where
  ne : value ≠ ""
  trimmed : Text.trimmed value = value
  comma : ',' ∉ value.toList
  newline : '\n' ∉ value.toList

/-- The line of a label with values. -/
def labelled (label : String) (vs : List String) : String :=
  label ++ ": " ++ ", ".intercalate vs

section Labelled

variable {label : String} {vs : List String}

theorem trim_toList {s : String} (h : Text.trimmed s = s) : Text.trim s.toList = s.toList := by
  simpa [Text.trimmed] using congrArg String.toList h

theorem content_labelled (hlabel : IsLabel label) {t : List Char} (ht : t ≠ [])
    (hend : ∀ c ∈ t.getLast?, ¬ Text.isBlank c) :
    content (label.toList ++ ':' :: t) = label.toList ++ ':' :: t := by
  have hne : label.toList ≠ [] := by simpa using hlabel.ne
  have hline : Text.trim (label.toList ++ ':' :: t) = label.toList ++ ':' :: t := by
    refine Text.trim_append_eq_self hne (List.cons_ne_nil _ _)
      (Text.trim_eq_self_iff.1 (trim_toList hlabel.trimmed)).1 fun c hc => ?_
    rw [List.getLast?_cons_of_ne_nil ht] at hc
    exact hend c hc
  rw [content_of_plain, hline] <;> rw [hline]
  · exact fun hheading => hlabel.sign (by rw [← hheading.1, List.head?_append_of_ne_nil _ hne])
  · -- a bullet is in the label as a whole, because the colon is no blank
    rintro ⟨b, hb, hprefix⟩
    refine hlabel.bullet ⟨b, hb, ?_⟩
    obtain ⟨m, rfl, -⟩ := exists_mark hb
    obtain ⟨c, r, hlist⟩ := List.exists_cons_of_ne_nil hne
    rw [hlist] at hprefix ⊢
    cases r with
    | nil => simp at hprefix
    | cons d r => simpa using hprefix

/-- The values after a colon are those that were joined. -/
theorem values_joined (hvs : vs ≠ []) (hvalues : ∀ v ∈ vs, IsValue v) :
    values (' ' :: [',', ' '].intercalate (vs.map String.toList)) = vs.map String.toList := by
  have hcomma : ∀ p ∈ vs.map String.toList, ',' ∉ p := by
    intro p hp
    obtain ⟨v, hv, rfl⟩ := List.mem_map.1 hp
    exact (hvalues v hv).comma
  have hglue : ',' ∉ [' '] := by decide
  have hpieces := Text.splitAt_intercalate hglue (by simpa using hvs) hcomma
  rw [List.singleton_append] at hpieces
  have htrim : (vs.map String.toList).map (Text.trim ∘ ([' '] ++ ·)) = vs.map String.toList := by
    rw [List.map_map]
    refine List.map_congr_left fun v hv => ?_
    have hblank : ∀ c ∈ [' '], Text.isBlank c := List.forall_mem_singleton.2 (by decide)
    have hsurrounded := Text.trim_surrounded hblank (b := []) nofun v.toList
    rw [List.append_nil] at hsurrounded
    exact hsurrounded.trans (trim_toList (hvalues v hv).trimmed)
  rw [values, hpieces, List.map_map, htrim, List.filter_eq_self]
  intro p hp
  obtain ⟨v, hv, rfl⟩ := List.mem_map.1 hp
  simpa using (hvalues v hv).ne

theorem items_labelled (default : String) (hlabel : IsLabel label) (hvs : vs ≠ []) (hvalues : ∀ v ∈ vs, IsValue v) :
    items default (labelled label vs) = vs.map fun v => ⟨label, v, labelled label vs⟩ := by
  let t := ' ' :: [',', ' '].intercalate (vs.map String.toList)
  have hlist : (labelled label vs).toList = label.toList ++ ':' :: t := by
    simp [labelled, t, String.toList_intercalate]
  have hnewline : '\n' ∉ label.toList ++ ':' :: t := by
    simp only [t, List.mem_append, List.mem_cons, not_or]
    refine ⟨hlabel.newline, by decide, by decide, fun hmem => ?_⟩
    obtain hglue | ⟨p, hp, hmem⟩ := Text.mem_of_mem_intercalate hmem
    · exact absurd hglue (by decide)
    · obtain ⟨v, hv, rfl⟩ := List.mem_map.1 hp
      exact (hvalues v hv).newline hmem
  -- the line ends with the last value
  have hend : ∀ c ∈ t.getLast?, ¬ Text.isBlank c := by
    obtain ⟨front, last, hvs⟩ := (List.eq_nil_or_concat' vs).resolve_left hvs
    have hlast := hvalues last (by simp [hvs])
    obtain ⟨u, hu⟩ : last.toList <:+ t := by
      simp only [t, hvs, List.map_append, List.map_cons, List.map_nil]
      exact (Text.suffix_intercalate _ _ _).trans (List.suffix_cons _ _)
    rw [← hu, List.getLast?_append_of_ne_nil u (by simpa using hlast.ne)]
    exact (Text.trim_eq_self_iff.1 (trim_toList hlast.trimmed)).2
  have hcontent : content (label.toList ++ ':' :: t) = label.toList ++ ':' :: t :=
    content_labelled hlabel (List.cons_ne_nil _ _) hend
  have htrim : Text.trim (label.toList ++ ':' :: t) = label.toList ++ ':' :: t := by
    conv_lhs => rw [← hcontent, trim_content, hcontent]
  have hitems := items_of_line default hnewline
  rw [← hlist, String.ofList_toList, hlist] at hitems
  have hne : label.toList ≠ [] := by simpa using hlabel.ne
  rw [hitems, itemsOfLine, hcontent, htrim, ← hlist, String.ofList_toList, hlist,
    Text.splitFirst?_append hlabel.colon]
  simp [trim_toList hlabel.trimmed, hne, t, values_joined hvs hvalues]

end Labelled

/-- The items of an outline come from its lines, one after another; each has a text of its own, on one line; and a label
with values has them all. -/
theorem items_lineByLine (default : String) :
    (∀ a b, items default (a ++ "\n" ++ b) = items default a ++ items default b) ∧
      (∀ text, ∀ i ∈ items default text, ∃ line ∈ Text.lines text.toList,
        i ∈ items default (String.ofList line) ∧ i.ComesFrom line) ∧
      ∀ label vs, IsLabel label → vs ≠ [] → (∀ v ∈ vs, IsValue v) →
        items default (labelled label vs) = vs.map fun v => ⟨label, v, labelled label vs⟩ := by
  refine ⟨items_below default, fun text i hi => ?_, fun label vs => items_labelled default⟩
  obtain ⟨line, hline, hi⟩ := List.mem_flatMap.1 hi
  have hnewline := Text.newline_notMem_of_mem_lines hline
  refine ⟨line, hline, ?_, comesFrom_of_mem hnewline hi⟩
  rwa [items_of_line default hnewline]

/-- Between two lines that say nothing there is one with a bullet, two colons and an empty value; and a label with a dash
in it can have values that look like other lines. -/
theorem items_lineByLine_roles :
    let text := "# \r\n* Role - job :lead: design,, #plan \r\n  "
    let i : OutlineItem := ⟨"Role - job", "#plan", "* Role - job :lead: design,, #plan"⟩
    let label := "Role - job"
    let vs := ["lead: design", "- review", "#plan"]
    (i ∈ items defaultLabel text ∧ ∃ line ∈ Text.lines text.toList,
        i ∈ items defaultLabel (String.ofList line) ∧ i.ComesFrom line) ∧
      IsLabel label ∧ vs ≠ [] ∧ (∀ v ∈ vs, IsValue v) ∧
        items defaultLabel (labelled label vs) = vs.map fun v => ⟨label, v, labelled label vs⟩ := by
  intro text i label vs
  have hi : i ∈ items defaultLabel text := by decide
  have hlabel : IsLabel label := ⟨by decide, by decide, by decide, by decide, by decide, by decide⟩
  have hvs : vs ≠ [] := by decide
  have hvalues : ∀ v ∈ vs, IsValue v := by
    simp only [vs, List.forall_mem_cons]
    exact ⟨⟨by decide, by decide, by decide, by decide⟩, ⟨by decide, by decide, by decide, by decide⟩,
      ⟨by decide, by decide, by decide, by decide⟩, nofun⟩
  obtain ⟨-, hlines, hlabelled⟩ := items_lineByLine defaultLabel
  exact ⟨⟨hi, hlines text i hi⟩, hlabel, hvs, hvalues, hlabelled label vs hlabel hvs hvalues⟩

end Outline

end DesignCanvas
