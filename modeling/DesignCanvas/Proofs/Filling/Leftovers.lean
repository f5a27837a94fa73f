import DesignCanvas.Proofs.Document.Registered
import DesignCanvas.Proofs.Filling.Pictures

/-!
# Pictures that nothing shows

A filling registers the pictures of all nodes that it is for, and any rectangle or ellipse is one of them, with fills to
put a picture into or without. So a picture that comes for a node without fills is registered, and the node does not
show it. A node that is selected twice is filled twice, and shows the second picture only. Nothing else is left over:
whatever the source, all pictures are shown just if each node has fills and is filled once (`Editor.leavesNothing_iff`).
A source that gives one picture for each address leaves nothing over just if each of the addresses is also that of a
node with fills (`Editor.leavesNothing_steady_iff`).
-/

namespace DesignCanvas

open Attributes (picture?)

/-- The answers of a source that has a picture for one node only. -/
def onlyFor (id : String) (bytes : ByteArray) : String → ImageSource :=
  fun id' url => if id' = id then .ok bytes else .error (.empty url)

theorem exists_other_fingerprint (bytes : ByteArray) :
    ∃ other : ByteArray, other.size ≠ 0 ∧ Digest.fingerprint other ≠ Digest.fingerprint bytes := by
  by_cases h : Digest.fingerprint ⟨#[7, 1]⟩ = Digest.fingerprint bytes
  · exact ⟨⟨#[7, 2]⟩, by decide, fun h' => absurd (h.trans h'.symm) (by decide +kernel)⟩
  · exact ⟨⟨#[7, 1]⟩, by decide, h⟩

theorem exists_split_of_not_nodup {f : α → β} {l : List α} (h : ¬ (l.map f).Nodup) :
    ∃ as a bs, l = as ++ a :: bs ∧ f a ∈ as.map f := by
  induction l using List.reverseRecOn with
  | nil => exact absurd List.nodup_nil h
  | append_singleton l b ih =>
    by_cases hl : (l.map f).Nodup
    · refine ⟨l, b, [], rfl, ?_⟩
      by_contra hb
      refine h ?_
      rw [List.map_append, List.map_singleton]
      exact hl.append (List.nodup_singleton _) (List.disjoint_singleton.2 hb)
    · obtain ⟨as, a, bs, rfl, ha⟩ := ih hl
      exact ⟨as, a, bs ++ [b], by rw [List.append_assoc, List.cons_append], ha⟩

namespace Attributes

variable {source : ImageSource} {kind : PictureKind} {smallest : Nat} {a b : Attributes} {bytes : ByteArray}
  {hash : String}

theorem picture?_of_address (h : b.pictureAddress kind smallest = a.pictureAddress kind smallest) :
    picture? (fun _ => source) kind smallest b = picture? (fun _ => source) kind smallest a := by
  rw [picture?, picture?, h]

theorem picture?_onlyFor (hbytes : bytes.size ≠ 0) (id : String) (kind : PictureKind) (smallest : Nat)
    (a : Attributes) : picture? (onlyFor id bytes) kind smallest a = if a.id = id then some bytes else none := by
  by_cases hid : a.id = id <;> simp [picture?, onlyFor, hid, hbytes]

theorem fingerprint_mem_withPicture (h : a.fills.isSome) :
    Digest.fingerprint bytes ∈ (a.withPicture bytes).pictures := by
  obtain ⟨fills, hfills⟩ := Option.isSome_iff_exists.1 h
  rw [pictures_eq]
  simp only [withPicture, hfills, Option.getD_some]
  exact List.mem_append_left _ (mem_hashes_withImage _ fills)

theorem pictures_withPicture (h : hash ∈ (a.withPicture bytes).pictures) :
    hash ∈ a.pictures ∨ a.fills.isSome ∧ hash = Digest.fingerprint bytes := by
  cases hfills : a.fills with
  | none =>
    simp only [withPicture, hfills] at h
    exact .inl h
  | some fills =>
    rw [pictures_eq] at h
    simp only [withPicture, hfills, Option.getD_some] at h
    rcases List.mem_append.1 h with hfill | hstroke
    · exact .inr ⟨rfl, hashes_withImage hfill⟩
    · rw [pictures_eq]
      exact .inl (List.mem_append_right _ hstroke)

/-- A node that a picture was put into and then another one shows no others but those that it showed before and the
second one. -/
theorem pictures_replaced {other : ByteArray} {id : String} {ids ids' : List String} (hbytes : bytes.size ≠ 0)
    (hother : other.size ≠ 0) (hid : id ∈ ids) (hid' : id ∈ ids')
    (h : hash ∈ ((a.picturedAt (picture? (onlyFor id bytes) kind smallest) ids).picturedAt
      (picture? (onlyFor id other) kind smallest) ids').pictures) :
    hash ∈ a.pictures ∨ hash = Digest.fingerprint other := by
  by_cases ha : a.id = id
  · have hfirst : a.picturedAt (picture? (onlyFor id bytes) kind smallest) ids = a.withPicture bytes :=
      picturedAt_of_mem (ha ▸ hid) (by rw [picture?_onlyFor hbytes, if_pos ha])
    have hsame : (a.withPicture bytes).id = id := (id_withPicture bytes a).trans ha
    rw [hfirst, picturedAt_of_mem (hsame ▸ hid') (by rw [picture?_onlyFor hother, if_pos hsame]),
      withPicture_withPicture] at h
    exact (pictures_withPicture h).imp_right And.right
  · rw [picturedAt_of_none (a := a) (by rw [picture?_onlyFor hbytes, if_neg ha]),
      picturedAt_of_none (by rw [picture?_onlyFor hother, if_neg ha])] at h
    exact .inl h

end Attributes

namespace Document

variable {picture : Attributes → Option ByteArray} {d : Document} {as : List Attributes} {a : Attributes}
  {bytes : ByteArray} {hash : String}

/-- Some node shows an image. -/
def Shows (d : Document) (hash : String) : Prop :=
  ∃ a ∈ d.attributes, hash ∈ a.pictures

/-- An image is neither registered nor shown. -/
def Lacks (d : Document) (hash : String) : Prop :=
  hash ∉ d.images.keys ∧ ¬ d.Shows hash

instance (d : Document) (hash : String) : Decidable (d.Shows hash) :=
  inferInstanceAs (Decidable (∃ a ∈ d.attributes, hash ∈ a.pictures))

instance (d : Document) (hash : String) : Decidable (d.Lacks hash) :=
  inferInstanceAs (Decidable (hash ∉ d.images.keys ∧ ¬ d.Shows hash))

theorem mem_keys_pictured :
    hash ∈ (d.pictured picture as).images.keys ↔
      hash ∈ d.images.keys ∨ ∃ a ∈ as, ∃ bytes, picture a = some bytes ∧ Digest.fingerprint bytes = hash := by
  simp only [pictured, Images.mem_keys_insertAll, List.mem_map, List.mem_filterMap, Attributes.pictureEntry?,
    Option.map_eq_some_iff]
  grind

theorem shows_pictured (has : as ⊆ d.attributes) (ha : a ∈ as) (hpicture : picture a = some bytes)
    (hfills : a.fills.isSome) : (d.pictured picture as).Shows (Digest.fingerprint bytes) := by
  have hpictured : a.picturedAt picture (as.map Attributes.id) = a.withPicture bytes :=
    Attributes.picturedAt_of_mem (List.mem_map_of_mem ha) hpicture
  refine ⟨a.withPicture bytes, ?_, Attributes.fingerprint_mem_withPicture hfills⟩
  rw [attributes_pictured, ← hpictured]
  exact List.mem_map_of_mem (has ha)

/-- What is shown was shown before or is the picture of a node with fills. -/
theorem shows_of_pictured (hd : (d.attributes.map Attributes.id).Nodup) (has : as ⊆ d.attributes)
    (h : (d.pictured picture as).Shows hash) :
    d.Shows hash ∨
      ∃ a ∈ as, a.fills.isSome ∧ ∃ bytes, picture a = some bytes ∧ Digest.fingerprint bytes = hash := by
  obtain ⟨after, hafter, hhash⟩ := h
  rw [attributes_pictured] at hafter
  obtain ⟨a, ha, rfl⟩ := List.mem_map.1 hafter
  unfold Attributes.picturedAt at hhash
  split at hhash
  · next hid =>
    cases hpicture : picture a with
    | none =>
      rw [Attributes.pictured_of_none hpicture] at hhash
      exact .inl ⟨a, ha, hhash⟩
    | some bytes =>
      rw [Attributes.pictured_of_some hpicture] at hhash
      rcases Attributes.pictures_withPicture hhash with hbefore | ⟨hfills, rfl⟩
      · exact .inl ⟨a, ha, hbefore⟩
      · exact .inr ⟨a, (id_mem_ids_iff hd has ha).1 hid, hfills, bytes, hpicture, rfl⟩
  · exact .inl ⟨a, ha, hhash⟩

theorem pictured_eq_self (hd : (d.attributes.map Attributes.id).Nodup) (has : as ⊆ d.attributes)
    (h : ∀ a ∈ as, picture a = none) : d.pictured picture as = d := by
  have hnodes : Forest.map (Attributes.picturedAt picture (as.map Attributes.id)) d.nodes = d.nodes := by
    refine Forest.map_eq_self fun a ha => ?_
    unfold Attributes.picturedAt
    split
    · next hid => exact Attributes.pictured_of_none (h a ((id_mem_ids_iff hd has ha).1 hid))
    · rfl
  have hentries : as.filterMap (Attributes.pictureEntry? picture) = [] :=
    List.filterMap_eq_nil_iff.2 fun a ha => by rw [Attributes.pictureEntry?, h a ha, Option.map_none]
  rw [pictured, hnodes, hentries]
  rfl

end Document

namespace Document

/-- A source whose answers hang on the node that is filled, and on the number of nodes that were filled before. -/
def byNode (d : Document) (answers : Nat → String → ImageSource) : ChangingSource where
  after n := answers n (d.fillableIds.getD n "")

variable {d : Document} {t : Attributes × Nat}

theorem getElem?_fillableIds (ht : t ∈ d.fillables.zipIdx) : d.fillableIds[t.2]? = some t.1.id := by
  rw [← ids_fillables, List.getElem?_map, List.mk_mem_zipIdx_iff_getElem?.1 ht]
  rfl

theorem after_byNode (answers : Nat → String → ImageSource) (ht : t ∈ d.fillables.zipIdx) :
    (d.byNode answers).after t.2 = answers t.2 t.1.id := by
  have hid : d.fillableIds.getD t.2 "" = t.1.id := by
    rw [List.getD_eq_getElem?_getD, getElem?_fillableIds ht, Option.getD_some]
  exact congrArg (answers t.2) hid

theorem answersByNode_byNode (d : Document) (answers : String → ImageSource) :
    d.AnswersByNode (d.byNode fun _ => answers) answers :=
  fun _ ht => after_byNode _ ht

theorem answersByNode_of_nodup (h : d.fillableIds.Nodup) (source : ChangingSource) :
    d.AnswersByNode source fun id => source.after (d.fillableIds.idxOf id) := by
  intro t ht
  obtain ⟨hlt, hid⟩ := List.getElem?_eq_some_iff.1 (getElem?_fillableIds ht)
  dsimp only
  rw [← hid, h.idxOf_getElem]

end Document

namespace Editor

variable {e : Editor} {source : ChangingSource} {answers : String → ImageSource} {kind : PictureKind} {smallest : Nat}
  {bytes : ByteArray}

/-- A filling registers no image that no node shows then, and one that is refused leaves the document as it was. -/
def LeavesNothing (e : Editor) (source : ChangingSource) (kind : PictureKind) (smallest : Nat) : Prop :=
  let r := e.fillPictures source kind smallest
  (∀ hash ∈ r.editor.document.images.keys, hash ∈ e.document.images.keys ∨ r.editor.document.Shows hash) ∧
    ∀ refusal, r.answer = .error refusal → r.editor.document = e.document

theorem not_takesPicture_of_refused (hd : (e.document.attributes.map Attributes.id).Nodup)
    (hanswers : e.document.AnswersByNode source answers) {refusal : Refusal}
    (h : (e.fillPictures source kind smallest).answer = .error refusal) {a : Attributes}
    (ha : a ∈ e.document.fillables) : ¬ a.takesPicture (picture? answers kind smallest) := by
  rw [(e.fillPictures_eq source kind smallest).2, countP_pictureSteps source kind smallest hd hanswers] at h
  have hid : a.id ∈ e.document.fillableIds := by
    rw [← Document.ids_fillables]
    exact List.mem_map_of_mem ha
  have hroots : e.document.roots ≠ [] := by
    intro hroots
    rw [Document.fillableIds, hroots] at hid
    cases hid
  rw [if_neg hroots, if_neg (List.ne_nil_of_mem hid)] at h
  split at h
  · next hcount => exact List.countP_eq_zero.1 hcount a ha
  · cases h

/-- Nothing is left over if every picture that comes also comes for a node with fills. -/
theorem leavesNothing_of_shared (hd : (e.document.attributes.map Attributes.id).Nodup)
    (hanswers : e.document.AnswersByNode source answers)
    (hshared : ∀ a ∈ e.document.fillables, ∀ bytes, picture? answers kind smallest a = some bytes →
      ∃ b ∈ e.document.fillables, b.fills.isSome ∧ picture? answers kind smallest b = some bytes) :
    e.LeavesNothing source kind smallest := by
  have hdocument := (fillPictures_pictured source kind smallest hd hanswers).1
  refine ⟨fun hash hhash => ?_, fun refusal hrefused => ?_⟩
  · rw [hdocument, Document.mem_keys_pictured] at hhash
    refine hhash.imp_right fun ⟨a, ha, bytes, hpicture, hfingerprint⟩ => ?_
    obtain ⟨b, hb, hfills, hpicture⟩ := hshared a ha bytes hpicture
    rw [hdocument, ← hfingerprint]
    exact Document.shows_pictured e.document.fillables_subset hb hpicture hfills
  · rw [hdocument]
    refine Document.pictured_eq_self hd e.document.fillables_subset fun a ha => ?_
    by_contra hsome
    obtain ⟨bytes, hpicture⟩ := Option.ne_none_iff_exists'.1 hsome
    obtain ⟨b, hb, hfills, hpicture⟩ := hshared a ha bytes hpicture
    refine not_takesPicture_of_refused hd hanswers hrefused hb ?_
    rw [Attributes.takesPicture, hpicture, hfills]
    rfl

theorem exists_fills_of_leavesNothing (hd : (e.document.attributes.map Attributes.id).Nodup)
    (hanswers : e.document.AnswersByNode source answers) (h : e.LeavesNothing source kind smallest) {a : Attributes}
    (ha : a ∈ e.document.fillables) (hpicture : picture? answers kind smallest a = some bytes)
    (hnew : e.document.Lacks (Digest.fingerprint bytes)) :
    ∃ b ∈ e.document.fillables, b.fills.isSome ∧ (picture? answers kind smallest b).isSome := by
  obtain ⟨hregistered, hshown⟩ := hnew
  have hdocument := (fillPictures_pictured source kind smallest hd hanswers).1
  have hadded : Digest.fingerprint bytes ∈ (e.fillPictures source kind smallest).editor.document.images.keys := by
    rw [hdocument, Document.mem_keys_pictured]
    exact .inr ⟨a, ha, bytes, hpicture, rfl⟩
  have hshows := (h.1 _ hadded).resolve_left hregistered
  rw [hdocument] at hshows
  obtain ⟨b, hb, hfills, bytes', hsome, -⟩ :=
    (Document.shows_of_pictured hd e.document.fillables_subset hshows).resolve_left hshown
  exact ⟨b, hb, hfills, Option.isSome_of_eq_some hsome⟩

/-! ### Sources that change their answers -/

theorem isSome_fills_of_leavesNothing (hd : (e.document.attributes.map Attributes.id).Nodup)
    (hbytes : bytes.size ≠ 0) (hnew : e.document.Lacks (Digest.fingerprint bytes))
    (h : ∀ source : ChangingSource, e.LeavesNothing source kind smallest) :
    ∀ a ∈ e.document.fillables, a.fills.isSome := by
  intro a ha
  have hself : picture? (onlyFor a.id bytes) kind smallest a = some bytes := by
    rw [Attributes.picture?_onlyFor hbytes, if_pos rfl]
  obtain ⟨b, hb, hfills, hsome⟩ :=
    exists_fills_of_leavesNothing hd (e.document.answersByNode_byNode _) (h _) ha hself hnew
  rw [Attributes.picture?_onlyFor hbytes] at hsome
  split at hsome
  · next hid =>
    rwa [← Document.eq_of_id hd (e.document.fillables_subset hb) (e.document.fillables_subset ha) hid]
  · cases hsome

theorem last_fillTurn_pictured {d : Document} {first : Attributes → Option ByteArray} {done : List Attributes}
    {turns : List (Attributes × Nat)} (kind : PictureKind) (smallest : Nat)
    (hd : (d.attributes.map Attributes.id).Nodup)
    (hturns : ∀ t ∈ turns, t.1 ∈ d.attributes ∧ source.after t.2 = answers t.1.id)
    (he : e.document = d.pictured first done) :
    let taken := Batch.history Prod.fst (Step.fillTurn source kind smallest) e (turns.map (Prod.map Attributes.id id))
    (Batch.last e taken).document = (d.pictured first done).pictured (picture? answers kind smallest)
      ((turns.map Prod.fst).map (Attributes.picturedAt first (done.map Attributes.id))) := by
  -- the nodes as the document has them by now
  let now := turns.map (Prod.map (Attributes.picturedAt first (done.map Attributes.id)) id)
  have hd' : (e.document.attributes.map Attributes.id).Nodup := by rwa [he, Document.ids_pictured]
  have hnow : ∀ t ∈ now, t.1 ∈ e.document.attributes ∧ source.after t.2 = answers t.1.id := by
    refine List.forall_mem_map.2 fun t ht => ?_
    obtain ⟨hattribute, hanswers⟩ := hturns t ht
    rw [he, Document.attributes_pictured]
    refine ⟨List.mem_map_of_mem hattribute, hanswers.trans ?_⟩
    exact congrArg answers (Attributes.id_picturedAt t.1).symm
  have hids : now.map (Prod.map Attributes.id id) = turns.map (Prod.map Attributes.id id) := by
    rw [List.map_map]
    exact List.map_congr_left fun t _ => congrArg (Prod.mk · t.2) (Attributes.id_picturedAt t.1)
  have hnodes : now.map Prod.fst =
      (turns.map Prod.fst).map (Attributes.picturedAt first (done.map Attributes.id)) := by
    rw [List.map_map, List.map_map]
    rfl
  have hlast := (history_fillTurn kind smallest hd' hnow Document.pictured_nil.symm).1
  rwa [hids, List.nil_append, hnodes, he] at hlast

/-- A filling from a source that changes its answers after some nodes puts in the pictures of these first, and those of
the others then. -/
theorem fillPictures_twoPhases (hd : (e.document.attributes.map Attributes.id).Nodup) {as bs : List Attributes}
    (hsplit : e.document.fillables = as ++ bs) (answers answers' : String → ImageSource) (kind : PictureKind)
    (smallest : Nat) :
    let source := e.document.byNode fun n => if n < as.length then answers else answers'
    let first := picture? answers kind smallest
    (e.fillPictures source kind smallest).editor.document = (e.document.pictured first as).pictured
      (picture? answers' kind smallest) (bs.map (Attributes.picturedAt first (as.map Attributes.id))) := by
  intro source first
  have hzip : e.document.fillables.zipIdx = as.zipIdx ++ bs.zipIdx as.length := by
    rw [hsplit, List.zipIdx_append, Nat.zero_add]
  have hmem : ∀ t ∈ e.document.fillables.zipIdx, t.1 ∈ e.document.attributes :=
    fun t ht => e.document.fillables_subset (List.fst_mem_of_mem_zipIdx ht)
  have hearly : ∀ t ∈ as.zipIdx, t.1 ∈ e.document.attributes ∧ source.after t.2 = answers t.1.id := by
    intro t ht
    have htarget : t ∈ e.document.fillables.zipIdx := hzip ▸ List.mem_append_left _ ht
    refine ⟨hmem t htarget, (Document.after_byNode _ htarget).trans ?_⟩
    rw [if_pos (by simpa using List.snd_lt_add_of_mem_zipIdx ht)]
  have hlate : ∀ t ∈ bs.zipIdx as.length, t.1 ∈ e.document.attributes ∧ source.after t.2 = answers' t.1.id := by
    intro t ht
    have htarget : t ∈ e.document.fillables.zipIdx := hzip ▸ List.mem_append_right _ ht
    refine ⟨hmem t htarget, (Document.after_byNode _ htarget).trans ?_⟩
    rw [if_neg (Nat.not_lt.2 (List.le_snd_of_mem_zipIdx ht))]
  rw [(e.fillPictures_eq source kind smallest).1, pictureSteps_eq, hzip, List.map_append, Batch.history_append,
    Batch.last_append]
  have hfirst := (history_fillTurn kind smallest hd hearly Document.pictured_nil.symm).1
  rw [List.nil_append, List.zipIdx_map_fst] at hfirst
  have hsecond := last_fillTurn_pictured kind smallest hd hlate hfirst
  rwa [List.zipIdx_map_fst] at hsecond

theorem nodup_of_leavesNothing (hd : (e.document.attributes.map Attributes.id).Nodup)
    (hbytes : bytes.size ≠ 0) (hnew : e.document.Lacks (Digest.fingerprint bytes))
    (h : ∀ source : ChangingSource, e.LeavesNothing source kind smallest) : e.document.fillableIds.Nodup := by
  obtain ⟨other, hother, hdiffer⟩ := exists_other_fingerprint bytes
  by_contra hdup
  rw [← Document.ids_fillables] at hdup
  obtain ⟨as, a, bs, hsplit, hearly⟩ := exists_split_of_not_nodup hdup
  set source := e.document.byNode fun n => if n < as.length then onlyFor a.id bytes else onlyFor a.id other
  have hdocument := fillPictures_twoPhases hd hsplit (onlyFor a.id bytes) (onlyFor a.id other) kind smallest
  -- the first picture of `a` is registered, but `a` shows the second one
  have hadded : Digest.fingerprint bytes ∈ (e.fillPictures source kind smallest).editor.document.images.keys := by
    obtain ⟨b, hb, hid⟩ := List.mem_map.1 hearly
    rw [hdocument, Document.mem_keys_pictured, Document.mem_keys_pictured]
    exact .inl (.inr ⟨b, hb, bytes, by rw [Attributes.picture?_onlyFor hbytes, if_pos hid], rfl⟩)
  obtain ⟨after, hafter, hshown⟩ := ((h source).1 _ hadded).resolve_left hnew.1
  rw [hdocument, Document.attributes_pictured, Document.attributes_pictured, List.map_map] at hafter
  obtain ⟨b, hb, rfl⟩ := List.mem_map.1 hafter
  have hlate : a.id ∈ ((a :: bs).map (Attributes.picturedAt (picture? (onlyFor a.id bytes) kind smallest)
      (as.map Attributes.id))).map Attributes.id :=
    List.mem_map.2 ⟨_, List.mem_cons_self, Attributes.id_picturedAt a⟩
  rcases Attributes.pictures_replaced hbytes hother hearly hlate hshown with hbefore | hsame
  · exact hnew.2 ⟨b, hb, hbefore⟩
  · exact hdiffer hsame.symm

/-- Whatever the source, a filling leaves nothing over just if each node that it is for has fills and is filled once.
Here some image has to be new to the document. -/
theorem leavesNothing_iff (e : Editor) (kind : PictureKind) (smallest : Nat)
    (hd : (e.document.attributes.map Attributes.id).Nodup)
    (hnew : ∃ bytes : ByteArray, bytes.size ≠ 0 ∧ e.document.Lacks (Digest.fingerprint bytes)) :
    (∀ source : ChangingSource, e.LeavesNothing source kind smallest) ↔
      (∀ a ∈ e.document.fillables, a.fills.isSome) ∧ e.document.fillableIds.Nodup := by
  obtain ⟨bytes, hbytes, hnew⟩ := hnew
  refine ⟨fun h => ⟨isSome_fills_of_leavesNothing hd hbytes hnew h, nodup_of_leavesNothing hd hbytes hnew h⟩, ?_⟩
  rintro ⟨hfills, hnodup⟩ source
  exact leavesNothing_of_shared hd (Document.answersByNode_of_nodup hnodup source)
    fun a ha bytes hpicture => ⟨a, ha, hfills a ha, hpicture⟩

/-! ### Sources that give one picture for each address -/

/-- Whatever pictures a source gives for addresses, a filling leaves nothing over just if the address of each picture is
also that of one for a node with fills. Here some image has to be new to the document. -/
theorem leavesNothing_steady_iff (e : Editor) (kind : PictureKind) (smallest : Nat)
    (hd : (e.document.attributes.map Attributes.id).Nodup)
    (hnew : ∃ bytes : ByteArray, bytes.size ≠ 0 ∧ e.document.Lacks (Digest.fingerprint bytes)) :
    (∀ source : ImageSource, e.LeavesNothing source kind smallest) ↔
      ∀ a ∈ e.document.fillables, ∃ b ∈ e.document.fillables,
        b.fills.isSome ∧ b.pictureAddress kind smallest = a.pictureAddress kind smallest := by
  refine ⟨fun h a ha => ?_, fun h source => ?_⟩
  · obtain ⟨bytes, hbytes, hnew⟩ := hnew
    -- a source that has nothing but a new image for this node
    let source : ImageSource := fun url =>
      if url = a.pictureAddress kind smallest then .ok bytes else .error (.empty url)
    have hpicture : ∀ b : Attributes, picture? (fun _ => source) kind smallest b =
        if b.pictureAddress kind smallest = a.pictureAddress kind smallest then some bytes else none := by
      intro b
      rw [Attributes.picture?]
      by_cases haddress : b.pictureAddress kind smallest = a.pictureAddress kind smallest <;>
        simp [source, haddress, hbytes]
    have hself : picture? (fun _ => source) kind smallest a = some bytes := by rw [hpicture, if_pos rfl]
    obtain ⟨b, hb, hfills, hsome⟩ :=
      exists_fills_of_leavesNothing hd (e.document.answersByNode_coe source) (h source) ha hself hnew
    refine ⟨b, hb, hfills, ?_⟩
    by_contra haddress
    rw [hpicture, if_neg haddress] at hsome
    cases hsome
  · refine leavesNothing_of_shared hd (e.document.answersByNode_coe source) fun a ha bytes hpicture => ?_
    obtain ⟨b, hb, hfills, haddress⟩ := h a ha
    exact ⟨b, hb, hfills, (Attributes.picture?_of_address haddress).trans hpicture⟩

end Editor

/-- An album with a photograph, and with a disc that has no fills. -/
def Document.album (selection : List String) : Document where
  nodes := [.branch (.bare "1:1" "Album" .frame)
    [.leaf { Attributes.bare "1:2" "Photo" .rectangle with fills := some [.ofColor ⟨1.0, 1.0, 1.0⟩] },
    .leaf (.bare "1:3" "Disc" .ellipse)]]
  selection := selection
  styles := []
  unavailableFonts := []
  images := .empty

namespace Editor

/-- The photograph alone is selected. -/
theorem leavesNothing_album :
    let e := opening (.album ["1:2"])
    (e.document.attributes.map Attributes.id).Nodup ∧
      (∃ bytes : ByteArray, bytes.size ≠ 0 ∧ e.document.Lacks (Digest.fingerprint bytes)) ∧
      e.document.fillables.map Attributes.id = ["1:2"] ∧
      ∀ kind smallest source, e.LeavesNothing source kind smallest := by
  have hd : ((opening (.album ["1:2"])).document.attributes.map Attributes.id).Nodup := by decide
  have hnew : ∃ bytes : ByteArray,
      bytes.size ≠ 0 ∧ (opening (.album ["1:2"])).document.Lacks (Digest.fingerprint bytes) :=
    ⟨⟨#[7, 1]⟩, by decide +kernel, by decide +kernel⟩
  have hfills : ∀ a ∈ (opening (.album ["1:2"])).document.fillables, a.fills.isSome := by decide +kernel
  exact ⟨hd, hnew, by decide +kernel, fun kind smallest =>
    (leavesNothing_iff _ kind smallest hd hnew).2 ⟨hfills, by decide +kernel⟩⟩

/-- The disc alone is selected. The filling is refused, but a picture is registered that nothing shows. -/
theorem not_leavesNothing_album :
    let e := opening (.album ["1:3"])
    let source : ImageSource := fun _ => .ok ⟨#[7, 1]⟩
    (e.document.attributes.map Attributes.id).Nodup ∧
      (e.fillPictures source .profile 100).answer = .error .nothingFilled ∧ ¬ e.LeavesNothing source .profile 100 := by
  have hd : ((opening (.album ["1:3"])).document.attributes.map Attributes.id).Nodup := by decide
  refine ⟨hd, rfl, fun h => ?_⟩
  have hdisc : .bare "1:3" "Disc" .ellipse ∈ (opening (.album ["1:3"])).document.fillables :=
    List.mem_singleton.2 rfl
  have hpicture :
      picture? (fun _ _ => .ok ⟨#[7, 1]⟩) .profile 100 (.bare "1:3" "Disc" .ellipse) = some ⟨#[7, 1]⟩ := rfl
  have hnew : (opening (.album ["1:3"])).document.Lacks (Digest.fingerprint ⟨#[7, 1]⟩) := by decide +kernel
  have hfills : ∀ a ∈ (opening (.album ["1:3"])).document.fillables, a.fills.isSome = false := by decide +kernel
  obtain ⟨b, hb, hsome, -⟩ :=
    exists_fills_of_leavesNothing hd (Document.answersByNode_coe _ _) h hdisc hpicture hnew
  rw [hfills b hb] at hsome
  cases hsome

end Editor

end DesignCanvas
