import DesignCanvas.Proofs.Assistant.History
import DesignCanvas.Proofs.Editor.Writing

/-!
# Pictures put in twice

From a source that answers the same for the same node, the picture that a node gets follows from what a picture does
not change: its id and its extent. So filling a selection is one simultaneous change of the nodes that a picture can be
put into (`Editor.history_fillTurn`). If each address has one picture for all nodes, then the same nodes get the same
pictures after that, and to fill once more answers the same and changes nothing (`Editor.fillPictures_again`).
-/

namespace DesignCanvas

namespace Attributes

/-- The picture for a node, if it comes from its source and has any bytes. Here the source may answer anew for each
node. -/
def picture? (answers : String → ImageSource) (kind : PictureKind) (smallest : Nat) (a : Attributes) :
    Option ByteArray :=
  match answers a.id (a.pictureAddress kind smallest) with
  | .ok bytes => if bytes.size = 0 then none else some bytes
  | .error _ => none

/-- The node with an image put into its fills, if it has any. -/
def withPicture (bytes : ByteArray) (a : Attributes) : Attributes :=
  match a.fills with
  | some fills => { a with fills := some (withImage (Digest.fingerprint bytes) fills), fillStyle := none }
  | none => a

/-- The node with its picture put in, if there is one for it. -/
def pictured (picture : Attributes → Option ByteArray) (a : Attributes) : Attributes :=
  (picture a).elim a fun bytes => a.withPicture bytes

/-- The node with its picture put in, if it is one of those with given ids. -/
def picturedAt (picture : Attributes → Option ByteArray) (ids : List String) (a : Attributes) : Attributes :=
  if a.id ∈ ids then a.pictured picture else a

/-- There is a picture for the node, and it has fills to put it into. -/
def takesPicture (picture : Attributes → Option ByteArray) (a : Attributes) : Bool :=
  (picture a).isSome && a.fills.isSome

/-- What is registered for the picture of a node. -/
def pictureEntry? (picture : Attributes → Option ByteArray) (a : Attributes) : Option (String × Nat) :=
  (picture a).map fun bytes => (Digest.fingerprint bytes, bytes.size)

/-- A choice of pictures that does not hang on which picture a node has. -/
def Steady (picture : Attributes → Option ByteArray) : Prop :=
  ∀ a bytes, picture (withPicture bytes a) = picture a

variable {picture : Attributes → Option ByteArray} {ids : List String} {a : Attributes}

theorem steady_picture? (answers : String → ImageSource) (kind : PictureKind) (smallest : Nat) :
    Steady (picture? answers kind smallest) := by
  intro a bytes
  unfold withPicture
  split <;> rfl

theorem id_withPicture (bytes : ByteArray) (a : Attributes) : (a.withPicture bytes).id = a.id := by
  unfold withPicture
  split <;> rfl

theorem isSome_fills_withPicture (bytes : ByteArray) (a : Attributes) :
    (a.withPicture bytes).fills.isSome = a.fills.isSome := by
  unfold withPicture
  split
  · next fills hfills => rw [hfills]; rfl
  · rfl

theorem withPicture_withPicture (bytes bytes' : ByteArray) (a : Attributes) :
    (a.withPicture bytes).withPicture bytes' = a.withPicture bytes' := by
  cases hfills : a.fills with
  | none => simp only [withPicture, hfills]
  | some fills => simp only [withPicture, hfills, withImage_withImage]

theorem isFillable_withPicture (bytes : ByteArray) (h : a.isFillable) : (a.withPicture bytes).isFillable := by
  cases hfills : a.fills with
  | none => simpa only [withPicture, hfills] using h
  | some fills => simp [isFillable, hasImageFill, withPicture, hfills, any_isImage_withImage]

/-- A node before and after a picture was put in. Only its fills are others, and they are free from a style: if there
were images among them, these show the picture in their places and all else stays, and if there were none, the picture
is all there is. -/
def Illustrated (hash : String) (before after : Attributes) : Prop :=
  ∃ ps qs, before.fills = some ps ∧ after = { before with fills := some qs, fillStyle := none } ∧
    (ps.any Paint.isImage → List.Forall₂ (Paint.Repictured hash) ps qs) ∧
    (¬ ps.any Paint.isImage → qs = [.ofImage hash])

theorem illustrated_withPicture {fills : List Paint} (h : a.fills = some fills) (bytes : ByteArray) :
    a.Illustrated (Digest.fingerprint bytes) (a.withPicture bytes) := by
  refine ⟨fills, withImage (Digest.fingerprint bytes) fills, h, ?_, forall₂_withImage _, withImage_of_none _⟩
  simp only [withPicture, h]

/-! ## The picture of a node -/

theorem picture?_eq_some {answers : String → ImageSource} {kind : PictureKind} {smallest : Nat} {bytes : ByteArray}
    (h : picture? answers kind smallest a = some bytes) :
    answers a.id (a.pictureAddress kind smallest) = .ok bytes := by
  unfold picture? at h
  split at h
  · next bytes' hsource =>
    obtain rfl := Option.some.inj (Option.ite_none_left_eq_some.1 h).2
    exact hsource
  · cases h

theorem takesPicture_iff :
    a.takesPicture picture ↔ ∃ bytes fills, picture a = some bytes ∧ a.fills = some fills := by
  rw [takesPicture, Bool.and_eq_true, Option.isSome_iff_exists, Option.isSome_iff_exists]
  exact exists_and_exists_comm

theorem pictured_of_some {bytes : ByteArray} (h : picture a = some bytes) :
    a.pictured picture = a.withPicture bytes := by
  rw [pictured, h]
  rfl

theorem pictured_of_none (h : picture a = none) : a.pictured picture = a := by
  rw [pictured, h]
  rfl

theorem picturedAt_of_mem {bytes : ByteArray} (hid : a.id ∈ ids) (h : picture a = some bytes) :
    a.picturedAt picture ids = a.withPicture bytes := by
  rw [picturedAt, if_pos hid, pictured_of_some h]

theorem picturedAt_of_none (h : picture a = none) : a.picturedAt picture ids = a := by
  rw [picturedAt, pictured_of_none h, ite_self]

theorem id_pictured (a : Attributes) : (a.pictured picture).id = a.id := by
  unfold pictured
  cases picture a with
  | none => rfl
  | some bytes => exact id_withPicture bytes a

theorem picture_pictured (hsteady : Steady picture) (a : Attributes) : picture (a.pictured picture) = picture a := by
  unfold pictured
  cases hpicture : picture a with
  | none => exact hpicture
  | some bytes => exact (hsteady a bytes).trans hpicture

theorem pictured_pictured (hsteady : Steady picture) (a : Attributes) :
    (a.pictured picture).pictured picture = a.pictured picture := by
  conv_lhs => rw [pictured, picture_pictured hsteady]
  unfold pictured
  cases picture a with
  | none => rfl
  | some bytes => exact withPicture_withPicture bytes bytes a

theorem id_picturedAt (a : Attributes) : (a.picturedAt picture ids).id = a.id := by
  unfold picturedAt
  split
  · exact id_pictured a
  · rfl

theorem picture_picturedAt (hsteady : Steady picture) (a : Attributes) :
    picture (a.picturedAt picture ids) = picture a := by
  unfold picturedAt
  split
  · exact picture_pictured hsteady a
  · rfl

theorem takesPicture_picturedAt (hsteady : Steady picture) (a : Attributes) :
    (a.picturedAt picture ids).takesPicture picture = a.takesPicture picture := by
  have hfills : (a.picturedAt picture ids).fills.isSome = a.fills.isSome := by
    unfold picturedAt pictured
    split
    · cases picture a with
      | none => rfl
      | some bytes => exact isSome_fills_withPicture bytes a
    · rfl
  rw [takesPicture, picture_picturedAt hsteady, hfills]
  rfl

theorem isFillable_picturedAt (h : a.id ∈ ids → a.isFillable) :
    (a.picturedAt picture ids).isFillable = a.isFillable := by
  unfold picturedAt pictured
  split
  · next hid =>
    cases picture a with
    | none => rfl
    | some bytes => exact (isFillable_withPicture bytes (h hid)).trans (h hid).symm
  · rfl

theorem picturedAt_picturedAt (hsteady : Steady picture) (ids ids' : List String) (a : Attributes) :
    (a.picturedAt picture ids).picturedAt picture ids' = a.picturedAt picture (ids ++ ids') := by
  conv_lhs => rw [picturedAt, id_picturedAt]
  unfold picturedAt
  by_cases hids : a.id ∈ ids
  · simp [hids, pictured_pictured hsteady]
  · by_cases hids' : a.id ∈ ids' <;> simp [hids, hids']

end Attributes

/-! ## Pictures in a document -/

open Attributes (Steady picture?)

/-- The document with pictures put into some of its nodes. -/
def Document.pictured (picture : Attributes → Option ByteArray) (d : Document) (as : List Attributes) : Document :=
  { d with
    nodes := Forest.map (Attributes.picturedAt picture (as.map Attributes.id)) d.nodes
    images := d.images.insertAll (as.filterMap (Attributes.pictureEntry? picture)) }

namespace Document

variable {picture : Attributes → Option ByteArray} {d : Document} {a : Attributes}

theorem pictured_nil : d.pictured picture [] = d :=
  congrArg (fun nodes => { d with nodes }) (Forest.map_eq_self fun _ _ => rfl)

theorem attributes_pictured (as : List Attributes) :
    (d.pictured picture as).attributes = d.attributes.map (Attributes.picturedAt picture (as.map Attributes.id)) :=
  Forest.labels_map ..

theorem ids_pictured (as : List Attributes) :
    (d.pictured picture as).attributes.map Attributes.id = d.attributes.map Attributes.id := by
  rw [attributes_pictured, List.map_map]
  exact List.map_congr_left fun a _ => Attributes.id_picturedAt a

theorem pictured_append (hsteady : Steady picture) (as bs : List Attributes) :
    (d.pictured picture as).pictured picture (bs.map (Attributes.picturedAt picture (as.map Attributes.id))) =
      d.pictured picture (as ++ bs) := by
  have hids : (bs.map (Attributes.picturedAt picture (as.map Attributes.id))).map Attributes.id =
      bs.map Attributes.id := by
    rw [List.map_map]
    exact List.map_congr_left fun a _ => Attributes.id_picturedAt a
  have hentries : (bs.map (Attributes.picturedAt picture (as.map Attributes.id))).filterMap
      (Attributes.pictureEntry? picture) = bs.filterMap (Attributes.pictureEntry? picture) := by
    rw [List.filterMap_map]
    refine List.filterMap_congr fun a _ => ?_
    rw [Function.comp_apply, Attributes.pictureEntry?, Attributes.picture_picturedAt hsteady]
    rfl
  have hnodes : Forest.map (Attributes.picturedAt picture (bs.map Attributes.id))
      (Forest.map (Attributes.picturedAt picture (as.map Attributes.id)) d.nodes) =
        Forest.map (Attributes.picturedAt picture ((as ++ bs).map Attributes.id)) d.nodes := by
    rw [Forest.map_map, List.map_append]
    exact Forest.map_congr fun a _ => Attributes.picturedAt_picturedAt hsteady _ _ a
  rw [pictured, pictured, hids, hentries, hnodes, ← Images.insertAll_append, ← List.filterMap_append]
  rfl

theorem pictured_twice (as : List Attributes) : d.pictured picture (as ++ as) = d.pictured picture as := by
  have hnodes : Forest.map (Attributes.picturedAt picture ((as ++ as).map Attributes.id)) d.nodes =
      Forest.map (Attributes.picturedAt picture (as.map Attributes.id)) d.nodes :=
    Forest.map_congr fun a _ => by simp [Attributes.picturedAt]
  rw [pictured, pictured, hnodes, List.filterMap_append, Images.insertAll_append, Images.insertAll_insertAll]

theorem pictured_one (d : Document) (a : Attributes) :
    d.pictured picture [a] = { d with
      nodes := Forest.map (fun b => if b.id = a.id then b.pictured picture else b) d.nodes
      images := d.images.insertAll (a.pictureEntry? picture).toList } := by
  have hnodes : Forest.map (Attributes.picturedAt picture ([a].map Attributes.id)) d.nodes =
      Forest.map (fun b => if b.id = a.id then b.pictured picture else b) d.nodes :=
    Forest.map_congr fun b _ => by simp [Attributes.picturedAt]
  rw [pictured, hnodes]
  cases hentry : a.pictureEntry? picture <;> simp [hentry]

theorem pictured_one_of_self (hd : (d.attributes.map Attributes.id).Nodup) (ha : a ∈ d.attributes)
    (hself : a.pictured picture = a) :
    d.pictured picture [a] = { d with images := d.images.insertAll (a.pictureEntry? picture).toList } := by
  have hnodes : Forest.map (fun b => if b.id = a.id then b.pictured picture else b) d.nodes = d.nodes := by
    refine Forest.map_eq_self fun b hb => ?_
    split
    · next hid => rw [eq_of_id hd hb ha hid, hself]
    · rfl
  rw [pictured_one, hnodes]

end Document

/-! ## Nodes one after another -/

namespace Step

variable {e : Editor} {a : Attributes}

theorem putImage_pictured {picture : Attributes → Option ByteArray} {bytes : ByteArray}
    (hd : (e.document.attributes.map Attributes.id).Nodup) (ha : a ∈ e.document.attributes)
    (hbytes : bytes.size ≠ 0) (hpicture : picture a = some bytes) :
    (putImage bytes a e).editor.document = e.document.pictured picture [a] ∧
      ((putImage bytes a e).verdict = .ok true ↔ a.fills.isSome) := by
  have hentry : a.pictureEntry? picture = some (Digest.fingerprint bytes, bytes.size) := by
    rw [Attributes.pictureEntry?, hpicture]
    rfl
  have hpictured : a.pictured picture = a.withPicture bytes := Attributes.pictured_of_some hpicture
  rw [putImage, Editor.addImage, if_neg hbytes]
  dsimp only
  cases hfills : a.fills with
  | none =>
    have hself : a.pictured picture = a := by
      rw [hpictured]
      simp only [Attributes.withPicture, hfills]
    rw [Editor.setFills, Editor.change_eq (by exact hd) (by exact ha), if_neg (by simp [hfills]),
      Document.pictured_one_of_self hd ha hself, hentry]
    exact ⟨rfl, nofun, nofun⟩
  | some fills =>
    have hrule : (if a.fills.isSome then
        Except.ok { a with fills := some (withImage (Digest.fingerprint bytes) fills), fillStyle := none }
        else Except.error (EditError.unsupported a.id .fills)) = Except.ok (a.pictured picture) := by
      rw [hpictured]
      simp only [Attributes.withPicture, hfills, Option.isSome_some, if_true]
    rw [Editor.setFills, Option.getD_some, Editor.change_eq_ok (by exact hd) (by exact ha) hrule,
      Document.pictured_one, hentry]
    exact ⟨rfl, fun _ => rfl, fun _ => rfl⟩

theorem fillPicture_pictured (answers : String → ImageSource) (kind : PictureKind) (smallest : Nat)
    (hd : (e.document.attributes.map Attributes.id).Nodup) (ha : a ∈ e.document.attributes) :
    let s := fillPicture (answers a.id) kind smallest e a.id
    s.editor.document = e.document.pictured (picture? answers kind smallest) [a] ∧
      Taken.succeeded ⟨a.id, e, s⟩ = a.takesPicture (picture? answers kind smallest) := by
  have hnone (hpicture : picture? answers kind smallest a = none) :
      e.document = e.document.pictured (picture? answers kind smallest) [a] ∧
        false = a.takesPicture (picture? answers kind smallest) := by
    have hself := Attributes.pictured_of_none hpicture
    rw [Document.pictured_one_of_self hd ha hself, Attributes.pictureEntry?, Attributes.takesPicture, hpicture]
    exact ⟨rfl, rfl⟩
  dsimp only
  rw [fillPicture, onNode_eq hd ha]
  dsimp only
  cases hsource : answers a.id (a.pictureAddress kind smallest) with
  | error x => exact hnone (by rw [picture?, hsource])
  | ok bytes =>
    by_cases hempty : bytes.size = 0
    · simp only [putImage, Editor.addImage, if_pos hempty]
      exact hnone (by simp only [picture?, hsource, if_pos hempty])
    · have hpicture : picture? answers kind smallest a = some bytes := by
        simp only [picture?, hsource, if_neg hempty]
      obtain ⟨hdocument, hverdict⟩ := putImage_pictured hd ha hempty hpicture
      refine ⟨hdocument, ?_⟩
      rw [Attributes.takesPicture, hpicture, Bool.eq_iff_iff, Taken.succeeded_iff]
      exact hverdict

end Step

/-- Turns for nodes put in the pictures of all of them, and those succeed whose nodes take them, if what the source
answers in a turn is its answer for the node. -/
theorem Editor.history_fillTurn {source : ChangingSource} {answers : String → ImageSource} (kind : PictureKind)
    (smallest : Nat) {d : Document} {e : Editor} {done : List Attributes} {turns : List (Attributes × Nat)}
    (hd : (d.attributes.map Attributes.id).Nodup)
    (hturns : ∀ t ∈ turns, t.1 ∈ d.attributes ∧ source.after t.2 = answers t.1.id)
    (he : e.document = d.pictured (picture? answers kind smallest) done) :
    let taken := Batch.history Prod.fst (Step.fillTurn source kind smallest) e (turns.map (Prod.map Attributes.id id))
    (Batch.last e taken).document = d.pictured (picture? answers kind smallest) (done ++ turns.map Prod.fst) ∧
      taken.map (fun t => (t.node, t.succeeded)) =
        turns.map fun t => (t.1.id, t.1.takesPicture (picture? answers kind smallest)) := by
  have hsteady := Attributes.steady_picture? answers kind smallest
  -- the document after some turns is the first one with the pictures of `done`, which leave the ids and all pictures
  induction turns generalizing done e with
  | nil => exact ⟨he.trans (by rw [List.map_nil, List.append_nil]), rfl⟩
  | cons t turns ih =>
    obtain ⟨a, n⟩ := t
    obtain ⟨⟨ha, hanswers⟩, hrest⟩ := List.forall_mem_cons.1 hturns
    set now := a.picturedAt (picture? answers kind smallest) (done.map Attributes.id) with hnow
    have hid : now.id = a.id := Attributes.id_picturedAt a
    have hd' : (e.document.attributes.map Attributes.id).Nodup := by rwa [he, Document.ids_pictured]
    have hmem : now ∈ e.document.attributes := by
      rw [he, Document.attributes_pictured]
      exact List.mem_map_of_mem ha
    obtain ⟨hstep, hsucceeded⟩ := Step.fillPicture_pictured answers kind smallest hd' hmem
    have hturn : Step.fillTurn source kind smallest e (a.id, n) = Step.fillPicture (answers a.id) kind smallest e a.id :=
      congrArg (Step.fillPicture · kind smallest e a.id) hanswers
    rw [hid, ← hturn] at hstep hsucceeded
    rw [he] at hstep
    have hnext := hstep.trans (Document.pictured_append hsteady done [a])
    obtain ⟨hlast, hmap⟩ := ih hrest hnext
    refine ⟨hlast.trans (by rw [List.append_assoc]; rfl), ?_⟩
    rw [List.map_cons, Batch.history, List.map_cons, List.map_cons]
    exact congrArg₂ List.cons
      (congrArg (Prod.mk a.id) (hsucceeded.trans (Attributes.takesPicture_picturedAt hsteady a))) hmap

/-! ## Filling again -/

theorem Tree.fillable_map {g : Attributes → Attributes} {n : Node}
    (hg : ∀ a ∈ n.labels, (g a).isFillable = a.isFillable) : (n.map g).fillable = n.fillable.map (Tree.map g) := by
  have hall : (n.map g).all = n.all.map (Tree.map g) := reached_map (fun _ => rfl) n
  rw [fillable, fillable, hall, List.filter_map]
  refine congrArg _ (List.filter_congr fun m hm => ?_)
  rw [Function.comp_apply, Tree.label_map]
  exact hg m.label (label_mem_of_reached hm)

namespace Document

variable {picture : Attributes → Option ByteArray} {d : Document}

/-- The attributes of the nodes below the selected ones that a picture can be put into. -/
def fillables (d : Document) : List Attributes :=
  (d.roots.flatMap Tree.fillable).map Tree.label

theorem ids_fillables (d : Document) : d.fillables.map Attributes.id = d.fillableIds :=
  List.map_map

theorem fillables_subset (d : Document) : d.fillables ⊆ d.attributes := by
  intro a ha
  obtain ⟨n, hn, rfl⟩ := List.mem_map.1 ha
  obtain ⟨root, hroot, hn⟩ := List.mem_flatMap.1 hn
  exact mem_attributes_of_reached hroot (List.mem_filter.1 hn).1

/-- A source always answers the same for the same node. -/
def AnswersByNode (d : Document) (source : ChangingSource) (answers : String → ImageSource) : Prop :=
  ∀ t ∈ d.fillables.zipIdx, source.after t.2 = answers t.1.id

theorem answersByNode_coe (d : Document) (source : ImageSource) : d.AnswersByNode source fun _ => source :=
  fun _ _ => rfl

theorem isFillable_of_mem {a : Attributes} (ha : a ∈ d.fillables) : a.isFillable := by
  obtain ⟨n, hn, rfl⟩ := List.mem_map.1 ha
  obtain ⟨root, -, hn⟩ := List.mem_flatMap.1 hn
  exact (List.mem_filter.1 hn).2

theorem roots_pictured (as : List Attributes) :
    (d.pictured picture as).roots =
      d.roots.map (Tree.map (Attributes.picturedAt picture (as.map Attributes.id))) :=
  roots_map (fun a => Attributes.id_picturedAt a) rfl rfl

theorem fillables_pictured (hd : (d.attributes.map Attributes.id).Nodup) :
    (d.pictured picture d.fillables).fillables =
      d.fillables.map (Attributes.picturedAt picture (d.fillables.map Attributes.id)) := by
  have hfillable : ∀ a ∈ d.attributes,
      (a.picturedAt picture (d.fillables.map Attributes.id)).isFillable = a.isFillable := by
    exact fun a ha => Attributes.isFillable_picturedAt fun hid =>
      isFillable_of_mem ((id_mem_ids_iff hd d.fillables_subset ha).1 hid)
  rw [fillables, roots_pictured, List.flatMap_map]
  have hroots : ∀ root ∈ d.roots,
      (root.map (Attributes.picturedAt picture (d.fillables.map Attributes.id))).fillable =
        root.fillable.map (Tree.map (Attributes.picturedAt picture (d.fillables.map Attributes.id))) :=
    fun root hroot => Tree.fillable_map fun a ha => hfillable a (mem_attributes_of_root hroot ha)
  rw [List.flatMap_congr hroots, ← List.map_flatMap, List.map_map, fillables, List.map_map, List.map_map]
  exact List.map_congr_left fun n _ => Tree.label_map ..

theorem fillableIds_pictured (hd : (d.attributes.map Attributes.id).Nodup) :
    (d.pictured picture d.fillables).fillableIds = d.fillableIds := by
  rw [← ids_fillables, ← ids_fillables, fillables_pictured hd, List.map_map]
  exact List.map_congr_left fun a _ => Attributes.id_picturedAt a

theorem pictured_fillables (hsteady : Steady picture) (hd : (d.attributes.map Attributes.id).Nodup) :
    (d.pictured picture d.fillables).pictured picture (d.pictured picture d.fillables).fillables =
      d.pictured picture d.fillables := by
  rw [fillables_pictured hd, pictured_append hsteady, pictured_twice]

end Document

namespace Editor

/-- The steps of a filling with pictures. -/
def pictureSteps (e : Editor) (source : ChangingSource) (kind : PictureKind) (smallest : Nat) : List Taken :=
  Batch.history Prod.fst (Step.fillTurn source kind smallest) e e.document.fillableIds.zipIdx

section

variable (source : ChangingSource) (kind : PictureKind) (smallest : Nat) {answers : String → ImageSource} {e : Editor}

theorem fillPictures_eq (e : Editor) :
    let n := (e.pictureSteps source kind smallest).countP Taken.succeeded
    (e.fillPictures source kind smallest).editor = Batch.last e (e.pictureSteps source kind smallest) ∧
      (e.fillPictures source kind smallest).answer =
        if e.document.roots = [] then .error .emptySelection
        else if e.document.fillableIds = [] then .error .nothingToFill
        else if n = 0 then .error .nothingFilled
        else .ok ⟨n, s!"{n}개의 레이어에 이미지를 적용했습니다."⟩ := by
  dsimp only
  rw [fillPictures, onSelection_eq]
  by_cases hroots : e.document.roots = []
  · have hids : e.document.fillableIds = [] := by
      rw [Document.fillableIds, hroots]
      rfl
    rw [if_pos hroots, if_pos hroots, pictureSteps, hids]
    exact ⟨rfl, rfl⟩
  · have hempty : ((e.document.roots.flatMap Tree.fillable).map Tree.id).isEmpty ↔ e.document.fillableIds = [] :=
      List.isEmpty_iff
    rw [if_neg hroots, if_neg hroots]
    dsimp only
    by_cases hids : e.document.fillableIds = []
    · rw [if_pos (hempty.2 hids), if_pos hids, pictureSteps, hids]
      exact ⟨rfl, rfl⟩
    · rw [if_neg (mt hempty.1 hids), if_neg hids, Batch.run_eq]
      exact ⟨rfl, rfl⟩

theorem pictureSteps_eq (e : Editor) :
    e.pictureSteps source kind smallest = Batch.history Prod.fst (Step.fillTurn source kind smallest) e
      (e.document.fillables.zipIdx.map (Prod.map Attributes.id id)) := by
  rw [pictureSteps, ← Document.ids_fillables, List.zipIdx_map]

/-- A filling puts in the pictures of all nodes that it is for, and its steps succeed for those that take theirs. -/
theorem fillPictures_pictured (hd : (e.document.attributes.map Attributes.id).Nodup)
    (hanswers : e.document.AnswersByNode source answers) :
    (e.fillPictures source kind smallest).editor.document =
        e.document.pictured (picture? answers kind smallest) e.document.fillables ∧
      (e.pictureSteps source kind smallest).map (fun t => (t.node, t.succeeded)) =
        e.document.fillables.map fun a => (a.id, a.takesPicture (picture? answers kind smallest)) := by
  have hfirst : e.document = e.document.pictured (picture? answers kind smallest) [] := Document.pictured_nil.symm
  have hturns : ∀ t ∈ e.document.fillables.zipIdx, t.1 ∈ e.document.attributes ∧ source.after t.2 = answers t.1.id :=
    fun t ht => ⟨e.document.fillables_subset (List.fst_mem_of_mem_zipIdx ht), hanswers t ht⟩
  obtain ⟨hlast, hsteps⟩ := history_fillTurn kind smallest hd hturns hfirst
  rw [List.nil_append, List.zipIdx_map_fst, ← pictureSteps_eq] at hlast
  rw [← pictureSteps_eq] at hsteps
  refine ⟨by rw [(e.fillPictures_eq source kind smallest).1, hlast], hsteps.trans ?_⟩
  conv_rhs => rw [← List.zipIdx_map_fst 0 e.document.fillables, List.map_map]
  rfl

theorem countP_pictureSteps (hd : (e.document.attributes.map Attributes.id).Nodup)
    (hanswers : e.document.AnswersByNode source answers) :
    (e.pictureSteps source kind smallest).countP Taken.succeeded =
      e.document.fillables.countP (Attributes.takesPicture (picture? answers kind smallest)) := by
  have hcount := congrArg (List.countP Prod.snd) (fillPictures_pictured source kind smallest hd hanswers).2
  rwa [List.countP_map, List.countP_map] at hcount

end

variable (source : ImageSource) (kind : PictureKind) (smallest : Nat) {e : Editor}

/-- What a filling answers hangs on the nodes that it is for and on their pictures, which it does not change. -/
theorem answer_fillPictures_again (hd : (e.document.attributes.map Attributes.id).Nodup) :
    ((e.fillPictures source kind smallest).editor.fillPictures source kind smallest).answer =
      (e.fillPictures source kind smallest).answer := by
  have hsteady := Attributes.steady_picture? (fun _ => source) kind smallest
  have hdocument := (fillPictures_pictured source kind smallest hd (e.document.answersByNode_coe source)).1
  set e' := (e.fillPictures source kind smallest).editor
  have hd' : (e'.document.attributes.map Attributes.id).Nodup := by rwa [hdocument, Document.ids_pictured]
  have hroots : e'.document.roots = [] ↔ e.document.roots = [] := by
    rw [hdocument, Document.roots_pictured, List.map_eq_nil_iff]
  have hids : e'.document.fillableIds = e.document.fillableIds := by
    rw [hdocument, Document.fillableIds_pictured hd]
  have hcount : (e'.pictureSteps source kind smallest).countP Taken.succeeded =
      (e.pictureSteps source kind smallest).countP Taken.succeeded := by
    rw [countP_pictureSteps _ kind smallest hd' (e'.document.answersByNode_coe source),
      countP_pictureSteps _ kind smallest hd (e.document.answersByNode_coe source), hdocument,
      Document.fillables_pictured hd, List.countP_map]
    exact List.countP_congr fun a _ => by rw [Function.comp_apply, Attributes.takesPicture_picturedAt hsteady]
  rw [(e'.fillPictures_eq source kind smallest).2, (e.fillPictures_eq source kind smallest).2, hids, hcount]
  exact if_congr hroots rfl rfl

theorem illustrated_of_mem_pictureSteps (hd : (e.document.attributes.map Attributes.id).Nodup) {t : Taken}
    (ht : t ∈ e.pictureSteps source kind smallest) (hsucceeded : t.succeeded) :
    ∃ a ∈ e.document.attributes, ∃ b ∈ (e.fillPictures source kind smallest).editor.document.attributes, ∃ bytes,
      a.id = t.node ∧ source (a.pictureAddress kind smallest) = .ok bytes ∧
        a.Illustrated (Digest.fingerprint bytes) b := by
  obtain ⟨hdocument, hsteps⟩ := fillPictures_pictured source kind smallest hd (e.document.answersByNode_coe source)
  have hmem := List.mem_map_of_mem (f := fun t : Taken => (t.node, t.succeeded)) ht
  rw [hsteps] at hmem
  obtain ⟨a, ha, heq⟩ := List.mem_map.1 hmem
  obtain ⟨hid, htakes⟩ := Prod.mk.inj heq
  obtain ⟨bytes, fills, hpicture, hfills⟩ := Attributes.takesPicture_iff.1 (htakes.trans hsucceeded)
  have hpictured : a.picturedAt (picture? (fun _ => source) kind smallest) (e.document.fillables.map Attributes.id) =
      a.withPicture bytes := Attributes.picturedAt_of_mem (List.mem_map_of_mem ha) hpicture
  refine ⟨a, e.document.fillables_subset ha, a.withPicture bytes, ?_, bytes, hid, Attributes.picture?_eq_some hpicture,
    Attributes.illustrated_withPicture hfills bytes⟩
  rw [hdocument, Document.attributes_pictured, ← hpictured]
  exact List.mem_map_of_mem (e.document.fillables_subset ha)

/-- A filling leaves each node that it changes with its picture in place of the images among its fills, or alone if
there are none, and all else as it was. To fill once more answers the same and changes nothing. -/
theorem fillPictures_again (e : Editor) (hd : (e.document.attributes.map Attributes.id).Nodup) :
    let r := e.fillPictures source kind smallest
    let r' := r.editor.fillPictures source kind smallest
    let steps := e.pictureSteps source kind smallest
    r'.answer = r.answer ∧ r'.editor.document = r.editor.document ∧ r.editor = Batch.last e steps ∧
      ∀ t ∈ steps, t.succeeded → ∃ a ∈ e.document.attributes, ∃ b ∈ r.editor.document.attributes, ∃ bytes,
        a.id = t.node ∧ source (a.pictureAddress kind smallest) = .ok bytes ∧
          a.Illustrated (Digest.fingerprint bytes) b := by
  intro r r' steps
  have hdocument := (fillPictures_pictured source kind smallest hd (e.document.answersByNode_coe source)).1
  have hd' : (r.editor.document.attributes.map Attributes.id).Nodup := by rwa [hdocument, Document.ids_pictured]
  have hdocument' := (fillPictures_pictured source kind smallest hd' (r.editor.document.answersByNode_coe source)).1
  refine ⟨answer_fillPictures_again source kind smallest hd, hdocument'.trans ?_,
    (e.fillPictures_eq source kind smallest).1, fun t ht => illustrated_of_mem_pictureSteps source kind smallest hd ht⟩
  rw [hdocument, Document.pictured_fillables (Attributes.steady_picture? (fun _ => source) kind smallest) hd]

end Editor

/-- A board with a photograph of several paints, a frame that is named for a picture and a dot without fills. Selected
are the board, the photograph and no node. -/
def Document.moodboard : Document where
  nodes := [.branch (.bare "1:1" "Board" .frame)
    [.leaf { Attributes.bare "1:2" "Photo" .rectangle with
      fills := some [.ofColor ⟨1.0, 1.0, 1.0⟩, .image "a1" .crop false 0.5, .gradientLinear, .ofImage "b2"]
      fillStyle := some "S:1" },
    .leaf { Attributes.bare "1:3" "Avatar" .frame with fills := some [.ofColor ⟨0.0, 0.0, 0.0⟩, .gradientRadial] },
    .leaf (.bare "1:4" "Dot" .ellipse)]]
  selection := ["1:1", "1:2", "9:9"]
  styles := []
  unavailableFonts := []
  images := (Images.empty.insert "b2" 20).insert "a1" 10

namespace Editor

/-- The photograph is filled twice, since it is selected and on the board, and the dot cannot be filled. -/
theorem fillPictures_again_moodboard :
    let source : ImageSource := fun _ => .ok ⟨#[7, 1]⟩
    let e := opening .moodboard
    let r := e.fillPictures source .food 1
    let r' := r.editor.fillPictures source .food 1
    let steps := e.pictureSteps source .food 1
    (e.document.attributes.map Attributes.id).Nodup ∧
      (steps.filter Taken.succeeded).map Taken.node = ["1:2", "1:3", "1:2"] ∧
      r'.answer = r.answer ∧ r'.editor.document = r.editor.document ∧ r.editor = Batch.last e steps ∧
      ∀ t ∈ steps, t.succeeded → ∃ a ∈ e.document.attributes, ∃ b ∈ r.editor.document.attributes, ∃ bytes,
        a.id = t.node ∧ source (a.pictureAddress .food 1) = .ok bytes ∧
          a.Illustrated (Digest.fingerprint bytes) b := by
  have hd : ((opening .moodboard).document.attributes.map Attributes.id).Nodup := by decide
  exact ⟨hd, by decide +kernel, fillPictures_again _ .food 1 _ hd⟩

end Editor

end DesignCanvas
