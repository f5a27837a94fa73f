import DesignCanvas.Filling.Pictures
import Mathlib.Data.List.Forall2

/-!
# Pictures among paints

The images that paints show, by their fingerprints, and what becomes of them when paints change: to recolour or to
paint shows no other images, and to put in an image shows this one alone (`hashes_withImage`). An image takes the place
of the pictures one by one and leaves all other paints alone (`forall₂_withImage`), so of several that are put in one
after another only the last one is left (`withImage_withImage`).
-/

namespace DesignCanvas

namespace Paint

def hash? : Paint → Option String
  | .image hash .. => some hash
  | _ => none

/-- The fingerprints of the images that paints show. -/
def hashes (ps : List Paint) : List String :=
  ps.filterMap hash?

@[simp] theorem isImage_reimage (hash : String) (p : Paint) : (p.reimage hash).isImage = p.isImage := by
  cases p <;> rfl

@[simp] theorem reimage_reimage (hash hash' : String) (p : Paint) :
    (p.reimage hash').reimage hash = p.reimage hash := by
  cases p <;> rfl

theorem hash?_reimage {hash hash' : String} {p : Paint} (h : (p.reimage hash).hash? = some hash') :
    hash' = hash := by
  cases p with
  | image => exact (Option.some.inj h).symm
  | solid | gradientLinear | gradientRadial | unsupported => cases h

@[simp] theorem hash?_recolor (c : Color) (p : Paint) : (p.recolor c).hash? = p.hash? := by
  cases p <;> rfl

@[simp] theorem hashes_recolor (c : Color) (ps : List Paint) : hashes (ps.map (recolor c)) = hashes ps := by
  rw [hashes, List.filterMap_map]
  exact congrArg (fun f => ps.filterMap f) (funext (hash?_recolor c))

end Paint

open Paint

theorem hashes_paintedIn (c : Color) (ps : List Paint) : hashes (Step.paintedIn c ps) ⊆ hashes ps := by
  unfold Step.paintedIn
  split
  · exact List.Subset.refl _
  · exact List.nil_subset _

/-! ## Putting an image in -/

theorem hashes_withImage {hash hash' : String} {ps : List Paint} (h : hash' ∈ hashes (withImage hash ps)) :
    hash' = hash := by
  unfold withImage at h
  obtain ⟨p, hp, hhash⟩ := List.mem_filterMap.1 h
  split at hp
  · obtain ⟨q, -, rfl⟩ := List.mem_map.1 hp
    exact hash?_reimage hhash
  · rw [List.mem_singleton.1 hp] at hhash
    exact (Option.some.inj hhash).symm

/-- A paint before and after another image was put into all pictures. -/
inductive Paint.Repictured (hash : String) : Paint → Paint → Prop
  | picture (earlier : String) (mode : ScaleMode) (visible : Bool) (opacity : Float) :
      Repictured hash (.image earlier mode visible opacity) (.image hash mode visible opacity)
  | other (p : Paint) (plain : ¬ p.isImage) : Repictured hash p p

theorem Paint.repictured_reimage (hash : String) (p : Paint) : Repictured hash p (p.reimage hash) := by
  cases p with
  | image earlier mode visible opacity => exact .picture earlier mode visible opacity
  | solid | gradientLinear | gradientRadial | unsupported => exact .other _ nofun

theorem forall₂_withImage (hash : String) {ps : List Paint} (h : ps.any isImage) :
    List.Forall₂ (Repictured hash) ps (withImage hash ps) := by
  rw [withImage, if_pos h, List.forall₂_map_right_iff, List.forall₂_same]
  exact fun p _ => repictured_reimage hash p

theorem withImage_of_none (hash : String) {ps : List Paint} (h : ¬ ps.any isImage) :
    withImage hash ps = [.ofImage hash] :=
  if_neg h

theorem any_isImage_withImage (hash : String) (ps : List Paint) : (withImage hash ps).any isImage := by
  by_cases h : ps.any isImage
  · rw [withImage, if_pos h, List.any_map]
    simpa [Function.comp_def] using h
  · rw [withImage_of_none hash h]
    rfl

theorem mem_hashes_withImage (hash : String) (ps : List Paint) : hash ∈ hashes (withImage hash ps) := by
  obtain ⟨p, hp, himage⟩ := List.any_eq_true.1 (any_isImage_withImage hash ps)
  cases p with
  | image shown mode visible opacity =>
    have hshown : shown ∈ hashes (withImage hash ps) := List.mem_filterMap.2 ⟨_, hp, rfl⟩
    rwa [hashes_withImage hshown] at hshown
  | solid | gradientLinear | gradientRadial | unsupported => cases himage

theorem withImage_withImage (hash hash' : String) (ps : List Paint) :
    withImage hash (withImage hash' ps) = withImage hash ps := by
  rw [withImage, if_pos (any_isImage_withImage hash' ps)]
  by_cases h : ps.any isImage
  · rw [withImage, withImage, if_pos h, if_pos h, List.map_map]
    exact List.map_congr_left fun p _ => reimage_reimage hash hash' p
  · rw [withImage_of_none hash' h, withImage_of_none hash h]
    rfl

end DesignCanvas
