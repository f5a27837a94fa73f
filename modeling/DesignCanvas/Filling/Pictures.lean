import DesignCanvas.Editor.Steps
import DesignCanvas.Text.Blank

/-!
# Filling with pictures

Every node that a picture can be put into gets one of the wanted kind, in its own size. Which picture it is follows
from the id of the node, so that filling again gives the same pictures.
-/

namespace DesignCanvas

/-- The kinds of pictures. -/
inductive PictureKind where
  | profile
  | cover
  | post
  | product
  | nature
  | food
  | other
  deriving DecidableEq, Repr

namespace PictureKind

def name : PictureKind → String
  | profile => "profile"
  | cover => "cover"
  | post => "post"
  | product => "product"
  | nature => "nature"
  | food => "food"
  | other => "other"

/-- The kind with a name, blanks around it and letter case aside; any unknown name is that of other pictures. -/
def ofName (s : String) : PictureKind :=
  let wanted := Text.lowered (Text.trimmed s)
  ([profile, cover, post, product, nature, food].find? fun k => k.name == wanted).getD other

end PictureKind

/-! ## Addresses -/

/-- The numbers of the portraits that profile pictures are taken from. -/
def portraits : List Nat :=
  [1, 5, 9, 16, 20, 25, 32, 36, 41, 47]

def portraitAddress (seed : Nat) : String :=
  s!"https://i.pravatar.cc/300?img={portraits.getD (seed % portraits.length) 0}"

def photoAddress (topic : String) (seed width height : Nat) : String :=
  s!"https://picsum.photos/seed/{topic}{seed}/{width}/{height}"

def largestEdge : Nat := 0xffffffff

/-- The edge of a picture for an edge of a node, at least `smallest`. -/
def pictureEdge (x : Float) (smallest : Nat) : Nat :=
  max (Decimal.clampedNat x largestEdge) smallest

/-- The address of the picture for a node with a given extent. -/
def pictureAddress (kind : PictureKind) (width height : Float) (seed smallest : Nat) : String :=
  let photo (topic : String) :=
    photoAddress topic seed (pictureEdge width smallest) (pictureEdge height smallest)
  match kind with
  | .profile => portraitAddress seed
  | .cover | .other => photo ""
  | .post => photo "post"
  | .product => photo "product"
  | .nature => photo "nature"
  | .food => photo "food"

/-- How many different pictures nodes of one kind and extent can get. -/
def seedCount : Nat := 1000

def Attributes.pictureAddress (a : Attributes) (kind : PictureKind) (smallest : Nat) : String :=
  DesignCanvas.pictureAddress kind a.width a.height (Digest.seed a.id seedCount) smallest

/-! ## Filling -/

/-- Fills with an image: it takes the place of the pictures among them, or of all of them if there is none. -/
def withImage (hash : String) (fills : List Paint) : List Paint :=
  if fills.any Paint.isImage then fills.map (Paint.reimage hash) else [.ofImage hash]

namespace Step

/-- Registers an image and puts it into a node. -/
def putImage (bytes : ByteArray) (a : Attributes) (e : Editor) : Step :=
  match e.addImage bytes with
  | .error error => fail e error
  | .ok (e, hash) => ofEdit e (e.setFills a.id (withImage hash (a.fills.getD [])))

/-- Fetches the picture for a node and puts it in. -/
def fillPicture (source : ImageSource) (kind : PictureKind) (smallest : Nat) (e : Editor) (id : String) : Step :=
  onNode e id fun a =>
    let url := a.pictureAddress kind smallest
    match source url with
    | .error error => { editor := e, verdict := .error (.fetch error), urls := [url], made := [] }
    | .ok bytes => { putImage bytes a e with urls := [url] }

/-- Fetches the picture for a node after those for some number of others, and puts it in. -/
def fillTurn (source : ChangingSource) (kind : PictureKind) (smallest : Nat) (e : Editor) (turn : String × Nat) :
    Step :=
  fillPicture (source.after turn.2) kind smallest e turn.1

end Step

/-- Fills every node below the selected ones that a picture can be put into. -/
def Editor.fillPictures (e : Editor) (source : ChangingSource) (kind : PictureKind) (smallest : Nat) :
    Result Outcome :=
  e.onSelection fun ns =>
    let targets := (ns.flatMap Tree.fillable).map Tree.id
    if targets.isEmpty then .refuse e .nothingToFill
    else
      (Batch.run "apply_image_fill" Prod.fst (Step.fillTurn source kind smallest) targets.zipIdx e).finish
        .nothingFilled fun n => s!"{n}개의 레이어에 이미지를 적용했습니다."

end DesignCanvas
