import DesignCanvas.Editor.Batch
import DesignCanvas.Scene.Collect

/-!
# Writing texts

Steps that write text nodes. All fonts of a text are loaded first, and one that cannot be loaded leaves the text as
it was.
-/

namespace DesignCanvas

namespace Editor

/-- Loads fonts up to the first one that cannot be loaded. -/
def loadFonts (e : Editor) : List Font → Editor × Option EditError
  | [] => (e, none)
  | f :: fs =>
    match e.loadFont f with
    | .ok e => e.loadFonts fs
    | .error error => (e, some error)

end Editor

namespace Step

/-- A change to a text node with its fonts loaded before. -/
def withFonts (e : Editor) (a : Attributes) (change : Editor → Edit) : Step :=
  match e.loadFonts a.requiredFonts with
  | (e, none) => ofEdit e (change e)
  | (e, some error) => fail e error

/-- Writes the text that a rule makes of the text of a node. -/
def writeText (rule : String → String) (e : Editor) (id : String) : Step :=
  onNode e id fun a => withFonts e a fun e => e.setCharacters id (rule a.text)

end Step

/-- The ids of the texts below the selected nodes. -/
def Document.textIds (d : Document) : List String :=
  (d.roots.flatMap Tree.texts).map Tree.id

/-- The ids of the texts below the selected nodes that have `needle` in them. -/
def Document.textIdsWith (needle : String) (d : Document) : List String :=
  (d.roots.flatMap (Tree.textsWith needle)).map Tree.id

/-- Writes one text into every text below the selected nodes. -/
def Editor.writeAll (e : Editor) (operation text : String) : Batch :=
  Batch.runIds operation (Step.writeText fun _ => text) e.document.textIds e

end DesignCanvas
