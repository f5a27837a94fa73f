import DesignCanvas.Document.Style
import DesignCanvas.Document.Images
import DesignCanvas.Json.Reader
import DesignCanvas.Json.Printer

/-!
# Canvas documents

A document is a forest of nodes with a selection, shared styles, the families of fonts that cannot be loaded and
the registered images. It is all that is kept in a file.
-/

namespace DesignCanvas

open Json

/-- A canvas document. -/
structure Document where
  nodes : List Node
  selection : List String
  styles : List Style
  unavailableFonts : List String
  images : Images
  deriving Inhabited

namespace Document

def ofNodes (nodes : List Node) : Document :=
  { nodes, selection := [], styles := [], unavailableFonts := [], images := .empty }

/-- The first node with an id, parents before their children. -/
def find? (d : Document) (id : String) : Option Node :=
  Forest.find? (Attributes.hasId id) d.nodes

def attributes (d : Document) : List Attributes :=
  Forest.labels d.nodes

/-- The selected nodes, without the ids that no node has. -/
def roots (d : Document) : List Node :=
  d.selection.filterMap d.find?

/-- The document with other attributes at the first node that has an id. -/
def setAttributes (d : Document) (id : String) (a : Attributes) : Document :=
  { d with nodes := (Forest.modify? (Attributes.hasId id) (fun _ => a) d.nodes).getD d.nodes }

def style? (d : Document) (id : String) : Option Style :=
  d.styles.find? fun s => s.id == id

def styleNamed? (d : Document) (name : String) : Option Style :=
  d.styles.find? fun s => s.name == name

/-- The name of a style, or its id if there is no such style. -/
def styleName (d : Document) (id : String) : String :=
  ((d.style? id).map Style.name).getD id

/-! ## The file of a document -/

/-- A document as a record; all five of its parts are written. -/
def toJson (d : Document) : Json :=
  .obj [("nodes", .arr (Forest.toJson d.nodes)), ("selection", .strings d.selection),
    ("styles", .arr (d.styles.map Style.toJson)), ("unavailableFonts", .strings d.unavailableFonts),
    ("images", d.images.toJson)]

/-- Reads a document, of which only the nodes have to be there. -/
def ofJson? (v : Json) : Option Document := do
  let f ← record? ["nodes", "selection", "styles", "unavailableFonts", "images"] 1 v
  let nodes ← f.required "nodes" nodesOfJson?
  let selection ← f.defaulted "selection" (list? string?) []
  let styles ← f.defaulted "styles" (list? Style.ofJson?) []
  let unavailableFonts ← f.defaulted "unavailableFonts" (list? string?) []
  let images ← f.defaulted "images" Images.ofJson? .empty
  return { nodes, selection, styles, unavailableFonts, images }

def parse? (text : String) : Option Document :=
  (Json.parse? text).bind ofJson?

def write (d : Document) : String :=
  d.toJson.pretty

end Document

end DesignCanvas
