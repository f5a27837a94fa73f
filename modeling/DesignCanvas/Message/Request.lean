import DesignCanvas.Audit.Kind
import DesignCanvas.Filling.Field
import DesignCanvas.Selection.Naming

/-!
# Requests

What an assistant can be asked for, and how requests stand in JSON: as records that name their kind.
-/

namespace DesignCanvas

open Json

/-- A request. -/
inductive Request where
  /-- Read a command and carry it out. -/
  | command (text : String)
  | summary
  | layers
  | rename (changes : List Renaming)
  | renameSelected (name : String)
  | renameByRole
  | fillTexts (value : String)
  | fillFields (fields : List Field)
  /-- Fill with pictures of a kind, given by any word. -/
  | fillPictures (kind : String)
  | countNamed (name : String)
  /-- Audit the selection, and put right what can be if `fix` says so. -/
  | audit (kind : AuditKind) (fix : Bool)
  | compare (outline : String)
  | selectNode (id : String)
  | selectNodes (ids : List String)
  | spelling
  deriving DecidableEq, Repr

namespace Request

/-- The name of the operation that is asked for. -/
def operation : Request → String
  | command _ => "execute-command"
  | summary => "get-selection-info"
  | layers => "load-layers"
  | rename _ => "rename-layers"
  | renameSelected _ => "rename-selected"
  | renameByRole => "auto-rename"
  | fillTexts _ => "apply-dummy-data"
  | fillFields _ => "random-fill"
  | fillPictures _ => "apply-image-fill"
  | countNamed _ => "count-matching"
  | audit _ _ => "scan-design-system"
  | compare _ => "compare-with-notion"
  | selectNode _ => "select-node"
  | selectNodes _ => "select-multiple"
  | spelling => "spell-check"

/-- The kind of a request, a phrase of capitalized words. -/
def kind : Request → String
  | command _ => "ExecuteCommand"
  | summary => "GetSelectionInfo"
  | layers => "LoadLayers"
  | rename _ => "RenameLayers"
  | renameSelected _ => "RenameSelected"
  | renameByRole => "AutoRename"
  | fillTexts _ => "ApplyDummyData"
  | fillFields _ => "RandomFill"
  | fillPictures _ => "ApplyImageFill"
  | countNamed _ => "CountMatching"
  | audit _ _ => "ScanDesignSystem"
  | compare _ => "CompareWithNotion"
  | selectNode _ => "SelectNode"
  | selectNodes _ => "SelectMultiple"
  | spelling => "SpellCheck"

/-- A phrase of capitalized words in lower case, with a dash before every word but the first. -/
def dashed (phrase : String) : String :=
  let letters := phrase.toList
  String.ofList ((letters.take 1).map Char.toLower
    ++ (letters.drop 1).flatMap fun c => if c.isUpper then ['-', c.toLower] else [c])

/-- The kind of a request as it is written. -/
def tag (r : Request) : String :=
  dashed r.kind

def members : Request → List (String × Json)
  | command text => [("command", .str text)]
  | rename changes => [("changes", .arr (changes.map Renaming.toJson))]
  | renameSelected name => [("namingType", .str name)]
  | fillTexts value => [("value", .str value)]
  | fillFields fields => [("fields", .arr (fields.map Field.toJson))]
  | fillPictures kind => [("kind", .str kind)]
  | countNamed name => [("fieldName", .str name)]
  | audit kind fix => [("kind", .str kind.name), ("fix", .bool fix)]
  | compare outline => [("outline", .str outline)]
  | selectNode id => [("id", .str id)]
  | selectNodes ids => [("ids", .strings ids)]
  | summary | layers | renameByRole | spelling => []

def toJson (r : Request) : Json :=
  .obj (("type", .str r.tag) :: r.members)

/-- Reads a request that has one field. -/
def ofField? (name : String) (f : Json → Option α) (request : α → Request) (v : Json) : Option Request := do
  let r ← record? [name] 1 v
  let a ← r.required name f
  return request a

def ofBare? (request : Request) (v : Json) : Option Request :=
  if v.isBare then some request else none

def auditOfJson? (v : Json) : Option Request := do
  let r ← record? ["kind", "fix"] 1 v
  let kind ← r.required "kind" AuditKind.ofJson?
  let fix ← r.defaulted "fix" bool? false
  return .audit kind fix

/-- Reads the contents of a request of a kind. -/
def ofContents? (tag : String) (v : Json) : Option Request :=
  match tag with
  | "execute-command" => ofField? "command" string? .command v
  | "get-selection-info" => ofBare? .summary v
  | "load-layers" => ofBare? .layers v
  | "rename-layers" => ofField? "changes" (list? Renaming.ofJson?) .rename v
  | "rename-selected" => ofField? "namingType" string? .renameSelected v
  | "auto-rename" => ofBare? .renameByRole v
  | "apply-dummy-data" => ofField? "value" string? .fillTexts v
  | "random-fill" => ofField? "fields" (list? Field.ofJson?) .fillFields v
  | "apply-image-fill" => ofField? "kind" string? .fillPictures v
  | "count-matching" => ofField? "fieldName" string? .countNamed v
  | "scan-design-system" => auditOfJson? v
  | "compare-with-notion" => ofField? "outline" string? .compare v
  | "select-node" => ofField? "id" string? .selectNode v
  | "select-multiple" => ofField? "ids" (list? string?) .selectNodes v
  | "spell-check" => ofBare? .spelling v
  | _ => none

def ofJson? (v : Json) : Option Request := do
  let (tag, rest) ← tagged? "type" v
  ofContents? tag rest

end Request

end DesignCanvas
