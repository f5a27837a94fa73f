import DesignCanvas.Filling.Field
import DesignCanvas.Json.Record
import DesignCanvas.Outline.Item
import DesignCanvas.Selection.Naming
import DesignCanvas.Yaml.Reader

/-!
# Configuration

What a file in YAML can say: how the program is configured, the fields that texts are filled from and the renamings of
layers. A configuration that does not fit counts as none.
-/

namespace DesignCanvas

/-- How the program is configured. -/
structure Configuration where
  /-- How many seconds a picture may take to come. -/
  timeout : Nat
  /-- The smallest edge of a picture. -/
  smallestEdge : Nat
  defaultLabel : String
  /-- The file that the session state is kept in. -/
  statePath : Option String
  journalPath : Option String
  deriving DecidableEq, Repr

namespace Configuration

/-- What holds without a configuration. -/
def default : Configuration :=
  { timeout := 10, smallestEdge := 100, defaultLabel := Outline.defaultLabel, statePath := none
    journalPath := none }

/-- Reads an entry of a group of settings, where the group and the entry may be left out. -/
def setting (groups : List (String × Yaml)) (group : String) (names : List String) (name : String)
    (f : Yaml → Option α) (default : α) : Option α :=
  match groups.lookup group with
  | none => some default
  | some v => do
    let entries ← v.entries? names
    Yaml.defaulted entries name f default

/-- One more than the longest timeout, which is a number of 64 bits. -/
def timeoutLimit : Nat := 0x10000000000000000

/-- One more than the largest edge, which is a number of 32 bits. -/
def edgeLimit : Nat := 0x100000000

def imageNames : List String :=
  ["timeout_secs", "min_size"]

/-- Reads a configuration. -/
def ofYaml? (v : Yaml) : Option Configuration := do
  let groups ← v.entries? ["image", "outline", "session", "journal"]
  let timeout ← setting groups "image" imageNames "timeout_secs" (Yaml.natBelow? timeoutLimit) default.timeout
  let smallestEdge ← setting groups "image" imageNames "min_size" (Yaml.natBelow? edgeLimit) default.smallestEdge
  let defaultLabel ← setting groups "outline" ["default_label"] "default_label" Yaml.text? default.defaultLabel
  let statePath ← setting groups "session" ["state_path"] "state_path" Yaml.optionalText? none
  let journalPath ← setting groups "journal" ["path"] "path" Yaml.optionalText? none
  return { timeout, smallestEdge, defaultLabel, statePath, journalPath }

def ofText (text : String) : Configuration :=
  ((Yaml.parse? text).bind ofYaml?).getD default

end Configuration

/-! ## Lists -/

def Field.ofYaml? (v : Yaml) : Option Field := do
  let entries ← v.entries? ["name", "description", "values"]
  let name ← Yaml.required entries "name" Yaml.text?
  let description ← Yaml.defaulted entries "description" Yaml.text? ""
  let values ← Yaml.required entries "values" (Yaml.list? Yaml.text?)
  return { name, description, values, cursor := 0 }

def Field.listOfText? (text : String) : Option (List Field) :=
  (Yaml.parse? text).bind (Yaml.list? Field.ofYaml?)

def Renaming.ofYaml? (v : Yaml) : Option Renaming := do
  let entries ← v.entries? ["id", "name"]
  let id ← Yaml.required entries "id" Yaml.text?
  let name ← Yaml.required entries "name" Yaml.text?
  return ⟨id, name⟩

def Renaming.listOfText? (text : String) : Option (List Renaming) :=
  (Yaml.parse? text).bind (Yaml.list? Renaming.ofYaml?)

end DesignCanvas
