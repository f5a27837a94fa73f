import DesignCanvas.Audit.Finding
import DesignCanvas.Outline.Matching
import DesignCanvas.Selection.Layers

/-!
# Responses

What an assistant answers: whether the operation succeeded, a message, and what was found out.
-/

namespace DesignCanvas

open Json

/-- Whether an operation succeeded. -/
inductive Status where
  | success
  | error
  deriving DecidableEq, Repr

namespace Status

def name : Status → String
  | success => "success"
  | error => "error"

def ofName? (s : String) : Option Status :=
  [success, error].find? fun x => x.name == s

end Status

/-! ## What was found out -/

/-- What an operation found out. -/
inductive Payload where
  | layers (rows : List LayerRow)
  | count (c : NameCount)
  | findings (fs : List Finding)
  | results (rs : List MatchResult)
  | texts (ts : List String)
  deriving DecidableEq, Repr

namespace Payload

/-- The name of what was found out. -/
def kind : Payload → String
  | layers _ => "layers"
  | count _ => "count"
  | findings _ => "findings"
  | results _ => "matches"
  | texts _ => "texts"

def items : Payload → Json
  | layers rows => .arr (rows.map LayerRow.toJson)
  | count c => c.toJson
  | findings fs => .arr (fs.map Finding.toJson)
  | results rs => .arr (rs.map MatchResult.toJson)
  | texts ts => .strings ts

/-- A payload as a record of its name and contents. -/
def toJson (p : Payload) : Json :=
  .obj [("kind", .str p.kind), ("items", p.items)]

def ofItems? (kind : String) (v : Json) : Option Payload :=
  match kind with
  | "layers" => (list? LayerRow.ofJson? v).map layers
  | "count" => (NameCount.ofJson? v).map count
  | "findings" => (list? Finding.ofJson? v).map findings
  | "matches" => (list? MatchResult.ofJson? v).map results
  | "texts" => (list? string? v).map texts
  | _ => none

/-- Says that the name of the contents is given before them. -/
def nameFirst (r : Record) : Bool :=
  (r.fields.find? fun m => m.1 == "kind" || m.1 == "items").any fun m => m.1 == "kind"

/-- Reads a payload. Contents that come before their name have to be sound. -/
def ofJson? (v : Json) : Option Payload := do
  let r ← record? ["kind", "items"] 2 v
  let kind ← r.required "kind" choice?
  let items ← r.get? "items"
  if nameFirst r || items.sound then ofItems? kind items else none

end Payload

/-! ## Responses -/

/-- A response. -/
structure Response where
  operation : String
  status : Status
  message : String
  /-- How many nodes were changed, where that is what the operation is for. -/
  changed : Option Nat
  data : Option Payload
  deriving DecidableEq, Repr

namespace Response

def success (operation message : String) : Response :=
  { operation, status := .success, message, changed := none, data := none }

def error (operation message : String) : Response :=
  { operation, status := .error, message, changed := none, data := none }

def isSuccess (r : Response) : Bool :=
  r.status == .success

def toJson (r : Response) : Json :=
  .obj ([("operation", .str r.operation), ("status", .str r.status.name), ("message", .str r.message)]
    ++ optionalMember "changed" .nat r.changed
    ++ optionalMember "data" Payload.toJson r.data)

def ofJson? (v : Json) : Option Response := do
  let f ← record? ["operation", "status", "message", "changed", "data"] 3 v
  let operation ← f.required "operation" string?
  let status ← f.required "status" fun v => v.choice?.bind Status.ofName?
  let message ← f.required "message" string?
  let changed ← f.optional "changed" nat?
  let data ← f.optional "data" Payload.ofJson?
  return { operation, status, message, changed, data }

end Response

end DesignCanvas
