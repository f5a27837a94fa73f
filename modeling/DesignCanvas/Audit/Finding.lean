import DesignCanvas.Json.Record

/-!
# Findings

What an audit says about a node.
-/

namespace DesignCanvas

open Json

/-- How serious a finding is. -/
inductive Severity where
  | ok
  | info
  | warning
  deriving DecidableEq, Repr

namespace Severity

def name : Severity → String
  | ok => "ok"
  | info => "info"
  | warning => "warning"

def ofName? (s : String) : Option Severity :=
  [ok, info, warning].find? fun x => x.name == s

end Severity

/-- What an audit says about a node. -/
structure Finding where
  nodeId : String
  name : String
  category : String
  detail : String
  /-- What was found has been put right. -/
  applied : Bool
  severity : Severity
  deriving DecidableEq, Repr

namespace Finding

/-- A warning about something that has not been put right. -/
def needsAttention (f : Finding) : Bool :=
  f.severity == .warning && !f.applied

def toJson (f : Finding) : Json :=
  .obj [("nodeId", .str f.nodeId), ("name", .str f.name), ("category", .str f.category),
    ("detail", .str f.detail), ("applied", .bool f.applied), ("severity", .str f.severity.name)]

def ofJson? (v : Json) : Option Finding := do
  let f ← record? ["nodeId", "name", "category", "detail", "applied", "severity"] 6 v
  let nodeId ← f.required "nodeId" string?
  let name ← f.required "name" string?
  let category ← f.required "category" string?
  let detail ← f.required "detail" string?
  let applied ← f.required "applied" bool?
  let severity ← f.required "severity" fun v => v.choice?.bind Severity.ofName?
  return { nodeId, name, category, detail, applied, severity }

end Finding

end DesignCanvas
