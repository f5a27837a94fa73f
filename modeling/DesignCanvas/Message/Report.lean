import DesignCanvas.Message.Response
import DesignCanvas.Decimal.Layout

/-!
# Reports

Responses as text for a terminal: what was found out, a line for each part of it, and then the message.
-/

namespace DesignCanvas

namespace Report

def padEnd (width : Nat) (s : String) : String :=
  String.ofList (s.toList ++ List.replicate (width - s.length) ' ')

def padStart (width : Nat) (s : String) : String :=
  String.ofList (List.replicate (width - s.length) ' ' ++ s.toList)

/-! ## Layers and texts -/

def layerLine (r : LayerRow) : String :=
  s!"{padEnd 6 r.label} {r.name}  ({r.id})\n"

def oneLine (s : String) : String :=
  String.ofList (Text.replaceChar '\n' ' ' s.toList)

/-- The line of a text with its number. -/
def textLine (number : Nat) (text : String) : String :=
  s!"{padStart 3 (toString number)}. {oneLine text}\n"

def textLines (ts : List String) : List String :=
  ts.zipIdx.map fun (t, i) => textLine (i + 1) t

/-! ## Findings -/

def findingMark (f : Finding) : String :=
  if f.applied then "✓ FIXED"
  else match f.severity with
    | .ok => "✓ OK   "
    | .info => "- INFO "
    | .warning => "! WARN "

def findingLine (f : Finding) : String :=
  s!"{findingMark f}  [{f.category}] {f.name} ({f.nodeId}): {f.detail}\n"

/-- Findings, with how many of them there are, need attention and were put right. -/
def findings (fs : List Finding) : String :=
  let flagged := fs.countP Finding.needsAttention
  let fixed := fs.countP Finding.applied
  String.join (fs.map findingLine)
    ++ s!"\n=== {fs.length} inspected, {flagged} need attention, {fixed} fixed ===\n"

/-! ## Comparisons -/

def resultMark : MatchStatus → String
  | .matched => "✓ MATCH   "
  | .mismatched => "~ MISMATCH"
  | .missing => "✗ MISSING "

/-- What is there instead of what was expected, and how alike they are. -/
def actualPart (r : MatchResult) : String :=
  match r.status, r.actual with
  | .mismatched, some actual => s!" (실제: \"{actual}\", {Decimal.fixed 2 (r.similarity.getD 0.0)})"
  | _, _ => ""

def pathPart (r : MatchResult) : String :=
  match r.path with
  | some path => if path.isEmpty then "" else s!" @ {path}"
  | none => ""

def resultLine (r : MatchResult) : String :=
  s!"{resultMark r.status}  {r.label}: {r.expected}{actualPart r}{pathPart r}\n"

/-- Results, with their summary. -/
def results (rs : List MatchResult) : String :=
  let s := MatchSummary.ofResults rs
  String.join (rs.map resultLine)
    ++ s!"\n=== 일치 {s.matched}, 불일치 {s.mismatched}, 누락 {s.missing} ({s.total} total) ===\n"

end Report

/-- The report of what was found out. -/
def Payload.report : Payload → String
  | layers rows => String.join (rows.map Report.layerLine)
  | count _ => ""
  | findings fs => Report.findings fs
  | results rs => Report.results rs
  | texts ts => String.join (Report.textLines ts)

/-- A response for a terminal. -/
def Response.render (r : Response) : String :=
  let body := (r.data.map Payload.report).getD ""
  if body.isEmpty then s!"{r.message}\n" else s!"{body}\n{r.message}\n"

end DesignCanvas
