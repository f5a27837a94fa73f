import DesignCanvas.Outline.Item
import DesignCanvas.Outline.Records
import DesignCanvas.Outline.Score

/-!
# Matching an outline with a design

Each item of an outline claims a text of the design, and no text is claimed twice. First every item claims the first
free text that is equal to its own; then, in the same order, every item that is left claims the first of the free
texts that are most alike to its own, if they are alike enough. What claims nothing is missing.
-/

namespace DesignCanvas

open Json

/-! ## Claims -/

/-- A text of the design with its position among them. -/
abbrev Placed := TextRecord × Nat

/-- What an item claims. -/
inductive Claim where
  | equal (text : Placed)
  | similar (text : Placed) (score : Score)
  | missing
  deriving DecidableEq, Repr

namespace Claim

def position? : Claim → Option Nat
  | equal t => some t.2
  | similar t _ => some t.2
  | missing => none

/-- Every item in turn claims the first free text that is equal to its own; gives the claims and the texts that
are still free. -/
def takeEqual (free : List Placed) : List OutlineItem → List (Option Placed) × List Placed
  | [] => ([], free)
  | i :: is =>
    let found := free.find? fun t => t.1.text == i.text
    let (claims, rest) := takeEqual (free.eraseP fun t => t.1.text == i.text) is
    (found :: claims, rest)

/-- The better of what has been found so far and another text; of equal ones the earlier. -/
def better (text : String) (best : Option (Placed × Score)) (t : Placed) : Option (Placed × Score) :=
  let score := Score.similarity text t.1.text
  match best with
  | none => some (t, score)
  | some (b, top) => if top.less score then some (t, score) else some (b, top)

/-- The first of the texts that are most alike to a given one, with its score. -/
def mostSimilar? (text : String) (free : List Placed) : Option (Placed × Score) :=
  free.foldl (better text) none

/-- Every item without a text in turn claims the first of the free texts most alike to its own, if it is alike
enough. -/
def takeSimilar (free : List Placed) : List (OutlineItem × Option Placed) → List Claim
  | [] => []
  | (_, some t) :: rest => equal t :: takeSimilar free rest
  | (i, none) :: rest =>
    match mostSimilar? i.text free with
    | none => missing :: takeSimilar free rest
    | some (t, score) =>
      if Score.threshold.less score then
        similar t score :: takeSimilar (free.filter fun u => u.2 != t.2) rest
      else missing :: takeSimilar free rest

/-- The claims of items on texts. -/
def ofItems (items : List OutlineItem) (records : List TextRecord) : List Claim :=
  let (claims, free) := takeEqual records.zipIdx items
  takeSimilar free (items.zip claims)

end Claim

/-! ## Results -/

/-- How an item fared. -/
inductive MatchStatus where
  | matched
  | mismatched
  | missing
  deriving DecidableEq, Repr

namespace MatchStatus

def name : MatchStatus → String
  | matched => "match"
  | mismatched => "mismatch"
  | missing => "missing"

def ofName? (s : String) : Option MatchStatus :=
  [matched, mismatched, missing].find? fun m => m.name == s

end MatchStatus

/-- What is told of an item: what was expected and, if it claimed a text, what is there. -/
structure MatchResult where
  status : MatchStatus
  label : String
  expected : String
  actual : Option String
  nodeId : Option String
  path : Option String
  similarity : Option Float
  deriving DecidableEq, Repr

namespace MatchResult

def claimed (status : MatchStatus) (i : OutlineItem) (r : TextRecord) (score : Score) : MatchResult :=
  { status, label := i.label, expected := i.text, actual := some r.text, nodeId := some r.nodeId
    path := some r.path, similarity := some score.toFloat }

def ofClaim (i : OutlineItem) : Claim → MatchResult
  | .equal t => claimed .matched i t.1 .full
  | .similar t score => claimed .mismatched i t.1 score
  | .missing =>
    { status := .missing, label := i.label, expected := i.text, actual := none, nodeId := none, path := none
      similarity := none }

/-- A result as a record, in which everything is written. -/
def toJson (r : MatchResult) : Json :=
  .obj [("status", .str r.status.name), ("label", .str r.label), ("expected", .str r.expected),
    ("actual", orNull .str r.actual), ("nodeId", orNull .str r.nodeId), ("path", orNull .str r.path),
    ("similarity", orNull .float r.similarity)]

def ofJson? (v : Json) : Option MatchResult := do
  let f ← record? ["status", "label", "expected", "actual", "nodeId", "path", "similarity"] 7 v
  let status ← f.required "status" fun v => v.choice?.bind MatchStatus.ofName?
  let label ← f.required "label" string?
  let expected ← f.required "expected" string?
  let actual ← f.optional "actual" string?
  let nodeId ← f.optional "nodeId" string?
  let path ← f.optional "path" string?
  let similarity ← f.optional "similarity" float?
  return { status, label, expected, actual, nodeId, path, similarity }

end MatchResult

/-- The results of items, in their order. -/
def reconcile (items : List OutlineItem) (records : List TextRecord) : List MatchResult :=
  items.zipWith MatchResult.ofClaim (Claim.ofItems items records)

/-- How many items there are with each status. -/
structure MatchSummary where
  matched : Nat
  mismatched : Nat
  missing : Nat
  deriving DecidableEq, Repr

namespace MatchSummary

def ofResults (rs : List MatchResult) : MatchSummary :=
  let count (s : MatchStatus) := rs.countP fun r => r.status == s
  ⟨count .matched, count .mismatched, count .missing⟩

def total (s : MatchSummary) : Nat :=
  s.matched + s.mismatched + s.missing

end MatchSummary

/-- Compares the texts below the selected nodes with an outline, which has to have an item. -/
def Document.compare (d : Document) (outline defaultLabel : String) : Except Refusal (List MatchResult) := do
  let _ ← d.selectedNodes
  let items := Outline.items defaultLabel outline
  if items.isEmpty then .error .nothingToCompare else .ok (reconcile items d.textRecords)

end DesignCanvas
