import DesignCanvas.Json.Token

/-!
# Reading JSON

From tokens to a value. The reader goes over the tokens once with a stack of the arrays and objects that are
still open. Arrays and objects may be open 127 deep; a deeper one is broken.
-/

namespace DesignCanvas.Json

open DesignCanvas

/-- How deep arrays and objects may be nested. -/
def depthLimit : Nat := 127

/-- An array or object that is still open, with what it holds so far, the last first. A key without a value is
the key of a string with half of a surrogate pair. -/
inductive Frame where
  | items (done : List Json)
  | members (done : List (Option String × Json))
  | member (done : List (Option String × Json)) (key : Option String)

/-- What may come next. -/
inductive Phase where
  /-- A value. -/
  | value
  /-- The first item or member of what was just opened, or its end. -/
  | opened
  /-- A comma, or the end of what is open. -/
  | next
  /-- A key, after a comma. -/
  | key
  /-- The colon after a key. -/
  | colon
  /-- Nothing more. -/
  | finished (v : Json)

/-- Where the reader stands between two tokens. -/
structure Position where
  stack : List Frame
  phase : Phase

/-- The object with the given members in reverse; one with a torn key is broken. -/
def closeMembers (done : List (Option String × Json)) : Json :=
  match done.reverse.mapM fun (k, v) => k.map (·, v) with
  | some members => .obj members
  | none => .broken

/-- Puts a finished value into what is open. -/
def Position.put (v : Json) : List Frame → Option Position
  | [] => some ⟨[], .finished v⟩
  | .items done :: stack => some ⟨.items (v :: done) :: stack, .next⟩
  | .member done key :: stack => some ⟨.members ((key, v) :: done) :: stack, .next⟩
  | .members _ :: _ => none

/-- Puts a finished array or object into what is open around it, unless it is nested too deep. -/
def Position.close (v : Json) (stack : List Frame) : Option Position :=
  Position.put (if depthLimit ≤ stack.length then .broken else v) stack

/-- Takes the first token of a value. -/
def Position.start (stack : List Frame) : Token → Option Position
  | .openArray => some ⟨.items [] :: stack, .opened⟩
  | .openObject => some ⟨.members [] :: stack, .opened⟩
  | .null => Position.put .null stack
  | .bool b => Position.put (.bool b) stack
  | .str s => Position.put (match s with | some s => .str s | none => .broken) stack
  | .num n => Position.put (match n with | some n => .num n | none => .broken) stack
  | _ => none

/-- Takes one token. -/
def Position.step (p : Position) (t : Token) : Option Position :=
  match p.phase, p.stack, t with
  | .value, stack, t => Position.start stack t
  | .opened, .items _ :: stack, .closeArray => Position.close (.arr []) stack
  | .opened, .members _ :: stack, .closeObject => Position.close (.obj []) stack
  | .opened, .members done :: stack, .str key => some ⟨.member done key :: stack, .colon⟩
  | .opened, .items done :: stack, t => Position.start (.items done :: stack) t
  | .next, .items done :: stack, .comma => some ⟨.items done :: stack, .value⟩
  | .next, .items done :: stack, .closeArray => Position.close (.arr done.reverse) stack
  | .next, .members done :: stack, .comma => some ⟨.members done :: stack, .key⟩
  | .next, .members done :: stack, .closeObject => Position.close (closeMembers done) stack
  | .key, .members done :: stack, .str key => some ⟨.member done key :: stack, .colon⟩
  | .colon, stack, .colon => some ⟨stack, .value⟩
  | _, _, _ => none

/-- The value that a list of tokens denotes. -/
def ofTokens? (ts : List Token) : Option Json :=
  match ts.foldlM Position.step ⟨[], .value⟩ with
  | some ⟨_, .finished v⟩ => some v
  | _ => none

/-- The value of a JSON text. -/
def parse? (text : String) : Option Json :=
  (tokens? text.toList).bind ofTokens?

end DesignCanvas.Json
