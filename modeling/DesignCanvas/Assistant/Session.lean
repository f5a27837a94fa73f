import DesignCanvas.Json.Printer
import DesignCanvas.Json.Reader
import DesignCanvas.Json.Record

/-!
# Session state

What an assistant remembers from one run to the next, and the file that it is kept in. A file that is not there or
says nothing of use counts as a file of nothing.
-/

namespace DesignCanvas

open Json

/-- What is remembered between runs. -/
structure SessionState where
  /-- The name of the field that was counted last. -/
  lastField : Option String
  deriving DecidableEq, Repr

namespace SessionState

def empty : SessionState :=
  ⟨none⟩

def toJson (s : SessionState) : Json :=
  .obj [("last_focused_field", orNull .str s.lastField)]

def ofJson? (v : Json) : Option SessionState := do
  let f ← record? ["last_focused_field"] 0 v
  let lastField ← f.optional "last_focused_field" string?
  return ⟨lastField⟩

def write (s : SessionState) : String :=
  s.toJson.pretty

def ofText (text : String) : SessionState :=
  ((Json.parse? text).bind ofJson?).getD empty

end SessionState

/-- What can be done with a file. -/
structure Access where
  readable : Bool
  writable : Bool
  deriving DecidableEq, Repr

def Access.full : Access :=
  ⟨true, true⟩

/-- The place where the state is kept. -/
inductive SessionFile where
  /-- The state is not kept. -/
  | off
  /-- A file with its text, or without one if it is not there or holds no text. -/
  | file (access : Access) (text : Option String)
  deriving DecidableEq, Repr

namespace SessionFile

def text? : SessionFile → Option String
  | file access text => if access.readable then text else none
  | off => none

def load (f : SessionFile) : SessionState :=
  (f.text?.map SessionState.ofText).getD .empty

/-- The place after a state has been put there, where that can be done. It does not become readable by that. -/
def save (s : SessionState) : SessionFile → SessionFile
  | file access text => file access (if access.writable then some s.write else text)
  | off => off

end SessionFile

end DesignCanvas
