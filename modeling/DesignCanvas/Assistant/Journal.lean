import DesignCanvas.Json.Printer
import DesignCanvas.Message.Response

/-!
# The journal

A journal has an entry for every request that was handled, the latest last.
-/

namespace DesignCanvas

open Json

/-- What the journal says of a request. -/
structure JournalEntry where
  operation : String
  status : Status
  changed : Option Nat
  message : String
  deriving DecidableEq, Repr

namespace JournalEntry

/-- The entry for the response to a request. -/
def ofResponse (r : Response) : JournalEntry :=
  ⟨r.operation, r.status, r.changed, r.message⟩

def members (e : JournalEntry) : List (String × Json) :=
  [("operation", .str e.operation), ("status", .str e.status.name), ("changed", orNull .nat e.changed),
    ("message", .str e.message)]

/-- An entry as a line of text, with the milliseconds since the epoch when it was made. -/
def line (time : Nat) (e : JournalEntry) : String :=
  (Json.obj (("timestamp_ms", .nat time) :: e.members)).compact ++ "\n"

end JournalEntry

/-- The place of the entries. -/
inductive Journal where
  | off
  /-- A journal that nothing can be added to. -/
  | closed
  | entries (es : List JournalEntry)
  deriving DecidableEq, Repr

namespace Journal

/-- The journal with another entry, where one can be added. -/
def record (e : JournalEntry) : Journal → Journal
  | entries es => entries (es ++ [e])
  | closed => closed
  | off => off

def toList : Journal → List JournalEntry
  | entries es => es
  | closed | off => []

end Journal

end DesignCanvas
