/-!
# Sources of pictures

Where the bytes of pictures come from, and how a picture can fail to come.
-/

namespace DesignCanvas

/-- Why a picture did not come. -/
inductive FetchError where
  | transport (reason : String)
  | status (url : String) (code : Nat)
  | empty (url : String)
  deriving DecidableEq, Repr

def FetchError.message : FetchError → String
  | transport reason => s!"image request failed: {reason}"
  | status url code => s!"image server returned HTTP {code} for {url}"
  | empty url => s!"image response from {url} was empty"

/-- A source gives the bytes of the picture at an address. -/
abbrev ImageSource := String → Except FetchError ByteArray

/-- A source that may answer anew each time that it is asked, the same address too. -/
structure ChangingSource where
  /-- What it answers once it has been asked a number of times. -/
  after : Nat → ImageSource

instance : Coe ImageSource ChangingSource :=
  ⟨fun source => ⟨fun _ => source⟩⟩

/-- The source once it has been asked a number of times. -/
def ChangingSource.drop (count : Nat) (source : ChangingSource) : ChangingSource :=
  ⟨fun n => source.after (count + n)⟩

end DesignCanvas
