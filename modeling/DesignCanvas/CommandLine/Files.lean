import DesignCanvas.Text.Search

/-!
# Files

The access to files that the program needs, and a folder of text files as a value that it can work on. A folder has no
folders in it.
-/

namespace DesignCanvas.CommandLine

open DesignCanvas

/-- Why a file cannot be used. -/
inductive FileFault where
  | missing
  | notDirectory
  | isDirectory
  | other (reason : String)
  deriving DecidableEq, Repr

def FileFault.message : FileFault → String
  | missing => "No such file or directory (os error 2)"
  | notDirectory => "Not a directory (os error 20)"
  | isDirectory => "Is a directory (os error 21)"
  | other reason => reason

/-- The access to files by their paths. -/
structure Files (m : Type → Type) where
  /-- Reads the text of a file. -/
  read : String → m (Except FileFault String)
  /-- Makes a file have a text. -/
  write : String → String → m (Except FileFault Unit)
  /-- Adds to the end of the text of a file, which may be new. -/
  append : String → String → m (Except FileFault Unit)

/-! ## Folders -/

/-- A folder: its files by name. -/
structure Folder where
  files : List (String × String)
  deriving DecidableEq, Repr, Inhabited

namespace Folder

def text? (f : Folder) (name : String) : Option String :=
  f.files.lookup name

def put (f : Folder) (name text : String) : Folder :=
  if (f.text? name).isSome then ⟨f.files.map fun e => if e.1 == name then (name, text) else e⟩
  else ⟨f.files ++ [(name, text)]⟩

/-- The parts of a path that lead somewhere. -/
def steps (path : String) : List String :=
  (((Text.splitAt '/' path.toList).map String.ofList).filter fun s => s != "" && s != ".")

/-- The name of the file that a path from the folder leads to. Paths that leave the folder lead nowhere. -/
def locate (f : Folder) (path : String) : Except FileFault String :=
  if path.isEmpty ∨ path.toList.head? = some '/' then .error .missing
  else match steps path with
    | [] => .error .isDirectory
    | [name] =>
      if name = ".." then .error .isDirectory
      else if path.toList.getLast? = some '/' ∨ path.endsWith "/." then
        .error (if (f.text? name).isSome then .notDirectory else .missing)
      else .ok name
    | name :: _ => .error (if (f.text? name).isSome then .notDirectory else .missing)

def read (f : Folder) (path : String) : Except FileFault String := do
  let name ← f.locate path
  match f.text? name with
  | some text => .ok text
  | none => .error .missing

def write (f : Folder) (path text : String) : Except FileFault Folder := do
  let name ← f.locate path
  return f.put name text

def append (f : Folder) (path text : String) : Except FileFault Folder := do
  let name ← f.locate path
  return f.put name ((f.text? name).getD "" ++ text)

/-- The outcome of a change to the folder that is at hand. -/
def change (rule : Folder → Except FileFault Folder) : StateM Folder (Except FileFault Unit) := do
  match rule (← get) with
  | .ok f =>
    set f
    return .ok ()
  | .error fault => return .error fault

/-- The access to the files of the folder that is at hand. -/
def access : Files (StateM Folder) where
  read path := do return (← get).read path
  write path text := change fun f => f.write path text
  append path text := change fun f => f.append path text

end Folder

end DesignCanvas.CommandLine
