import DesignCanvas.CommandLine.Help
import DesignCanvas.CommandLine.Run
import Std.Time.DateTime.Timestamp

/-!
# The program

The command line with the files of the disk, the standard streams and the clock.
-/

namespace DesignCanvas.CommandLine

open DesignCanvas

/-- What went wrong with a file. -/
def faultOf (error : IO.Error) : FileFault :=
  match error with
  | .noFileOrDirectory .. => .missing
  | .inappropriateType _ code _ => if code = 20 then .notDirectory else .isDirectory
  | error => .other (toString error)

def attempt (action : IO α) : IO (Except FileFault α) := do
  match ← action.toBaseIO with
  | .ok a => return .ok a
  | .error error => return .error (faultOf error)

def disk : Files IO where
  read path := attempt (IO.FS.readFile path)
  write path text := attempt (IO.FS.writeFile path text)
  append path text := attempt (IO.FS.withFile path .append fun h => h.putStr text)

/-- The milliseconds since the epoch. -/
def clock : IO Nat := do
  return (← Std.Time.Timestamp.now).toMillisecondsSinceUnixEpoch.toInt.toNat

/-- There is no connection to fetch pictures over. -/
def offline : ImageSource := fun _ =>
  .error (.transport "no connection")

/-- What is said of a line that is no request. -/
def complaint (line : String) : String :=
  s!"no request in {line.length} characters"

def printNow (text : String) : IO Unit := do
  let out ← IO.getStdout
  out.putStr text
  out.flush

/-- Answers the lines of the input until its end. -/
partial def serveInput (input : IO.FS.Stream) (desk : Desk) : IO Desk := do
  let line ← input.getLine
  if line.isEmpty then return desk
  let (desk, replies) ← desk.answerAll disk clock (Assistant.requestLines line)
  for reply in replies do
    printNow reply.response.line
  serveInput input desk

/-- Does the task of an invocation; gives the desk after it, and whether it succeeded. -/
def perform (i : Invocation) (desk : Desk) : IO (Except Failure (Desk × Bool)) := do
  match ← requestOf disk i.task with
  | .error failure => return .error failure
  | .ok (some r) =>
    let (desk, reply) ← desk.handle disk clock r
    printNow reply.response.render
    return .ok (desk, reply.response.isSuccess)
  | .ok none => return .ok (← serveInput (← IO.getStdin) desk, true)

def abort (message : String) : IO UInt32 := do
  IO.eprintln ("Error: " ++ message)
  return 1

/-- Carries out an invocation; gives the exit code. -/
def execute (i : Invocation) : IO UInt32 := do
  let c ← readConfiguration disk i
  match ← openDesk disk offline complaint i c with
  | .error failure => abort failure.message
  | .ok desk =>
    match ← perform i desk with
    | .error failure => abort failure.message
    | .ok (desk, success) =>
      let saved ← if i.write then desk.save disk else pure (.ok ())
      match saved with
      | .error fault => abort fault.message
      | .ok () => return if success then 0 else 1

def explain (usage : Usage) : IO UInt32 := do
  if usage.isFault then
    IO.eprint usage.message
    return 2
  printNow usage.message
  return 0

end DesignCanvas.CommandLine

open DesignCanvas.CommandLine in
def main (arguments : List String) : IO UInt32 :=
  match readArguments arguments with
  | .error usage => explain usage
  | .ok i => execute i
