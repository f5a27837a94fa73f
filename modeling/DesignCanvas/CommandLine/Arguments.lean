import DesignCanvas.Audit.Kind
import DesignCanvas.Text.Search

/-!
# Arguments

What the arguments of the program ask for. Some options may be given before the name of the task or after it, others
belong to a task; what is given after the name counts more. A value that was begun is only looked at when the next
option is known or the arguments are at their end, so that a fault in what comes after it is reported first.
-/

namespace DesignCanvas.CommandLine

open DesignCanvas

/-- What the program is to do. Files are given by their paths. -/
inductive Task where
  | exec (words : List String)
  | info
  | layers
  | renameByRole
  | rename (plan : String)
  | renameSelected (name : String)
  | fillTexts (value : String)
  | fillFields (fields : String)
  | fillPictures (kind : String)
  | countNamed (field : String)
  | audit (kind : AuditKind) (fix : Bool)
  | compare (outline : String)
  | spelling
  | serve
  deriving DecidableEq, Repr

/-- Why arguments ask for nothing that can be done. -/
inductive Usage where
  | help
  | version
  | nothingGiven
  | missingTask
  | unknownTask
  | unknownArgument
  | missingArgument
  | missingValue
  | needlessValue
  | repeated
  | badValue
  deriving DecidableEq, Repr

/-! ## Forms -/

/-- How many words a task takes that are no options. From the first of any number of words on, everything is one. -/
inductive Arity where
  | none
  | one
  | any
  deriving DecidableEq, Repr

/-- What may be given before the name of a task, or after the name of a certain one. -/
structure Form where
  /-- The names of tasks that may come, none after the name of a task. -/
  tasks : List String
  arity : Arity
  /-- The words that are no value. -/
  refuses : String → Bool
  /-- The options with a value that may be given once. -/
  single : List String
  /-- The options without a value that may be given once. -/
  marks : List String

def commonSingle : List String :=
  ["config", "doc", "journal"]

def selectOption : String := "select"

def countOption : String := "verbose"

/-- The form of a task. -/
def Form.ofTask (arity : Arity) (refuses : String → Bool) (single marks : List String) : Form :=
  { tasks := [], arity, refuses, single := commonSingle ++ single, marks := "write" :: marks }

def anyWord (_ : String) : Bool :=
  false

def noAudit (word : String) : Bool :=
  match AuditKind.ofWord word with
  | .ok _ => false
  | .error _ => true

/-- The tasks by name, with their forms. -/
def taskForms : List (String × Form) :=
  [("exec", .ofTask .any anyWord [] []), ("info", .ofTask .none anyWord [] []),
    ("layers", .ofTask .none anyWord [] []), ("auto-rename", .ofTask .none anyWord [] []),
    ("rename-layers", .ofTask .none anyWord ["plan"] []), ("rename", .ofTask .one anyWord [] []),
    ("fill", .ofTask .one anyWord [] []), ("random-fill", .ofTask .none anyWord ["fields"] []),
    ("image-fill", .ofTask .one anyWord [] []), ("count", .ofTask .one anyWord [] []),
    ("audit", .ofTask .one noAudit [] ["fix"]), ("compare", .ofTask .none anyWord ["outline"] []),
    ("spell-check", .ofTask .none anyWord [] []), ("serve", .ofTask .none anyWord [] [])]

/-- The name under which help is asked for like a task. -/
def helpTask : String := "help"

/-- What may be given before the name of a task. -/
def Form.beforeTask : Form :=
  { tasks := helpTask :: taskForms.map Prod.fst, arity := .none, refuses := anyWord, single := commonSingle
    marks := ["write"] }

/-! ## What was given -/

/-- A part of the arguments that has been looked at. -/
inductive Given where
  | count
  | mark (name : String)
  | single (name value : String)
  | select (ids : List String)
  | word (text : String)
  deriving DecidableEq, Repr

/-- A value that was begun: that of an option, which may still have to come, or a word. -/
inductive Begun where
  | option (name : String) (value : Option String)
  | word (text : String)

/-- How far the arguments have been read. -/
structure Progress where
  /-- What was given, the last first. -/
  given : List Given
  begun : Option Begun
  /-- Everything that comes is a word. -/
  wordsOnly : Bool
  /-- How many words there are. -/
  words : Nat

namespace Progress

def start : Progress :=
  ⟨[], none, false, 0⟩

/-- Adds what was given. What may be given once is refused the second time. -/
def add (p : Progress) (g : Given) : Progress :=
  { p with given := g :: p.given }

def hasSingle (p : Progress) (name : String) : Bool :=
  p.given.any fun g => match g with
    | .single n _ => n == name
    | _ => false

def addOption (p : Progress) (name value : String) : Except Usage Progress :=
  if name = selectOption then .ok (p.add (.select ((Text.splitAt ',' value.toList).map String.ofList)))
  else if p.hasSingle name then .error .repeated
  else .ok (p.add (.single name value))

/-- Looks at the value that was begun. -/
def settle (form : Form) (p : Progress) : Except Usage Progress :=
  let q := { p with begun := none }
  match p.begun with
  | none => .ok q
  | some (.option _ none) => .error .missingValue
  | some (.option name (some value)) => q.addOption name value
  | some (.word text) => if form.refuses text then .error .badValue else .ok (q.add (.word text))

def addMark (form : Form) (p : Progress) (name : String) : Except Usage Progress := do
  let p ← p.settle form
  if p.given.contains (.mark name) then .error .repeated else .ok (p.add (.mark name))

def addCount (form : Form) (p : Progress) : Except Usage Progress := do
  let p ← p.settle form
  return p.add .count

def ask (form : Form) (p : Progress) (usage : Usage) : Except Usage α := do
  let _ ← p.settle form
  .error usage

def long (form : Form) (p : Progress) (name : String) (attached : Option String) : Except Usage Progress :=
  if form.single.contains name || name = selectOption then
    match attached with
    | some value => do
      let p ← p.settle form
      p.addOption name value
    | none => do
      let p ← p.settle form
      return { p with begun := some (.option name none) }
  else if name = "help" || name = countOption || form.marks.contains name
      || (name = "version" && !form.tasks.isEmpty) then
    if attached.isSome then .error .needlessValue
    else if name = "help" then p.ask form .help
    else if name = "version" then p.ask form .version
    else if name = countOption then p.addCount form
    else p.addMark form name
  else .error .unknownArgument

def short (form : Form) (p : Progress) : List Char → Except Usage Progress
  | [] => .ok p
  | 'v' :: cs => do
    let p ← p.addCount form
    p.short form cs
  | 'h' :: _ => p.ask form .help
  | 'V' :: _ => if form.tasks.isEmpty then .error .unknownArgument else p.ask form .version
  | _ => .error .unknownArgument

def word (form : Form) (p : Progress) (text : String) : Except Usage Progress :=
  match form.arity with
  | .none =>
    if form.tasks.isEmpty || form.tasks.contains text then .error .unknownArgument else .error .unknownTask
  | .one =>
    if p.words ≠ 0 then .error .unknownArgument
    else do
      let p ← p.settle form
      return { p with begun := some (.word text), words := 1 }
  | .any => do
    let p ← p.settle form
    return { p with begun := some (.word text), words := p.words + 1, wordsOnly := true }

/-- Says that the value of an option has to come. -/
def awaits? (p : Progress) : Option String :=
  match p.begun with
  | some (.option name none) => some name
  | _ => none

/-- The name and the attached value of an option with a long name, without the dashes. -/
def longParts (s : List Char) : String × Option String :=
  match Text.splitFirst? '=' s with
  | some (name, value) => (String.ofList name, some (String.ofList value))
  | none => (String.ofList s, none)

def take (form : Form) (p : Progress) (argument : String) : Except Usage Progress :=
  if p.wordsOnly then p.word form argument
  else match argument.toList with
    | ['-', '-'] => .ok { p with wordsOnly := true }
    | '-' :: '-' :: s => p.long form (longParts s).1 (longParts s).2
    | '-' :: c :: s => p.short form (c :: s)
    | _ =>
      match p.awaits? with
      | some name => .ok { p with begun := some (.option name (some argument)) }
      | none => p.word form argument

/-- What was given at the end of the arguments. -/
def finish (form : Form) (p : Progress) : Except Usage (List Given) := do
  let p ← p.settle form
  return p.given.reverse

end Progress

/-- Reads the arguments after the name of a task. -/
def readTask (form : Form) (p : Progress) : List String → Except Usage (List Given)
  | [] => p.finish form
  | a :: as => do
    let p ← p.take form a
    readTask form p as

/-! ## Meaning -/

def wordOf? (gs : List Given) : Option String :=
  gs.findSome? fun g => match g with
    | .word text => some text
    | _ => none

def wordsOf (gs : List Given) : List String :=
  gs.filterMap fun g => match g with
    | .word text => some text
    | _ => none

def singleOf? (gs : List Given) (name : String) : Option String :=
  gs.findSome? fun g => match g with
    | .single n value => if n == name then some value else none
    | _ => none

def selectOf? (gs : List Given) : Option (List String) :=
  let lists := gs.filterMap fun g => match g with
    | .select ids => some ids
    | _ => none
  if lists.isEmpty then none else some lists.flatten

def countOf? (gs : List Given) : Option Nat :=
  let n := gs.count .count
  if n = 0 then none else some (min n 255)

def needed : Option α → Except Usage α
  | some a => .ok a
  | none => .error .missingArgument

/-- The task with a name. -/
def Task.ofGiven (name : String) (gs : List Given) : Except Usage Task :=
  match name with
  | "exec" => (needed (wordOf? gs)).map fun _ => .exec (wordsOf gs)
  | "info" => .ok .info
  | "layers" => .ok .layers
  | "auto-rename" => .ok .renameByRole
  | "rename-layers" => (needed (singleOf? gs "plan")).map .rename
  | "rename" => (needed (wordOf? gs)).map .renameSelected
  | "fill" => (needed (wordOf? gs)).map .fillTexts
  | "random-fill" => (needed (singleOf? gs "fields")).map .fillFields
  | "image-fill" => .ok (.fillPictures ((wordOf? gs).getD "other"))
  | "count" => (needed (wordOf? gs)).map .countNamed
  | "audit" => do
    let word ← needed (wordOf? gs)
    match AuditKind.ofWord word with
    | .ok kind => .ok (.audit kind (gs.contains (.mark "fix")))
    | .error _ => .error .badValue
  | "compare" => (needed (singleOf? gs "outline")).map .compare
  | "spell-check" => .ok .spelling
  | "serve" => .ok .serve
  | _ => .error .unknownTask

/-- What the arguments of the program ask for. -/
structure Invocation where
  task : Task
  verbosity : Nat
  config : Option String
  document : String
  /-- The nodes to be selected instead of those that the document selects, if any. -/
  select : List String
  write : Bool
  journal : Option String
  deriving DecidableEq, Repr

/-- The invocation from what was given before and after the name of a task. -/
def Invocation.ofGiven (task : Task) (before after : List Given) : Invocation :=
  let last (f : List Given → Option String) := (f after).or (f before)
  { task
    verbosity := ((countOf? after).or (countOf? before)).getD 0
    config := last (singleOf? · "config")
    document := (last (singleOf? · "doc")).getD "canvas.json"
    select := ((selectOf? after).or (selectOf? before)).getD []
    write := after.contains (.mark "write") || before.contains (.mark "write")
    journal := last (singleOf? · "journal") }

def readHelp : List String → Usage
  | [] => .help
  | [name] => if Form.beforeTask.tasks.contains name then .help else .unknownTask
  | _ => .unknownTask

def readNamed (name : String) (form : Form) (before : Progress) (arguments : List String) :
    Except Usage Invocation := do
  let after ← readTask form .start arguments
  let task ← Task.ofGiven name after
  let before ← before.finish .beforeTask
  return .ofGiven task before after

/-- Reads arguments up to the name of a task and on. -/
def readFrom (p : Progress) : List String → Except Usage Invocation
  | [] => do
    let given ← p.finish .beforeTask
    .error (if given.isEmpty then .nothingGiven else .missingTask)
  | a :: as =>
    if !p.wordsOnly && p.awaits?.isNone && a = helpTask then .error (readHelp as)
    else match if !p.wordsOnly && p.awaits?.isNone then taskForms.lookup a else none with
      | some form => readNamed a form p as
      | none => do
        let p ← p.take .beforeTask a
        readFrom p as

/-- Reads the arguments of the program. -/
def readArguments (arguments : List String) : Except Usage Invocation :=
  readFrom .start arguments

end DesignCanvas.CommandLine
