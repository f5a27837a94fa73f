import DesignCanvas.CommandLine.Arguments

/-!
# Help

What is printed when the arguments ask for help or for nothing that can be done.
-/

namespace DesignCanvas.CommandLine

/-- The name of the program and its version. -/
def versionText : String := "canvas-assist 0.1.0"

def taskHelp : List (String × String) :=
  [("exec <WORDS>...", "Run a free-text command"), ("info", "Describe the selected layers"),
    ("layers", "List the selected layers and their direct children"),
    ("auto-rename", "Rename layers after the naming guide"),
    ("rename-layers --plan <PLAN>", "Apply an explicit rename plan"),
    ("rename <NAMING_TYPE>", "Rename the selection and its descendants"),
    ("fill <VALUE>", "Write one value into every selected text layer"),
    ("random-fill --fields <FIELDS>", "Fill text layers from field value pools, in order"),
    ("image-fill [KIND]", "Fill image slots with placeholder pictures"),
    ("count <FIELD>", "Count layers under the selection named like a field"),
    ("audit <KIND> [--fix]", "Audit the selection against the design system"),
    ("compare --outline <OUTLINE>", "Compare the selection's text against an outline file"),
    ("spell-check", "Collect the selection's text for spell checking"),
    ("serve", "Answer JSON-lines requests from stdin until EOF")]

def optionHelp : List (String × String) :=
  [("-v, --verbose", "Verbosity level"), ("--config <CONFIG>", "Path to config file"),
    ("--doc <DOC>", "JSON document file to operate on"),
    ("--select <SELECT>", "Node ids to select instead of the document's stored selection"),
    ("--write", "Save mutations back to the document file"),
    ("--journal <JOURNAL>", "Append a JSONL entry per handled request to this file"),
    ("-h, --help", "Print help"), ("-V, --version", "Print version")]

def helpLine (entry : String × String) : String :=
  s!"  {entry.1}\n      {entry.2}\n"

def helpText : String :=
  "Usage: canvas-assist [OPTIONS] <COMMAND>\n\nCommands:\n" ++ String.join (taskHelp.map helpLine)
    ++ "\nOptions:\n" ++ String.join (optionHelp.map helpLine)

/-- What is printed for arguments that ask for nothing that can be done. -/
def Usage.message : Usage → String
  | help | nothingGiven => helpText
  | version => versionText ++ "\n"
  | missingTask => "error: a command is required\n"
  | unknownTask => "error: unrecognized command\n"
  | unknownArgument => "error: unexpected argument\n"
  | missingArgument => "error: a required argument was not provided\n"
  | missingValue => "error: an option needs a value\n"
  | needlessValue => "error: an option takes no value\n"
  | repeated => "error: an option cannot be used multiple times\n"
  | badValue => "error: invalid value for an argument\n"

/-- Says that the arguments were wrong, and did not ask for something to be printed. -/
def Usage.isFault : Usage → Bool
  | help | version => false
  | _ => true

end DesignCanvas.CommandLine
