import TypeProse.Command.Options
import TypeProse.Text.Line
import TypeProse.Text.Terminal
import TypeProse.TypeExpr.Outline

/-!
# Running the command

The command describes each text on its own and goes on after a text that is refused.
Descriptions go to standard output; refused texts with their diagnostics, and the
trace, go to standard error. What is written for a text loses its terminal escape
sequences, the trace does not.
-/

namespace TypeProse.Command

open Text

/-- What a run of the command leaves behind. -/
structure Output where
  exitCode : Nat
  stdout : String
  stderr : String
  deriving DecidableEq, Repr

/-- What the command can read: standard input, and the files that can be opened. -/
structure Environment where
  standardInput : String
  file? : String → Option String

/-- What can be written to standard error: an event of the trace, or a text that is refused
with its fault. -/
inductive Notice where
  | event (happened : Event)
  | refusal (text : String) (fault : Fault)
  deriving DecidableEq, Repr

/-- The text of a notice. An event takes up one line. -/
def Notice.render : Notice → String
  | .event happened => happened.render ++ "\n"
  | .refusal text fault => stripEscapes (text ++ "\n" ++ fault.report)

/-- What the command writes for one text, and whether the text is refused. -/
structure Outcome where
  stdout : String
  notices : List Notice
  refused : Bool
  deriving DecidableEq, Repr

/-- The name that texts of the command have in diagnostics. -/
def textSource : String :=
  "<argument>"

/-- What is printed for the types of a text: their outlines or their description. -/
def Settings.show (settings : Settings) (types : List TypeExpr) : String :=
  if settings.tree then "\n".intercalate (TypeExpr.outlineAll types 0)
  else Prose.describeAll types settings.separator settings.number

/-- The trace of a reading, if one is asked for. -/
def Settings.trace (settings : Settings) (reading : Reading) : List Notice :=
  if settings.verbose then reading.events.map .event else []

/-- Describe one text. -/
def Settings.outcome (settings : Settings) (text : String) : Outcome :=
  let reading := readText text textSource
  match reading.result with
  | .ok types => ⟨stripEscapes (settings.show types) ++ "\n", settings.trace reading, false⟩
  | .error fault => ⟨"", settings.trace reading ++ [.refusal text fault], true⟩

/-- The texts in the lines of a file: the lines without the blanks at either end, as far as
anything is left of them. -/
def textsOfFile (content : String) : List String :=
  ((linesOf content.toList).map fun line => String.ofList (trimBlanks line)).filter (· ≠ "")

/-- Describe several texts. The exit code is one if any of them is refused. -/
def Settings.outputFor (settings : Settings) (texts : List String) : Output :=
  let outcomes := texts.map settings.outcome
  ⟨if outcomes.any Outcome.refused then 1 else 0,
    String.join (outcomes.map Outcome.stdout),
    String.join ((outcomes.flatMap Outcome.notices).map Notice.render)⟩

/-- The content of the input file, if it can be opened. -/
def Settings.content? (settings : Settings) (environment : Environment) : Option String :=
  if settings.input = "-" then some environment.standardInput
  else environment.file? settings.input

/-- The texts to describe: the ones that were given or, if none was, those of the file. -/
def Settings.textsFrom (settings : Settings) (content : String) : List String :=
  if settings.texts.isEmpty then textsOfFile content else settings.texts

/-- The line that shows how the command is called. -/
def usageLine : String :=
  "Usage: " ++ Release.program ++ " [OPTIONS] [TYPES]...\n"

/-- How the command is used. -/
def helpText : String :=
  usageLine ++
    "\n  Describe TYPES annotations in English, one line each (stdin if none).\n" ++
    "\nOptions:\n" ++
    "  --version             Show the version and exit.\n" ++
    "  -s, --separator TEXT  Text placed between top level types.  [default: ; ]\n" ++
    "  --plural              Render top level types in the plural.\n" ++
    "  --tree                Print the parsed type tree instead of prose.\n" ++
    "  -v, --verbose         Debug logging to stderr.\n" ++
    "  -i, --input FILENAME  Read annotations from this file when no TYPES are\n" ++
    "                        given.\n" ++
    "  --help                Show this message and exit.\n"

/-- Arguments that cannot be used give exit code two. -/
def UsageError.output (error : UsageError) : Output :=
  ⟨2, "", usageLine ++ "Try '" ++ Release.program ++ " --help' for help.\n\nError: " ++
    error.message ++ "\n"⟩

/-- Do what is asked. The input file has to be readable even if texts were given. -/
def Request.output (environment : Environment) : Request → Output
  | .showVersion => ⟨0, Release.versionLine ++ "\n", ""⟩
  | .showHelp => ⟨0, helpText, ""⟩
  | .describe settings =>
      match settings.content? environment with
      | none => (UsageError.unreadable settings.input).output
      | some content => settings.outputFor (settings.textsFrom content)

/-- Run the command. -/
def run (arguments : List String) (environment : Environment) : Output :=
  match Request.ofArguments arguments with
  | .error error => error.output
  | .ok request => request.output environment

end TypeProse.Command
