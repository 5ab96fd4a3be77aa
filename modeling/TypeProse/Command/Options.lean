import TypeProse.Description

/-!
# Arguments of the command

An argument is an option or a text to describe. Long options may carry their value
after an equals sign, short options may be written together, and an option whose
value is not in the same argument takes the next one, whatever it looks like. Options
may stand between texts; after a double hyphen every argument is a text.
-/

namespace TypeProse.Command

/-- The options of the command. -/
inductive Switch where
  | version
  | separator
  | plural
  | tree
  | verbose
  | input
  | help
  deriving DecidableEq, Repr

namespace Switch

/-- Every option. -/
def all : List Switch :=
  [.version, .separator, .plural, .tree, .verbose, .input, .help]

/-- The long spelling. -/
def long : Switch → String
  | .version => "--version"
  | .separator => "--separator"
  | .plural => "--plural"
  | .tree => "--tree"
  | .verbose => "--verbose"
  | .input => "--input"
  | .help => "--help"

/-- The letter of the short spelling, if there is one. -/
def short? : Switch → Option Char
  | .separator => some 's'
  | .verbose => some 'v'
  | .input => some 'i'
  | _ => none

/-- Whether the option has a value. -/
def takesValue : Switch → Bool
  | .separator => true
  | .input => true
  | _ => false

/-- The option with this long spelling. Long spellings are not abbreviated. -/
def ofLong? (text : String) : Option Switch :=
  all.find? fun switch => switch.long == text

/-- The option with this letter. -/
def ofShort? (letter : Char) : Option Switch :=
  all.find? fun switch => switch.short? == some letter

end Switch

/-- Why the arguments cannot be used. -/
inductive UsageError where
  | unknownOption (spelling : String)
  | missingValue (switch : Switch)
  | unexpectedValue (switch : Switch)
  | unreadable (file : String)
  deriving DecidableEq, Repr

/-- What is said about arguments that cannot be used. -/
def UsageError.message : UsageError → String
  | .unknownOption spelling => "No such option: " ++ spelling
  | .missingValue switch => "Option " ++ quoted switch.long ++ " requires an argument."
  | .unexpectedValue switch => "Option " ++ quoted switch.long ++ " does not take a value."
  | .unreadable file => "Invalid value for '-i' / '--input': " ++ quoted file ++ ": cannot be read"

/-- One thing that was asked for: a text to describe, or an option with its value, which
is empty for an option that has none. -/
inductive Given where
  | text (shown : String)
  | option (switch : Switch) (value : String)
  deriving DecidableEq, Repr

/-- What one argument asks for: the options that are complete in it, and the option that
waits for the next argument as its value. -/
structure Cluster where
  given : List Given
  waiting : Option Switch
  deriving DecidableEq, Repr

/-- The letters of short options written together. The first option that has a value takes
the rest of the letters as its value, if there are any. -/
def shortOptions : List Char → Except UsageError Cluster
  | [] => .ok ⟨[], none⟩
  | letter :: letters =>
      match Switch.ofShort? letter with
      | none => .error (.unknownOption (String.ofList ['-', letter]))
      | some switch =>
          if switch.takesValue then
            if letters.isEmpty then .ok ⟨[], some switch⟩
            else .ok ⟨[.option switch (String.ofList letters)], none⟩
          else
            (shortOptions letters).map fun cluster =>
              ⟨.option switch "" :: cluster.given, cluster.waiting⟩

/-- A long option, with the value after the equals sign if there is one. -/
def longOption (switch : Switch) : Option String → Except UsageError Cluster
  | some value =>
      if switch.takesValue then .ok ⟨[.option switch value], none⟩
      else .error (.unexpectedValue switch)
  | none =>
      if switch.takesValue then .ok ⟨[], some switch⟩
      else .ok ⟨[.option switch ""], none⟩

/-- The characters before the first equals sign and, if there is one, those after it. -/
def splitEquals : List Char → List Char × Option (List Char)
  | [] => ([], none)
  | '=' :: rest => ([], some rest)
  | char :: rest =>
      let split := splitEquals rest
      (char :: split.1, split.2)

/-- What an argument that begins with a hyphen asks for. It is taken as a long option if it
is one; otherwise a single hyphen begins short options. -/
def optionCluster (argument : String) : Except UsageError Cluster :=
  let split := splitEquals argument.toList
  match Switch.ofLong? (String.ofList split.1) with
  | some switch => longOption switch (split.2.map String.ofList)
  | none =>
      match argument.toList with
      | '-' :: '-' :: _ => .error (.unknownOption (String.ofList split.1))
      | _ => shortOptions (argument.toList.drop 1)

/-- Whether an argument is read as options. A hyphen on its own is a text. -/
def isOption (argument : String) : Bool :=
  match argument.toList with
  | '-' :: _ :: _ => true
  | _ => false

/-- What the arguments ask for, in their order. -/
def givenBy : List String → Except UsageError (List Given)
  | [] => .ok []
  | argument :: rest =>
      if argument = "--" then
        .ok (rest.map .text)
      else if isOption argument then
        match optionCluster argument with
        | .error error => .error error
        | .ok ⟨given, none⟩ => (givenBy rest).map (given ++ ·)
        | .ok ⟨given, some switch⟩ =>
            match rest with
            | [] => .error (.missingValue switch)
            | value :: rest => (givenBy rest).map (given ++ .option switch value :: ·)
      else
        (givenBy rest).map (.text argument :: ·)

/-- How texts are to be described, and which. -/
structure Settings where
  /-- What stands between the types of one text. -/
  separator : String
  /-- Whether the types are said of one thing or of many. -/
  number : Prose.Number
  /-- Whether an outline is printed in place of the description. -/
  tree : Bool
  /-- Whether a trace is written. -/
  verbose : Bool
  /-- The file whose lines are described if no text is given; a hyphen means standard
  input. -/
  input : String
  /-- The texts that were given. -/
  texts : List String
  deriving DecidableEq, Repr

namespace Settings

/-- The settings without any argument. -/
def default : Settings :=
  ⟨defaultSeparator, .singular, false, false, "-", []⟩

/-- Take one more argument into account. Of an option given twice the last value counts. -/
def add (settings : Settings) : Given → Settings
  | .text shown => { settings with texts := settings.texts ++ [shown] }
  | .option .separator value => { settings with separator := value }
  | .option .input value => { settings with input := value }
  | .option .plural _ => { settings with number := .plural }
  | .option .tree _ => { settings with tree := true }
  | .option .verbose _ => { settings with verbose := true }
  | .option .version _ => settings
  | .option .help _ => settings

end Settings

/-- What the command is to do. -/
inductive Request where
  | showVersion
  | showHelp
  | describe (settings : Settings)
  deriving DecidableEq, Repr

/-- The request that stands above all settings, if the argument makes one. -/
def Given.overriding? : Given → Option Request
  | .option .version _ => some .showVersion
  | .option .help _ => some .showHelp
  | _ => none

/-- What the command is to do. Whatever else is asked for, the first question for version
or help is answered alone. -/
def Request.ofGiven (given : List Given) : Request :=
  match given.findSome? Given.overriding? with
  | some request => request
  | none => .describe (given.foldl Settings.add Settings.default)

/-- What the command is to do with its arguments. -/
def Request.ofArguments (arguments : List String) : Except UsageError Request :=
  (givenBy arguments).map Request.ofGiven

end TypeProse.Command
