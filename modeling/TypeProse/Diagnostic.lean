import TypeProse.Location

/-!
# Diagnostics

A diagnostic tells a person what is wrong with a text and where. Its code, its
help and its suggestions may be missing; an empty one is shown like a missing one.
-/

namespace TypeProse

/-- What is reported about one place of a text. -/
structure Diagnostic where
  message : String
  location : Location
  severity : String
  code : Option String
  help : Option String
  suggestions : Option (List String)
  deriving DecidableEq, Repr

namespace Diagnostic

/-- A diagnostic of severity `error`. -/
def error (message : String) (location : Location) (code help : Option String)
    (suggestions : Option (List String)) : Diagnostic :=
  ⟨message, location, "error", code, help, suggestions⟩

/-- A code stands in square brackets before the message. -/
def codeText : Option String → String
  | none => ""
  | some code => if code = "" then "" else "[" ++ code ++ "] "

/-- Help takes up one line. -/
def helpText : Option String → String
  | none => ""
  | some help => if help = "" then "" else "  help: " ++ help ++ "\n"

/-- One suggestion, on a line of its own. -/
def suggestionText (suggestion : String) : String :=
  "    - " ++ suggestion ++ "\n"

/-- Suggestions stand one to a line under a heading, which is left out if there are none. -/
def suggestionsText : Option (List String) → String
  | none => ""
  | some [] => ""
  | some suggestions => "  suggestions:\n" ++ String.join (suggestions.map suggestionText)

/-- The whole text of a diagnostic. Every line of it ends with a line feed. -/
def render (diagnostic : Diagnostic) : String :=
  diagnostic.severity.toUpper ++ ": " ++ codeText diagnostic.code ++ diagnostic.message ++ "\n" ++
    "  --> " ++ diagnostic.location.render ++ "\n" ++
    helpText diagnostic.help ++ suggestionsText diagnostic.suggestions

end Diagnostic

end TypeProse
