import TypeProse.Diagnostic
import TypeProse.Text.Printable
import TypeProse.Token

/-!
# Faults

A fault is the reason why a text is not a list of types. It holds what was found
and what was expected; its words are put together here and nowhere else. Words may
be missing: a kind of token without a spelling cannot be asked for, and only a
single character has a code point to show.
-/

namespace TypeProse

open Text

/-- The kinds of fault, each with a short code. -/
inductive FaultCode where
  | invalidCharacter
  | duplicateName
  | missingName
  | mismatched
  | unclosed
  | duplicateSuffix
  | tooDeep
  deriving DecidableEq, Repr

namespace FaultCode

/-- Every code, in the order of their labels. -/
def all : List FaultCode :=
  [.invalidCharacter, .duplicateName, .missingName, .mismatched, .unclosed, .duplicateSuffix,
    .tooDeep]

/-- The code as it is shown. -/
def label : FaultCode → String
  | .invalidCharacter => "L001"
  | .duplicateName => "P001"
  | .missingName => "P002"
  | .mismatched => "P003"
  | .unclosed => "P004"
  | .duplicateSuffix => "P005"
  | .tooDeep => "P006"

/-- What the code stands for. -/
def summary : FaultCode → String
  | .invalidCharacter => "Invalid character"
  | .duplicateName => "Duplicate type name"
  | .missingName => "Expecting type name"
  | .mismatched => "Mismatched closing token"
  | .unclosed => "Unclosed collection"
  | .duplicateSuffix => "Duplicate collection suffix"
  | .tooDeep => "Collections nested too deeply"

end FaultCode

/-- Why a text was refused. -/
inductive Fault where
  /-- No token starts with these characters. -/
  | invalidCharacter (text : String) (location : Location)
  /-- A name follows the pending type of that name without a separator. -/
  | duplicateName (pending : String) (found : Token)
  /-- A separator or terminator has no type before it. -/
  | missingName (found : Token)
  /-- A terminator is not one of the expected ones. -/
  | mismatched (expected : List TokenKind) (found : Token)
  /-- The text ended where one of the expected terminators was due. -/
  | unclosed (expected : List TokenKind) (found : Token)
  /-- The type of that name is a collection already, and another one is opened. -/
  | duplicateSuffix (name : String) (found : Token)
  /-- More collections are open than can be kept track of. -/
  | tooDeep (location : Location)
  deriving DecidableEq, Repr

/-- Why a fault cannot be put into words. -/
inductive WordingError where
  /-- This kind of token has no spelling. -/
  | noSpelling (kind : TokenKind)
  /-- These characters have no code point, as they are not exactly one. -/
  | noCodePoint (text : String)
  deriving DecidableEq, Repr

/-- The words of a fault. -/
structure Wording where
  message : String
  help : String
  suggestions : List String
  deriving DecidableEq, Repr

/-- How one expected kind of token is spelled. -/
def TokenKind.spelling (kind : TokenKind) : Except WordingError String :=
  match kind, kind.text? with
  | .endOfInput, some text => .ok text
  | _, some text => .ok (quoted text)
  | kind, none => .error (.noSpelling kind)

/-- How a list of expected kinds of token is spelled. -/
def spellings (kinds : List TokenKind) : Except WordingError String :=
  (kinds.mapM TokenKind.spelling).map (" or ".intercalate ·)

namespace Fault

/-- The code of a fault. -/
def code : Fault → FaultCode
  | .invalidCharacter .. => .invalidCharacter
  | .duplicateName .. => .duplicateName
  | .missingName .. => .missingName
  | .mismatched .. => .mismatched
  | .unclosed .. => .unclosed
  | .duplicateSuffix .. => .duplicateSuffix
  | .tooDeep .. => .tooDeep

/-- Where the fault was noticed. -/
def location : Fault → Location
  | .invalidCharacter _ location => location
  | .duplicateName _ found => found.location
  | .missingName found => found.location
  | .mismatched _ found => found.location
  | .unclosed _ found => found.location
  | .duplicateSuffix _ found => found.location
  | .tooDeep location => location

/-- Characters that can be printed are shown; one that cannot is shown by its code
point. -/
def invalidCharacterHelp (text : String) : Except WordingError String :=
  if text.toList.all isPrintable then
    .ok ("The character " ++ quoted text ++ " is not valid in a type annotation.")
  else
    match text.toList with
    | [char] => .ok ("Non-printable character (Unicode: " ++ codePointLabel char ++
        ") is not allowed.")
    | _ => .error (.noCodePoint text)

/-- The words of a fault, if it can be put into words. -/
def wording : Fault → Except WordingError Wording
  | .invalidCharacter text _ => do
      let help ← invalidCharacterHelp text
      return {
        message := "invalid character at " ++ quoted text
        help := help
        suggestions := ["Type names may only contain word characters and '::'",
          "Use '#name' for an object that responds to a method"] }
  | .duplicateName pending found =>
      return {
        message := "expecting END, got name " ++ quoted found.lexeme
        help := quoted found.lexeme ++ " follows " ++ quoted pending ++ " without a separator."
        suggestions := ["Separate the types with a comma: " ++
          quoted (pending ++ ", " ++ found.lexeme)] }
  | .missingName found =>
      return {
        message := "expecting name, got " ++ found.describe ++ " at " ++
          toString found.location.offset
        help := "Every separator and closing bracket must follow a type."
        suggestions := ["Remove the extra separator", "Add the missing type name"] }
  | .mismatched expected found => do
      let expected ← spellings expected
      return {
        message := "expecting " ++ expected ++ ", got " ++ found.describe
        help := "Collections must be closed with the bracket that opened them."
        suggestions := ["Replace " ++ found.describe ++ " with " ++ expected] }
  | .unclosed expected _ => do
      let expected ← spellings expected
      return {
        message := "unexpected end of input, expecting " ++ expected
        help := "The annotation ended before every collection was closed."
        suggestions := ["Add the missing " ++ expected] }
  | .duplicateSuffix name found =>
      return {
        message := quoted name ++ " already has a collection suffix, got " ++ found.describe
        help := "A type may have at most one '<...>', '(...)' or '\x7b...\x7d' suffix."
        suggestions := ["Separate the types with a comma"] }
  | .tooDeep _ =>
      return {
        message := "collections nested too deeply"
        help := "The annotation nests more collections than can be parsed."
        suggestions := ["Simplify the annotation"] }

/-- The diagnostic for a fault, if the fault can be put into words. -/
def diagnostic (fault : Fault) : Except WordingError Diagnostic :=
  fault.wording.map fun words =>
    .error words.message fault.location (some fault.code.label) (some words.help)
      (some words.suggestions)

/-- The text in which a fault is reported. A fault without words is reported by what its
code stands for. -/
def report (fault : Fault) : String :=
  match fault.diagnostic with
  | .ok diagnostic => diagnostic.render
  | .error _ =>
      (Diagnostic.error fault.code.summary fault.location (some fault.code.label) none none).render

end Fault

end TypeProse
