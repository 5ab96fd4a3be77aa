import TypeProse.Release
import TypeProse.Token
import TypeProse.TypeExpr

/-!
# Events

What happens while a text is read, for the trace: a token is taken, or a type is
finished because of the token that follows it.
-/

namespace TypeProse

/-- Something that happens while a text is read. -/
inductive Event where
  /-- A token was taken from the text. -/
  | token (taken : Token)
  /-- A type was finished when the token after it was seen. -/
  | finished (type : TypeExpr) (before : Token)
  deriving DecidableEq, Repr

/-- The line of the trace for an event. -/
def Event.render : Event → String
  | .token taken =>
      "DEBUG " ++ Release.program ++ ".lexer: token " ++ taken.kind.label ++ " " ++
        quoted taken.lexeme ++ " at " ++ toString taken.location.offset
  | .finished type before =>
      "DEBUG " ++ Release.program ++ ".parser: parsed " ++ type.label ++ " " ++
        quoted type.name ++ " before " ++ before.describe

end TypeProse
