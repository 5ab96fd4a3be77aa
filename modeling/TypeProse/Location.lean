/-!
# Places in a text

A location says where in a named text something stands. The offset counts
characters from zero. Line and column are for people and count from one.
-/

namespace TypeProse

/-- A place in the text called `source`. -/
structure Location where
  source : String
  line : Int
  column : Int
  offset : Int
  deriving DecidableEq, Repr

/-- The place as it is written in a diagnostic: source, line and column. -/
def Location.render (location : Location) : String :=
  location.source ++ ":" ++ toString location.line ++ ":" ++ toString location.column

end TypeProse
