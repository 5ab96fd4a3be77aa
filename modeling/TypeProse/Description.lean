import TypeProse.Prose.Phrase
import TypeProse.Reading

/-!
# Describing a text

A text is described by reading it and saying the types that it lists in English.
-/

namespace TypeProse

/-- What stands between the descriptions of two types unless something else is asked for. -/
def defaultSeparator : String :=
  "; "

/-- The English description of a text, with a separator between the types that it lists. -/
def describe (text separator : String) (number : Prose.Number) : Except Fault String :=
  (parse text unnamedSource).map fun types => Prose.describeAll types separator number

end TypeProse
