import TypeProse.Prose.Enumeration
import TypeProse.Prose.Name
import TypeProse.TypeExpr

/-!
# Types in prose

A type is described by an English phrase. The members of a collection and the keys
and values of a hash are alternatives and are said in the plural. The members of a
fixed collection follow one another and are said in the singular. Number makes a
difference to a name on its own only: a collection is always one.
-/

namespace TypeProse.Prose

mutual

/-- The phrase for a type. -/
def phrase : TypeExpr → Number → String
  | .simple name, number => namePhrase name number
  | .collection name types, _ =>
      article name ++ " " ++ name ++ " of (" ++ enumerate "or" (phrases types .plural) ++ ")"
  | .fixedCollection name types, _ =>
      article name ++ " " ++ name ++ " containing (" ++
        " followed by ".intercalate (phrases types .singular) ++ ")"
  | .hashCollection name keys values, _ =>
      article name ++ " " ++ name ++ " with keys made of (" ++
        enumerate "or" (phrases keys .plural) ++ ") and values of (" ++
        enumerate "or" (phrases values .plural) ++ ")"

/-- The phrases for several types. -/
def phrases : List TypeExpr → Number → List String
  | [], _ => []
  | type :: types, number => phrase type number :: phrases types number

end

/-- The phrases for several types are said one by one. -/
theorem phrases_eq_map (types : List TypeExpr) (number : Number) :
    phrases types number = types.map fun type => phrase type number := by
  induction types with
  | nil => simp [phrases]
  | cons type types ih => simp [phrases, ih]

/-- The phrases for several types with a separator between them. -/
def describeAll (types : List TypeExpr) (separator : String) (number : Number) : String :=
  separator.intercalate (phrases types number)

end TypeProse.Prose
