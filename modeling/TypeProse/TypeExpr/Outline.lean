import TypeProse.TypeExpr

/-!
# Outlines

An outline shows a type with one line for each type in it, members further to the
right than their collection. The keys and the values of a hash stand under a
heading each, and so two steps further to the right than the hash.
-/

namespace TypeProse.TypeExpr

/-- Two spaces for each step of indentation, and none for a negative one. -/
def pad (indent : Int) : String :=
  String.ofList (List.replicate (2 * indent.toNat) ' ')

/-- The line of a type itself. -/
def outlineHead (type : TypeExpr) (indent : Int) : String :=
  pad indent ++ type.label ++ " " ++ type.name

mutual

/-- The lines of a type and of the types inside it. -/
def outline : TypeExpr → Int → List String
  | .simple name, indent => [outlineHead (.simple name) indent]
  | .collection name types, indent =>
      outlineHead (.collection name types) indent :: outlineAll types (indent + 1)
  | .fixedCollection name types, indent =>
      outlineHead (.fixedCollection name types) indent :: outlineAll types (indent + 1)
  | .hashCollection name keys values, indent =>
      outlineHead (.hashCollection name keys values) indent ::
        (pad indent ++ "  keys:") :: outlineAll keys (indent + 2) ++
        (pad indent ++ "  values:") :: outlineAll values (indent + 2)

/-- The lines of several types, one type after the other. -/
def outlineAll : List TypeExpr → Int → List String
  | [], _ => []
  | type :: types, indent => type.outline indent ++ outlineAll types indent

end

/-- The outline of a list of types is made of their outlines. -/
theorem outlineAll_eq_flatMap (types : List TypeExpr) (indent : Int) :
    outlineAll types indent = types.flatMap fun type => type.outline indent := by
  induction types with
  | nil => simp [outlineAll]
  | cons type types ih => simp [outlineAll, ih]

/-- Where there are types, there are lines. -/
theorem outlineAll_ne_nil {types : List TypeExpr} (filled : types ≠ []) (indent : Int) :
    outlineAll types indent ≠ [] := by
  obtain ⟨first, others, rfl⟩ := List.exists_cons_of_ne_nil filled
  cases first <;> simp [outlineAll, outline]

end TypeProse.TypeExpr
