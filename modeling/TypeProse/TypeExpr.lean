/-!
# Type expressions

A type expression is a single name, or a named collection of further types. There
are three sorts of collection: one whose members are alternatives, one whose
members come in a fixed order, and one that maps keys to values. Equality is
structural, so collections of different sorts are never equal.
-/

namespace TypeProse

/-- A type as it is written in documentation. -/
inductive TypeExpr where
  /-- A name on its own. -/
  | simple (name : String)
  /-- A collection whose members may be of any of the types. -/
  | collection (name : String) (types : List TypeExpr)
  /-- A collection whose members are of the types, in that order. -/
  | fixedCollection (name : String) (types : List TypeExpr)
  /-- A collection that takes keys to values. -/
  | hashCollection (name : String) (keys values : List TypeExpr)
  deriving Repr

namespace TypeExpr

/-- The name of a collection whose name is left out. -/
def defaultCollectionName : String :=
  "Array"

/-- The name of a hash whose name is left out. -/
def defaultHashName : String :=
  "Hash"

/-- The name of a type, without its members. -/
def name : TypeExpr → String
  | .simple name => name
  | .collection name _ => name
  | .fixedCollection name _ => name
  | .hashCollection name _ _ => name

/-- What sort of type it is, as shown in outlines and traces. -/
def label : TypeExpr → String
  | .simple _ => "Simple"
  | .collection .. => "Collection"
  | .fixedCollection .. => "FixedCollection"
  | .hashCollection .. => "HashCollection"

/-- The types directly inside a type, the keys of a hash before its values. -/
def children : TypeExpr → List TypeExpr
  | .simple _ => []
  | .collection _ types => types
  | .fixedCollection _ types => types
  | .hashCollection _ keys values => keys ++ values

mutual

/-- A type and all types inside it, each before the types inside it. -/
def walk : TypeExpr → List TypeExpr
  | .simple name => [.simple name]
  | .collection name types => .collection name types :: walkAll types
  | .fixedCollection name types => .fixedCollection name types :: walkAll types
  | .hashCollection name keys values =>
      .hashCollection name keys values :: (walkAll keys ++ walkAll values)

/-- The walks of several types, one after the other. -/
def walkAll : List TypeExpr → List TypeExpr
  | [] => []
  | type :: types => type.walk ++ walkAll types

end

/-- A walk begins with the type and goes on with the walks of its children. -/
theorem walk_eq (type : TypeExpr) : type.walk = type :: walkAll type.children := by
  have append : ∀ before after : List TypeExpr,
      walkAll (before ++ after) = walkAll before ++ walkAll after := by
    intro before after
    induction before with
    | nil => simp [walkAll]
    | cons type types ih => simp [walkAll, ih]
  cases type <;> simp [walk, children, walkAll, append]

mutual

/-- Whether two types have the same structure. -/
def same : TypeExpr → TypeExpr → Bool
  | .simple name, .simple name' => name == name'
  | .collection name types, .collection name' types' => name == name' && sameAll types types'
  | .fixedCollection name types, .fixedCollection name' types' =>
      name == name' && sameAll types types'
  | .hashCollection name keys values, .hashCollection name' keys' values' =>
      name == name' && sameAll keys keys' && sameAll values values'
  | _, _ => false

/-- Whether two lists of types have the same structure. -/
def sameAll : List TypeExpr → List TypeExpr → Bool
  | [], [] => true
  | type :: types, type' :: types' => type.same type' && sameAll types types'
  | _, _ => false

end

mutual

/-- Types of the same structure are equal, and no others. -/
theorem same_iff : (left right : TypeExpr) → (left.same right = true ↔ left = right)
  | .simple _, right => by cases right <;> simp [same]
  | .collection _ types, right => by
      cases right <;> simp [same, sameAll_iff types]
  | .fixedCollection _ types, right => by
      cases right <;> simp [same, sameAll_iff types]
  | .hashCollection _ keys values, right => by
      cases right <;> simp [same, sameAll_iff keys, sameAll_iff values, and_assoc]

theorem sameAll_iff : (left right : List TypeExpr) → (sameAll left right = true ↔ left = right)
  | [], right => by cases right <;> simp [sameAll]
  | type :: types, right => by
      cases right <;> simp [sameAll, same_iff type, sameAll_iff types]

end

instance : DecidableEq TypeExpr := fun left right =>
  decidable_of_iff _ (same_iff left right)

/-- The sort of type that was given an empty name. -/
inductive Unnamed where
  | type
  | collection
  | hash
  deriving DecidableEq, Repr

/-- What is said about an empty name. -/
def Unnamed.message : Unnamed → String
  | .type => "type name must not be empty"
  | .collection => "collection name must not be empty"
  | .hash => "hash name must not be empty"

/-- The complaint about a name, if it is empty. -/
def Unnamed.ofName? (sort : Unnamed) (name : String) : Option Unnamed :=
  if name = "" then some sort else none

mutual

/-- The first empty name in a type, where the types inside a type come before it. -/
def unnamed? : TypeExpr → Option Unnamed
  | .simple name => Unnamed.type.ofName? name
  | .collection name types => (unnamedAmong? types).or (Unnamed.collection.ofName? name)
  | .fixedCollection name types => (unnamedAmong? types).or (Unnamed.collection.ofName? name)
  | .hashCollection name keys values =>
      (unnamedAmong? keys).or ((unnamedAmong? values).or (Unnamed.hash.ofName? name))

/-- The first empty name in a list of types. -/
def unnamedAmong? : List TypeExpr → Option Unnamed
  | [] => none
  | type :: types => type.unnamed?.or (unnamedAmong? types)

end

/-- The types, if all names in them have a character. -/
def named (types : List TypeExpr) : Except Unnamed (List TypeExpr) :=
  match unnamedAmong? types with
  | some unnamed => .error unnamed
  | none => .ok types

end TypeExpr

end TypeProse
