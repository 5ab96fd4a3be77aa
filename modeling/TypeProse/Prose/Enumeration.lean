/-!
# Enumerations in prose

The items of an enumeration are divided by commas, but a conjunction stands before
the last one, and no comma before the conjunction.
-/

namespace TypeProse.Prose

/-- The items as an enumeration: nothing, `X`, `X or Y`, `X, Y or Z`. -/
def enumerate (conjunction : String) : List String → String
  | [] => ""
  | [item] => item
  | [item, last] => item ++ " " ++ conjunction ++ " " ++ last
  | item :: items => item ++ ", " ++ enumerate conjunction items

/-- What can be enumerated. -/
inductive Item where
  | text (shown : String)
  | integer (number : Int)
  | truth (value : Bool)
  | absent
  deriving DecidableEq, Repr

/-- How an item is written. -/
def Item.render : Item → String
  | .text shown => shown
  | .integer number => toString number
  | .truth true => "True"
  | .truth false => "False"
  | .absent => "None"

/-- Items of any sort as an enumeration. -/
def enumerateItems (conjunction : String) (items : List Item) : String :=
  enumerate conjunction (items.map Item.render)

end TypeProse.Prose
