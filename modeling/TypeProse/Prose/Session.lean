import TypeProse.Prose.Phrase

/-!
# A narrator

A narrator describes types one after the other and remembers between them whether
to speak of one thing or of many.
-/

namespace TypeProse.Prose

/-- What a narrator can be asked. -/
inductive Request where
  | setNumber (number : Number)
  | phrase (type : TypeExpr)
  deriving DecidableEq, Repr

/-- What a narrator answers. -/
inductive Answer where
  | number (number : Number)
  | phrase (text : String) (number : Number)
  | unnamed (unnamed : TypeExpr.Unnamed)
  deriving DecidableEq, Repr

/-- The answer to one request, and the number remembered after it. A type with an empty
name in it is not described. -/
def respond (current : Number) : Request → Answer × Number
  | .setNumber number => (.number number, number)
  | .phrase type =>
      match type.unnamed? with
      | some unnamed => (.unnamed unnamed, current)
      | none => (.phrase (phrase type current) current, current)

/-- The answers to several requests in turn. -/
def respondAll (current : Number) : List Request → List Answer
  | [] => []
  | request :: requests =>
      let step := respond current request
      step.1 :: respondAll step.2 requests

end TypeProse.Prose
