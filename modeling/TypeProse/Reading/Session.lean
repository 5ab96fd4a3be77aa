import TypeProse.Reading
import TypeProse.Scanner.Session

/-!
# A reader of texts

A reader holds a text with the name of its source, and the scanner of its last
reading. Each reading begins with a new scanner at the front of the text. Between
readings the text may be exchanged, which does not touch the scanner, and the scanner
may be driven on from where reading stopped.
-/

namespace TypeProse

/-- A text that can be read again and again, with the scanner of the last reading. -/
structure Reader where
  text : String
  source : String
  scanner : Scanner
  deriving DecidableEq, Repr

namespace Reader

/-- A reader before its first reading. -/
def start (text source : String) : Reader :=
  ⟨text, source, .start text source⟩

/-- What a reader can be asked. -/
inductive Request where
  /-- Read the text. -/
  | parse
  /-- Ask the scanner. -/
  | scan (request : Scanner.Request)
  /-- Exchange the text, the name of its source, or both. -/
  | assign (text source : Option String)
  deriving DecidableEq, Repr

/-- What a reader answers. -/
inductive Answer where
  | types (types : List TypeExpr)
  | fault (fault : Fault)
  | scanned (answer : Scanner.Answer)
  | assigned
  deriving DecidableEq, Repr

/-- The answer to one request, and the reader after it. -/
def perform (reader : Reader) : Request → Answer × Reader
  | .parse =>
      let reading := readText reader.text reader.source
      let after := { reader with scanner := reading.scanner }
      match reading.result with
      | .ok types => (.types types, after)
      | .error fault => (.fault fault, after)
  | .scan request =>
      let step := reader.scanner.perform request
      (.scanned step.1, { reader with scanner := step.2 })
  | .assign text source =>
      (.assigned, ⟨text.getD reader.text, source.getD reader.source, reader.scanner⟩)

/-- The answers to several requests in turn, each with the reader after it. -/
def performAll (reader : Reader) : List Request → List (Answer × Reader)
  | [] => []
  | request :: requests =>
      let step := reader.perform request
      step :: performAll step.2 requests

end Reader

end TypeProse
