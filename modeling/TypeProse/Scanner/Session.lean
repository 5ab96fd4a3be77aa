import TypeProse.Scanner

/-!
# Driving a scanner step by step

A scanner can be asked for one token, for all tokens that are left, whether it is
at the end and where it stands, in any order. A request that fails leaves the
scanner where it stopped, and the next request goes on from there.
-/

namespace TypeProse.Scanner

/-- What a scanner can be asked. -/
inductive Request where
  | next
  | tokenize
  | atEnd
  | location
  deriving DecidableEq, Repr

/-- What a scanner answers. -/
inductive Answer where
  | token (token : Token)
  | tokens (tokens : List Token)
  | atEnd (reached : Bool)
  | location (location : Location)
  | fault (fault : Fault)
  deriving DecidableEq, Repr

/-- The answer to one request, and the scanner after it. -/
def perform (scanner : Scanner) : Request → Answer × Scanner
  | .next =>
      match scanner.next with
      | (.ok token, after) => (.token token, after)
      | (.error fault, after) => (.fault fault, after)
  | .tokenize =>
      match scanner.tokenize with
      | (.ok tokens, after) => (.tokens tokens, after)
      | (.error fault, after) => (.fault fault, after)
  | .atEnd => (.atEnd scanner.atEnd, scanner)
  | .location => (.location scanner.location, scanner)

/-- The answers to several requests in turn, each with the scanner after it. -/
def performAll (scanner : Scanner) : List Request → List (Answer × Scanner)
  | [] => []
  | request :: requests =>
      let step := scanner.perform request
      step :: performAll step.2 requests

end TypeProse.Scanner
