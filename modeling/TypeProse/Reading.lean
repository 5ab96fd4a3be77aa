import TypeProse.Draft
import TypeProse.Scanner

/-!
# Reading a text

A text is read token by token into a draft, until the draft is complete, or a token
is rejected, or no token can be found. Tokens are taken only as long as they are
needed: nothing behind the place where reading stopped is looked at.
-/

namespace TypeProse

/-- How the reading of a text went: the types or the fault, the scanner as reading left
it, and what happened on the way. -/
structure Reading where
  result : Except Fault (List TypeExpr)
  scanner : Scanner
  events : List Event

/-- Read on from a draft. -/
def Draft.read (draft : Draft) (scanner : Scanner) : Reading :=
  match read : scanner.next with
  | (.error fault, after) => ⟨.error fault, after, []⟩
  | (.ok token, after) =>
      match progress : draft.step token with
      | .rejected fault => ⟨.error fault, after, draft.events token⟩
      | .complete types => ⟨.ok types, after, draft.events token⟩
      | .reading next =>
          have _shorter :=
            Scanner.length_rest_next_lt read (Draft.kind_ne_endOfInput_of_reading progress)
          let rest := next.read after
          ⟨rest.result, rest.scanner, draft.events token ++ rest.events⟩
termination_by scanner.rest.length

namespace Draft

/-- Where no token is found, reading stops with that fault. -/
theorem read_of_error {draft : Draft} {scanner after : Scanner} {fault : Fault}
    (next : scanner.next = (.error fault, after)) :
    draft.read scanner = ⟨.error fault, after, []⟩ := by
  rw [read]
  split <;> simp_all

/-- Where a token is rejected, reading stops behind it. -/
theorem read_of_rejected {draft : Draft} {scanner after : Scanner} {token : Token} {fault : Fault}
    (next : scanner.next = (.ok token, after)) (progress : draft.step token = .rejected fault) :
    draft.read scanner = ⟨.error fault, after, draft.events token⟩ := by
  rw [read]
  split
  · simp_all
  · rename_i found
    cases found.symm.trans next
    split <;> simp_all

/-- Where the draft is complete, reading stops behind the token that completed it. -/
theorem read_of_complete {draft : Draft} {scanner after : Scanner} {token : Token}
    {types : List TypeExpr} (next : scanner.next = (.ok token, after))
    (progress : draft.step token = .complete types) :
    draft.read scanner = ⟨.ok types, after, draft.events token⟩ := by
  rw [read]
  split
  · simp_all
  · rename_i found
    cases found.symm.trans next
    split <;> simp_all

/-- Otherwise reading goes on with the next draft from behind the token. -/
theorem read_of_reading {draft following : Draft} {scanner after : Scanner} {token : Token}
    (next : scanner.next = (.ok token, after)) (progress : draft.step token = .reading following) :
    draft.read scanner =
      ⟨(following.read after).result, (following.read after).scanner,
        draft.events token ++ (following.read after).events⟩ := by
  rw [read]
  split
  · simp_all
  · rename_i found
    cases found.symm.trans next
    split <;> simp_all

end Draft

/-- Read a text from its front. -/
def readText (text source : String) : Reading :=
  Draft.empty.read (.start text source)

/-- The types that a text lists. -/
def parse (text source : String) : Except Fault (List TypeExpr) :=
  (readText text source).result

/-- The name that is given to a text of unknown source. -/
def unnamedSource : String :=
  "<string>"

end TypeProse
