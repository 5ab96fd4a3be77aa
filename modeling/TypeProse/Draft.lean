import TypeProse.Event
import TypeProse.Fault

/-!
# Drafts

A draft is what is known of a list of types before the whole text has been read: the
brackets that are open, the types finished in the innermost list, and the type that
is pending there because what follows may still belong to it. `Draft.step` takes one
more token into account. A token that cannot go on from the draft is rejected at
once, so a draft is always the beginning of some list of types.
-/

namespace TypeProse

/-- What an open bracket holds. A hash has first its keys and then its values open. -/
inductive Bracket where
  | collection
  | fixed
  | hashKeys
  | hashValues (keys : List TypeExpr)
  deriving DecidableEq, Repr

namespace Bracket

/-- The kind of token that ends the list inside the bracket. -/
def closer : Bracket → TokenKind
  | .collection => .closeCollection
  | .fixed => .closeFixed
  | .hashKeys => .arrow
  | .hashValues _ => .closeHash

/-- The name of a collection that is opened without one. -/
def defaultName : Bracket → String
  | .collection => TypeExpr.defaultCollectionName
  | .fixed => TypeExpr.defaultCollectionName
  | .hashKeys => TypeExpr.defaultHashName
  | .hashValues _ => TypeExpr.defaultHashName

/-- The end of input closes no bracket. -/
theorem closer_ne_endOfInput (bracket : Bracket) : bracket.closer ≠ .endOfInput := by
  cases bracket <;> simp [closer]

end Bracket

/-- The type that further tokens may still belong to. -/
inductive Pending where
  /-- There is none yet. -/
  | empty
  /-- A name, which may turn out to be the name of a collection. -/
  | name (text : String)
  /-- A collection whose bracket is closed. -/
  | type (whole : TypeExpr)
  deriving DecidableEq, Repr

/-- The type that is pending, taken as it stands. -/
def Pending.type? : Pending → Option TypeExpr
  | .empty => none
  | .name text => some (.simple text)
  | .type whole => some whole

/-- An open bracket: the name of its collection, what it holds, and the types finished
before it in the list around it, latest first. -/
structure Frame where
  name : String
  bracket : Bracket
  before : List TypeExpr
  deriving DecidableEq, Repr

/-- A list of types that is not finished: the open brackets, innermost first, the types
finished in the innermost list, latest first, and the pending type. -/
structure Draft where
  frames : List Frame
  finished : List TypeExpr
  pending : Pending
  deriving DecidableEq, Repr

/-- What becomes of a draft when one more token is taken into account. -/
inductive Progress where
  | reading (draft : Draft)
  | complete (types : List TypeExpr)
  | rejected (fault : Fault)
  deriving DecidableEq, Repr

namespace Draft

/-- The draft before any token. -/
def empty : Draft :=
  ⟨[], [], .empty⟩

/-- How many brackets may be open at once. -/
def nestingLimit : Nat :=
  1000

/-- The kind of token that ends the innermost list. -/
def closer (draft : Draft) : TokenKind :=
  match draft.frames with
  | [] => .endOfInput
  | frame :: _ => frame.bracket.closer

/-- A name may stand only where no type is pending. -/
def addName (draft : Draft) (token : Token) : Progress :=
  match draft.pending.type? with
  | some type => .rejected (.duplicateName type.name token)
  | none => .reading { draft with pending := .name token.lexeme }

/-- A separator finishes the pending type. -/
def separate (draft : Draft) (token : Token) : Progress :=
  match draft.pending.type? with
  | none => .rejected (.missingName token)
  | some type => .reading ⟨draft.frames, type :: draft.finished, .empty⟩

/-- Begin the list inside a bracket, unless too many are open. The fault is then placed at the
bracket that is one too many, as other faults are placed at their token, and not behind it, where
the scanner stands by then. -/
def enter (draft : Draft) (name : String) (bracket : Bracket) (token : Token) : Progress :=
  if draft.frames.length < nestingLimit then
    .reading ⟨⟨name, bracket, draft.finished⟩ :: draft.frames, [], .empty⟩
  else
    .rejected (.tooDeep token.location)

/-- A bracket takes the pending name, or its default name; a collection that is closed
cannot be followed by another bracket. -/
def openBracket (draft : Draft) (bracket : Bracket) (token : Token) : Progress :=
  match draft.pending with
  | .empty => draft.enter bracket.defaultName bracket token
  | .name name => draft.enter name bracket token
  | .type type => .rejected (.duplicateSuffix type.name token)

/-- Go on after the list inside a bracket: with the values of a hash after its keys, and
otherwise with the collection pending in the list around it. -/
def leave (frame : Frame) (frames : List Frame) (types : List TypeExpr) : Draft :=
  match frame.bracket with
  | .collection => ⟨frames, frame.before, .type (.collection frame.name types)⟩
  | .fixed => ⟨frames, frame.before, .type (.fixedCollection frame.name types)⟩
  | .hashKeys => ⟨{ frame with bracket := .hashValues types } :: frames, [], .empty⟩
  | .hashValues keys => ⟨frames, frame.before, .type (.hashCollection frame.name keys types)⟩

/-- A terminator finishes the pending type and ends the innermost list, if it is the one
that is due. The pending type is looked at first. -/
def terminate (draft : Draft) (token : Token) : Progress :=
  match draft.pending.type? with
  | none => .rejected (.missingName token)
  | some type =>
      if token.kind = draft.closer then
        match draft.frames with
        | [] => .complete (type :: draft.finished).reverse
        | frame :: frames => .reading (leave frame frames (type :: draft.finished).reverse)
      else if token.kind = .endOfInput then
        .rejected (.unclosed [draft.closer] token)
      else
        .rejected (.mismatched [draft.closer] token)

/-- Take one more token into account. -/
def step (draft : Draft) (token : Token) : Progress :=
  match token.kind with
  | .name => draft.addName token
  | .separator => draft.separate token
  | .openCollection => draft.openBracket .collection token
  | .openFixed => draft.openBracket .fixed token
  | .openHash => draft.openBracket .hashKeys token
  | .blank => .reading draft
  | .closeCollection => draft.terminate token
  | .closeFixed => draft.terminate token
  | .arrow => draft.terminate token
  | .closeHash => draft.terminate token
  | .endOfInput => draft.terminate token

/-- The events of one more token: the token itself, and the pending type if the token is a
separator or a terminator, whether or not it is the terminator that is due. -/
def events (draft : Draft) (token : Token) : List Event :=
  if token.kind = .separator || token.kind.isTerminator then
    .token token :: (draft.pending.type?.map fun type => .finished type token).toList
  else
    [.token token]

/-- No draft goes on after the end of input. -/
theorem kind_ne_endOfInput_of_reading {draft next : Draft} {token : Token}
    (progress : draft.step token = .reading next) : token.kind ≠ .endOfInput := by
  intro last
  simp only [step, last, terminate, closer] at progress
  split at progress
  · cases progress
  · cases frames : draft.frames with
    | nil => simp [frames] at progress
    | cons frame rest =>
        simp [frames, (frame.bracket.closer_ne_endOfInput).symm] at progress

end Draft

end TypeProse
