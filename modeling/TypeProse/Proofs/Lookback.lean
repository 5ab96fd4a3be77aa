import Mathlib.Control.Monad.Basic
import TypeProse.Proofs.Nesting

/-!
# Reading with one token of lookback

Whether a text lists types can be told with less than a draft. A `Lookback` keeps the
kind of the token before, one name, and for every open bracket the terminator that is
due and the name of the collection. Its `verdict` looks at kinds only; the names are
there for the words of a fault. On every text it comes to the same end as reading into
a draft, unless more brackets are open than a draft has room for.
-/

namespace TypeProse

/-- Whether a type has to come next: at the front of a text, and behind a separator, an
opening bracket or an arrow. -/
def awaitsType : Option TokenKind → Bool
  | none => true
  | some .separator => true
  | some .openCollection => true
  | some .openFixed => true
  | some .openHash => true
  | some .arrow => true
  | _ => false

/-- Whether a collection was closed by the token before. -/
def closedCollection : Option TokenKind → Bool
  | some .closeCollection => true
  | some .closeFixed => true
  | some .closeHash => true
  | _ => false

/-- What is wrong with a kind of token behind another one, where a terminator is due. The
fault is still to be told a name and the token. -/
def verdict (previous : Option TokenKind) (due found : TokenKind) :
    Option (String → Token → Fault) :=
  if found = .name then
    if previous = some .name || closedCollection previous then some .duplicateName else none
  else if found = .openCollection || found = .openFixed || found = .openHash then
    if closedCollection previous then some .duplicateSuffix else none
  else if found = .separator || found.isTerminator then
    if awaitsType previous then
      some fun _ => .missingName
    else if found = .separator || found = due then
      none
    else if found = .endOfInput then
      some fun _ => .unclosed [due]
    else
      some fun _ => .mismatched [due]
  else
    none

/-- What is kept of the tokens before: the kind of the last one, the name of the last type,
and for every open bracket, innermost first, the terminator that is due and the name of the
collection. -/
structure Lookback where
  previous : Option TokenKind
  name : String
  stack : List (TokenKind × String)
  deriving DecidableEq, Repr

namespace Lookback

/-- Before any token. -/
def start : Lookback :=
  ⟨none, "", []⟩

/-- The terminator that is due. Where no bracket is open, it is the end of input. -/
def due (lookback : Lookback) : TokenKind :=
  match lookback.stack with
  | [] => .endOfInput
  | (closer, _) :: _ => closer

/-- Open a bracket with the name before it, if there is one. -/
def push (lookback : Lookback) (kind closer : TokenKind) (default : String) : Lookback :=
  let name := if lookback.previous = some .name then lookback.name else default
  ⟨some kind, lookback.name, (closer, name) :: lookback.stack⟩

/-- Close the innermost bracket and go back to the name of its collection. -/
def pop (lookback : Lookback) (kind : TokenKind) : Lookback :=
  match lookback.stack with
  | [] => { lookback with previous := some kind }
  | (_, name) :: stack => ⟨some kind, name, stack⟩

/-- Behind the keys of a hash, its closing bracket is due. -/
def turn (lookback : Lookback) : Lookback :=
  match lookback.stack with
  | [] => { lookback with previous := some .arrow }
  | (_, name) :: stack => ⟨some .arrow, lookback.name, (.closeHash, name) :: stack⟩

/-- Keep what is needed of one more token. -/
def take (lookback : Lookback) (token : Token) : Lookback :=
  match token.kind with
  | .name => ⟨some .name, token.lexeme, lookback.stack⟩
  | .openCollection => lookback.push .openCollection .closeCollection TypeExpr.defaultCollectionName
  | .openFixed => lookback.push .openFixed .closeFixed TypeExpr.defaultCollectionName
  | .openHash => lookback.push .openHash .arrow TypeExpr.defaultHashName
  | .arrow => lookback.turn
  | .closeCollection => lookback.pop .closeCollection
  | .closeFixed => lookback.pop .closeFixed
  | .closeHash => lookback.pop .closeHash
  | kind => { lookback with previous := some kind }

/-- Reject a token or keep what is needed of it. -/
def step (lookback : Lookback) (token : Token) : Except Fault Lookback :=
  match verdict lookback.previous lookback.due token.kind with
  | some fault => .error (fault lookback.name token)
  | none => .ok (lookback.take token)

/-- Look at the tokens of a text one after the other, up to the end of input. -/
def run (lookback : Lookback) (scanner : Scanner) : Except Fault Unit :=
  match read : scanner.next with
  | (.error fault, _) => .error fault
  | (.ok token, after) =>
      match lookback.step token with
      | .error fault => .error fault
      | .ok next =>
          if last : token.kind = .endOfInput then
            .ok ()
          else
            have _shorter := Scanner.length_rest_next_lt read last
            next.run after
termination_by scanner.rest.length

/-- Where no token is found, there is that fault. -/
theorem run_of_error {lookback : Lookback} {scanner after : Scanner} {fault : Fault}
    (next : scanner.next = (.error fault, after)) : lookback.run scanner = .error fault := by
  rw [run]
  split <;> simp_all

/-- Otherwise the next token is rejected, or it is the last, or the rest is looked at. -/
theorem run_of_token {lookback : Lookback} {scanner after : Scanner} {token : Token}
    (next : scanner.next = (.ok token, after)) :
    lookback.run scanner =
      (lookback.step token).bind fun behind =>
        if token.kind = .endOfInput then .ok () else behind.run after := by
  rw [run]
  split
  · simp_all
  · rename_i found
    cases found.symm.trans next
    cases lookback.step token with
    | error fault => rfl
    | ok behind => simp [Except.bind]

/-- The outcome depends on the scanner only by its next token. -/
theorem run_congr {scanner scanner' : Scanner} (same : scanner.next = scanner'.next)
    (lookback : Lookback) : lookback.run scanner = lookback.run scanner' := by
  rcases next : scanner'.next with ⟨fault | token, after⟩
  · rw [run_of_error (same.trans next), run_of_error next]
  · rw [run_of_token (same.trans next), run_of_token next]

/-- What is kept of the tokens before says what kind of type is pending. -/
inductive Recalls : Lookback → Pending → Prop where
  | empty {lookback : Lookback} (awaits : awaitsType lookback.previous = true) :
      Recalls lookback .empty
  | name {lookback : Lookback} (named : lookback.previous = some .name) :
      Recalls lookback (.name lookback.name)
  | type {lookback : Lookback} {whole : TypeExpr}
      (closed : closedCollection lookback.previous = true) (name : lookback.name = whole.name) :
      Recalls lookback (.type whole)

/-- What is kept of the tokens before and what a draft makes of them agree. -/
structure Mirrors (lookback : Lookback) (draft : Draft) : Prop where
  stack : lookback.stack = draft.frames.map fun frame => (frame.bracket.closer, frame.name)
  pending : lookback.Recalls draft.pending

section Recalling

variable {lookback : Lookback} {pending : Pending}

/-- A type has to come next exactly where none is pending. -/
theorem Recalls.awaitsType_eq (recalls : lookback.Recalls pending) :
    awaitsType lookback.previous = pending.type?.isNone := by
  cases recalls with
  | empty awaits => exact awaits
  | name named => rw [named]; rfl
  | type closed =>
      cases kind : lookback.previous with
      | none => simp [kind, closedCollection] at closed
      | some kind' => cases kind' <;> simp_all [closedCollection, awaitsType, Pending.type?]

/-- A collection was closed just before exactly where one is pending. -/
theorem Recalls.closedCollection_iff (recalls : lookback.Recalls pending) :
    closedCollection lookback.previous = true ↔ ∃ whole, pending = .type whole := by
  cases recalls with
  | empty awaits =>
      cases kind : lookback.previous with
      | none => simp [closedCollection]
      | some kind' => cases kind' <;> simp_all [closedCollection, awaitsType]
  | name named => simp [named, closedCollection]
  | type closed => simp [closed]

/-- The token before was a name exactly where a name is pending. -/
theorem Recalls.previous_eq_iff (recalls : lookback.Recalls pending) :
    lookback.previous = some .name ↔ ∃ text, pending = .name text := by
  cases recalls with
  | empty awaits =>
      simp only [reduceCtorEq, exists_false, iff_false]
      intro named
      simp [named, awaitsType] at awaits
  | name named => simp [named]
  | type closed =>
      simp only [reduceCtorEq, exists_false, iff_false]
      intro named
      simp [named, closedCollection] at closed

/-- The name that is kept is the name of the pending type. -/
theorem Recalls.name_eq {type : TypeExpr} (recalls : lookback.Recalls pending)
    (whole : pending.type? = some type) : lookback.name = type.name := by
  cases recalls with
  | empty => cases whole
  | name => cases whole; rfl
  | type _ name => cases whole; exact name

/-- A name is wrong where a type is pending. -/
theorem Recalls.verdict_name (recalls : lookback.Recalls pending) (due : TokenKind) :
    verdict lookback.previous due .name =
      if pending.type?.isSome then some .duplicateName else none := by
  have named := recalls.previous_eq_iff
  have closed := recalls.closedCollection_iff
  cases pending <;> simp_all [verdict, Pending.type?]

/-- An opening bracket is wrong where a collection is pending. -/
theorem Recalls.verdict_of_opens {kind : TokenKind} {bracket : Bracket}
    (recalls : lookback.Recalls pending) (due : TokenKind) (opens : kind.opens? = some bracket) :
    verdict lookback.previous due kind =
      if (pending.head? bracket).isNone then some .duplicateSuffix else none := by
  have closed := recalls.closedCollection_iff
  cases kind <;> simp [TokenKind.opens?] at opens <;>
    cases pending <;> simp_all [verdict, Pending.head?]

/-- A separator is wrong where no type is pending. -/
theorem Recalls.verdict_separator (recalls : lookback.Recalls pending) (due : TokenKind) :
    verdict lookback.previous due .separator =
      if pending.type?.isNone then some fun _ => .missingName else none := by
  simp [verdict, recalls.awaitsType_eq]

/-- A terminator is wrong where no type is pending, and where another one is due. -/
theorem Recalls.verdict_of_isTerminator {kind : TokenKind} (recalls : lookback.Recalls pending)
    (due : TokenKind) (ends : kind.isTerminator = true) :
    verdict lookback.previous due kind =
      if pending.type?.isNone then some fun _ => .missingName
      else if kind = due then none
      else if kind = .endOfInput then some fun _ => .unclosed [due]
      else some fun _ => .mismatched [due] := by
  cases kind <;> simp [TokenKind.isTerminator] at ends <;>
    simp [verdict, recalls.awaitsType_eq, TokenKind.isTerminator]

/-- The name that a bracket is opened with is the one that the draft gives it. -/
theorem Recalls.name_of_head {bracket : Bracket} {name : String}
    (recalls : lookback.Recalls pending) (head : pending.head? bracket = some name) :
    (if lookback.previous = some .name then lookback.name else bracket.defaultName) = name := by
  have named := recalls.previous_eq_iff
  cases pending with
  | type whole => cases head
  | empty =>
      cases head
      simp [named]
  | name text =>
      cases head
      cases recalls with
      | name named => simp [named]

end Recalling

section Mirroring

variable {lookback : Lookback} {draft : Draft}

/-- The same terminator is due. -/
theorem Mirrors.due_eq (mirrors : lookback.Mirrors draft) : lookback.due = draft.closer := by
  unfold due Draft.closer
  rw [mirrors.stack]
  cases draft.frames <;> rfl

/-- A token that the draft rejects is rejected with the same fault, unless the draft has no
room for it. -/
theorem Mirrors.step_of_rejects {token : Token} {fault : Fault} (mirrors : lookback.Mirrors draft)
    (rejects : draft.Rejects token fault) (room : fault ≠ .tooDeep token.location) :
    lookback.step token = .error fault := by
  have recalls := mirrors.pending
  unfold step
  rw [mirrors.due_eq]
  cases rejects with
  | named kind pending =>
      rw [kind, recalls.verdict_name]
      simp [pending, recalls.name_eq pending]
  | missing kind pending =>
      rcases kind with kind | kind
      · rw [kind, recalls.verdict_separator]
        simp [pending]
      · rw [recalls.verdict_of_isTerminator _ kind]
        simp [pending]
  | suffixed kind pending =>
      rw [recalls.verdict_of_opens _ kind, pending]
      rw [pending] at recalls
      simp [Pending.head?, recalls.name_eq rfl]
  | full => exact absurd rfl room
  | mismatched kind pending due more =>
      rw [recalls.verdict_of_isTerminator _ kind]
      simp [pending, due, more]
  | unclosed pending due last =>
      rw [last] at due
      rw [last, recalls.verdict_of_isTerminator _ rfl]
      simp [pending, due]

/-- Opening a bracket keeps up with the draft. -/
theorem Mirrors.take_of_opens {token : Token} {bracket : Bracket} {name : String}
    (mirrors : lookback.Mirrors draft) (opens : token.kind.opens? = some bracket)
    (head : draft.pending.head? bracket = some name) :
    (lookback.take token).Mirrors
      ⟨⟨name, bracket, draft.finished⟩ :: draft.frames, [], .empty⟩ := by
  have named := mirrors.pending.name_of_head head
  have taken : lookback.take token =
      lookback.push token.kind bracket.closer bracket.defaultName := by
    cases kind : token.kind <;> simp [kind, TokenKind.opens?] at opens <;> subst opens <;>
      simp [take, kind, Bracket.closer, Bracket.defaultName]
  rw [taken, push, named]
  refine ⟨by simp [mirrors.stack], .empty ?_⟩
  cases kind : token.kind <;> simp [kind, TokenKind.opens?] at opens <;> rfl

/-- Ending the list inside a bracket keeps up with the draft. -/
theorem Mirrors.take_of_closer {token : Token} {frame : Frame} {frames : List Frame}
    (mirrors : lookback.Mirrors draft) (stack : draft.frames = frame :: frames)
    (closes : token.kind = frame.bracket.closer) (types : List TypeExpr) :
    (lookback.take token).Mirrors (Draft.leave frame frames types) := by
  have below := mirrors.stack
  rw [stack, List.map_cons] at below
  cases bracket : frame.bracket <;> rw [bracket] at closes below
  case hashKeys =>
    simp only [take, closes, Bracket.closer, turn, below, Draft.leave, bracket]
    exact ⟨rfl, .empty rfl⟩
  all_goals
    simp only [take, closes, Bracket.closer, pop, below, Draft.leave, bracket]
    exact ⟨rfl, .type rfl rfl⟩

/-- Where the draft goes on with a token, so does the lookback. -/
theorem Mirrors.step_of_moves {next : Draft} {token : Token} (mirrors : lookback.Mirrors draft)
    (move : draft.Moves token next) :
    lookback.step token = .ok (lookback.take token) ∧ (lookback.take token).Mirrors next := by
  have recalls := mirrors.pending
  unfold step
  rw [mirrors.due_eq]
  cases move with
  | name kind free =>
      rw [kind, recalls.verdict_name, free]
      refine ⟨rfl, ?_⟩
      simp only [take, kind]
      exact ⟨mirrors.stack, .name rfl⟩
  | separate kind pending =>
      rw [kind, recalls.verdict_separator, pending]
      refine ⟨rfl, ?_⟩
      simp only [take, kind]
      exact ⟨mirrors.stack, .empty rfl⟩
  | enter kind head room =>
      rw [recalls.verdict_of_opens _ kind, head]
      exact ⟨rfl, mirrors.take_of_opens kind head⟩
  | @leave frame _ _ stack kind pending =>
      have ends : token.kind.isTerminator = true := kind ▸ frame.bracket.isTerminator_closer
      have due : token.kind = draft.closer := by rw [kind, Draft.closer, stack]
      rw [recalls.verdict_of_isTerminator _ ends, pending, if_pos due]
      exact ⟨rfl, mirrors.take_of_closer stack kind _⟩

/-- What the draft takes, the lookback takes as well. -/
theorem Mirrors.run_of_takes {next : Draft} {scanner after : Scanner} {tokens : List Token}
    (mirrors : lookback.Mirrors draft) (takes : draft.Takes tokens next)
    (yields : scanner.Yields tokens after) :
    ∃ behind : Lookback, behind.Mirrors next ∧ lookback.run scanner = behind.run after := by
  induction yields generalizing lookback draft with
  | here =>
      cases takes
      exact ⟨lookback, mirrors, rfl⟩
  | @blank _ _ _ rest _ _ blank _ ih =>
      obtain ⟨behind, mirrors', run⟩ := ih mirrors takes
      refine ⟨behind, mirrors', ?_⟩
      rw [run_congr (Scanner.next_blank blank rest), run]
  | token found shown more _ ih =>
      cases takes with
      | token move rest =>
          obtain ⟨goesOn, mirrors'⟩ := mirrors.step_of_moves move
          obtain ⟨behind, mirrors'', run⟩ := ih mirrors' rest
          refine ⟨behind, mirrors'', ?_⟩
          rw [run_of_token (Scanner.next_lexeme found shown), goesOn]
          simp [Except.bind, more, run]

/-- Where reading into the draft ends, the lookback comes to the same end, unless the draft has
no room. -/
theorem Mirrors.run_of_halts {scanner : Scanner} {result : Except Fault (List TypeExpr)}
    (mirrors : lookback.Mirrors draft) (halts : draft.Halts scanner result)
    (room : ∀ location, result ≠ .error (.tooDeep location)) :
    lookback.run scanner = result.map fun _ => () := by
  cases halts with
  | stuck stuck => rw [run_of_error (Scanner.next_stuck stuck)]; rfl
  | rejected shown found rejects =>
      have rejected := mirrors.step_of_rejects rejects fun full => room _ (congrArg _ full)
      rw [run_of_token (Scanner.next_lexeme found shown), rejected]
      rfl
  | complete closed pending =>
      have due : lookback.due = .endOfInput := by rw [mirrors.due_eq, Draft.closer, closed]
      rw [run_of_token (Scanner.next_end _ _), step, due,
        mirrors.pending.verdict_of_isTerminator _ rfl, pending]
      rfl

end Mirroring

end Lookback

/-- A draft has no room only where the text goes over the nesting limit. -/
theorem Draft.Halts.not_nestsWithin {draft : Draft} {scanner here : Scanner} {tokens : List Token}
    {location : Location} (halts : draft.Halts here (.error (.tooDeep location)))
    (takes : Draft.empty.Takes tokens draft) (yields : scanner.Yields tokens here) :
    ¬ scanner.NestsWithin Draft.nestingLimit := by
  intro nested
  cases halts with
  | @rejected _ _ kind _ _ _ shown found rejects =>
      cases rejects with
      | full opens head full =>
          have more : kind ≠ .endOfInput := by
            rintro rfl
            cases opens
          have within := nested _ _ (yields.trans (.token found shown more (.here _)))
          have frames := takes.length_frames
          simp only [openBrackets_append, openBrackets_cons, openBrackets_nil,
            TokenKind.nesting_of_opens opens] at within
          simp only [Draft.empty, List.length_nil] at frames
          omega

/-- Reading a text into drafts and looking at its tokens with one token of lookback come to the
same end, with the same fault if there is one. The only exception is a text that goes over the
nesting limit. -/
theorem parse_eq_run_lookback (text source : String) :
    (parse text source).map (fun _ => ()) = Lookback.start.run (.start text source) ∨
      (∃ location, parse text source = .error (.tooDeep location)) ∧
        ¬ (Scanner.start text source).NestsWithin Draft.nestingLimit := by
  obtain ⟨tokens, draft, here, yields, takes, halts⟩ :=
    Draft.result_eq_iff.1 (rfl : parse text source = _)
  by_cases room : ∃ location, parse text source = .error (.tooDeep location)
  · obtain ⟨location, full⟩ := room
    rw [full] at halts
    exact .inr ⟨⟨location, full⟩, halts.not_nestsWithin takes yields⟩
  · have start : Lookback.start.Mirrors Draft.empty := ⟨rfl, .empty rfl⟩
    obtain ⟨behind, mirrors, run⟩ := start.run_of_takes takes yields
    rw [run, mirrors.run_of_halts halts (not_exists.1 room)]
    exact .inl rfl

/-- Behind a collection without a name, a name is refused with the default one. -/
example : Lookback.start.run (.start "(A)B" unnamedSource) =
    .error (.duplicateName "Array" ⟨.name, "B", ⟨unnamedSource, 1, 4, 3⟩⟩) := by
  decide +kernel

end TypeProse
