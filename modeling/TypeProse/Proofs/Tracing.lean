import TypeProse.Proofs.Pulling
import TypeProse.Proofs.Recognition

/-!
# The trace of a reading

What happens while a text is read can be followed in two ways. Token by token, every token
that is taken is one event, and behind it comes the type that it ends, if one is pending
(`Traces`). Type by type, `Draft.logged` lists the types that a draft has finished, and a move
adds to them what its token ends, so that in the end all types were finished in post-order.
-/

namespace TypeProse

namespace TypeExpr

mutual

/-- A type and all types inside it, each behind the types inside it. -/
def postOrder : TypeExpr → List TypeExpr
  | .simple name => [.simple name]
  | .collection name types => postOrderAll types ++ [.collection name types]
  | .fixedCollection name types => postOrderAll types ++ [.fixedCollection name types]
  | .hashCollection name keys values =>
      postOrderAll keys ++ postOrderAll values ++ [.hashCollection name keys values]

/-- Several types in post-order, one after the other. -/
def postOrderAll : List TypeExpr → List TypeExpr
  | [] => []
  | type :: types => type.postOrder ++ postOrderAll types

end

@[simp] theorem postOrderAll_append (front back : List TypeExpr) :
    postOrderAll (front ++ back) = postOrderAll front ++ postOrderAll back := by
  induction front with
  | nil => rfl
  | cons type front ih => simp [postOrderAll, ih]

/-- The types inside a type come before it. -/
theorem postOrder_eq (type : TypeExpr) :
    type.postOrder = postOrderAll type.children ++ [type] := by
  cases type <;> simp [postOrder, children, postOrderAll]

mutual

/-- The same types are met in post-order as on a walk. -/
theorem postOrder_perm : (type : TypeExpr) → type.postOrder.Perm type.walk
  | .simple _ => .refl _
  | .collection _ types | .fixedCollection _ types => by
      rw [postOrder, walk]
      exact (List.perm_append_singleton _ _).trans ((postOrderAll_perm types).cons _)
  | .hashCollection _ keys values => by
      rw [postOrder, walk]
      have inside := (postOrderAll_perm keys).append (postOrderAll_perm values)
      exact (List.perm_append_singleton _ _).trans (inside.cons _)

theorem postOrderAll_perm : (types : List TypeExpr) → (postOrderAll types).Perm (walkAll types)
  | [] => .refl _
  | type :: types => (postOrder_perm type).append (postOrderAll_perm types)

end

end TypeExpr

open TypeExpr

/-- Whether a token of this kind ends a type: the separators and the terminators. -/
def TokenKind.endsType (kind : TokenKind) : Bool :=
  kind = .separator || kind.isTerminator

/-- The type that was finished and the token behind it, if that is what happened. -/
def Event.finished? : Event → Option (TypeExpr × Token)
  | .token _ => none
  | .finished type before => some (type, before)

/-- The types that were finished, each with the token behind it. -/
def finishedIn (events : List Event) : List (TypeExpr × Token) :=
  events.filterMap Event.finished?

@[simp] theorem finishedIn_nil : finishedIn [] = [] :=
  rfl

@[simp] theorem finishedIn_token (token : Token) (events : List Event) :
    finishedIn (.token token :: events) = finishedIn events :=
  rfl

@[simp] theorem finishedIn_finished (type : TypeExpr) (before : Token) (events : List Event) :
    finishedIn (.finished type before :: events) = (type, before) :: finishedIn events :=
  rfl

@[simp] theorem finishedIn_append (front back : List Event) :
    finishedIn (front ++ back) = finishedIn front ++ finishedIn back :=
  List.filterMap_append

/-- The kind of the last token. -/
def lastKind (tokens : List Token) : Option TokenKind :=
  tokens.getLast?.map Token.kind

@[simp] theorem lastKind_append_singleton (tokens : List Token) (token : Token) :
    lastKind (tokens ++ [token]) = some token.kind := by
  simp [lastKind]

/-- What happens when tokens are taken behind others. Each token is one event. Behind it, if it
ends a type and one is pending, comes that type, which is derived from the tokens right before
it. A type is pending unless one has to come next. -/
inductive Traces : List Token → List Token → List Event → Prop where
  | none (before : List Token) : Traces before [] []
  | taken {before tokens : List Token} {token : Token} {events : List Event}
      (goesOn : token.kind.endsType = true → awaitsType (lastKind before) = true)
      (behind : Traces (before ++ [token]) tokens events) :
      Traces before (token :: tokens) (.token token :: events)
  | finished {before front span tokens : List Token} {token : Token} {type : TypeExpr}
      {events : List Event} (ends : token.kind.endsType = true)
      (pending : awaitsType (lastKind before) = false) (split : before = front ++ span)
      (spec : IsTypeSpec span type) (behind : Traces (before ++ [token]) tokens events) :
      Traces before (token :: tokens) (.token token :: .finished type token :: events)

/-- Two stretches of tokens are followed one after the other. -/
theorem Traces.append {before front back : List Token} {events events' : List Event}
    (first : Traces before front events) (second : Traces (before ++ front) back events') :
    Traces before (front ++ back) (events ++ events') := by
  induction first with
  | none => simpa using second
  | taken goesOn _ ih => exact .taken goesOn (ih (by simpa using second))
  | finished ends pending split spec _ ih =>
      exact .finished ends pending split spec (ih (by simpa using second))

/-- The types that are inside a pending collection. -/
def Pending.inside : Pending → List TypeExpr
  | .type whole => postOrderAll whole.children
  | _ => []

@[simp] theorem Pending.inside_empty : Pending.empty.inside = [] :=
  rfl

/-- A pending type comes behind the types inside it. -/
theorem Pending.inside_append {pending : Pending} {type : TypeExpr}
    (whole : pending.type? = some type) : pending.inside ++ [type] = type.postOrder := by
  cases pending with
  | empty => cases whole
  | name | type =>
      cases whole
      simp [inside, postOrder_eq, children, postOrderAll]

/-- Where a type can be the head of a bracket, no types are inside it. -/
theorem Pending.inside_of_head {pending : Pending} {bracket : Bracket} {name : String}
    (head : pending.head? bracket = some name) : pending.inside = [] := by
  cases pending with
  | empty | name => rfl
  | type => cases head

/-- The keys in front of the values that a bracket holds. -/
def Bracket.inside : Bracket → List TypeExpr
  | .hashValues keys => postOrderAll keys
  | _ => []

theorem Bracket.inside_of_opens {kind : TokenKind} {bracket : Bracket}
    (opens : kind.opens? = some bracket) : bracket.inside = [] := by
  cases kind <;> cases opens <;> rfl

namespace Draft

/-- The types that were finished in the lists around the innermost one, outermost first. -/
def loggedAround : List Frame → List TypeExpr
  | [] => []
  | frame :: frames =>
      loggedAround frames ++ postOrderAll frame.before.reverse ++ frame.bracket.inside

/-- The types that a draft has finished, in the order in which it has. The pending type is not
among them, but the types inside it are. -/
def logged (draft : Draft) : List TypeExpr :=
  loggedAround draft.frames ++ postOrderAll draft.finished.reverse ++ draft.pending.inside

/-- With the pending type, all types of the innermost list are finished. -/
theorem logged_append {draft : Draft} {type : TypeExpr} (whole : draft.pending.type? = some type) :
    draft.logged ++ [type] =
      loggedAround draft.frames ++ postOrderAll (type :: draft.finished).reverse := by
  rw [logged, List.append_assoc, Pending.inside_append whole, List.reverse_cons,
    postOrderAll_append]
  simp [postOrderAll]

/-- The list inside a bracket was finished when the bracket is left. -/
theorem logged_leave (frame : Frame) (frames : List Frame) (types : List TypeExpr) :
    (leave frame frames types).logged = loggedAround (frame :: frames) ++ postOrderAll types := by
  cases bracket : frame.bracket <;>
    simp [leave, bracket, logged, loggedAround, Bracket.inside, Pending.inside, children,
      postOrderAll]

section Step

variable {draft next : Draft} {token : Token} {before : List Token}

/-- A token that ends a type is followed by that type. -/
theorem events_of_endsType {type : TypeExpr} (ends : token.kind.endsType = true)
    (pending : draft.pending.type? = some type) :
    draft.events token = [.token token, .finished type token] := by
  simp only [TokenKind.endsType, Bool.or_eq_true, decide_eq_true_eq] at ends
  simp [events, ends, pending]

/-- A token is alone if it ends no type, or if there is none. -/
theorem events_eq_singleton
    (goesOn : token.kind.endsType = true → draft.pending.type? = none) :
    draft.events token = [.token token] := by
  unfold events
  split
  · rename_i ends
    rw [goesOn (by simpa [TokenKind.endsType] using ends)]
    rfl
  · rfl

/-- The closer of a bracket ends a type. -/
theorem endsType_of_closer {bracket : Bracket} (closes : token.kind = bracket.closer) :
    token.kind.endsType = true := by
  simp [TokenKind.endsType, closes, bracket.isTerminator_closer]

/-- A token that opens a bracket ends no type. -/
theorem endsType_of_opens {bracket : Bracket} (opens : token.kind.opens? = some bracket) :
    token.kind.endsType = false := by
  cases kind : token.kind <;> rw [kind] at opens <;> cases opens <;> rfl

/-- Behind a token, a type has to come next exactly where none is pending. -/
theorem Moves.awaitsType_eq (move : draft.Moves token next) :
    awaitsType (some token.kind) = next.pending.type?.isNone := by
  cases move with
  | name kind => rw [kind]; rfl
  | separate kind => rw [kind]; rfl
  | enter kind => cases found : token.kind <;> rw [found] at kind <;> cases kind <;> rfl
  | @leave frame _ _ _ kind =>
      cases bracket : frame.bracket <;> rw [kind, bracket] <;> simp only [Draft.leave, bracket] <;>
        rfl

/-- What one token ends: the types that a draft has finished become more by the types that are
said to be finished, and each of these stands before a token that ends a type. -/
theorem Moves.finishedIn_events (move : draft.Moves token next) :
    draft.logged ++ (finishedIn (draft.events token)).map Prod.fst = next.logged ∧
      (finishedIn (draft.events token)).map Prod.snd =
        [token].filter fun token => token.kind.endsType := by
  cases move with
  | name kind free =>
      have ends : token.kind.endsType = false := by rw [kind]; rfl
      rw [events_eq_singleton (by simp [ends])]
      simp [ends, logged, free, Pending.inside]
  | enter kind head =>
      have ends := endsType_of_opens kind
      rw [events_eq_singleton (by simp [ends])]
      simp [ends, logged, loggedAround, postOrderAll, Bracket.inside_of_opens kind,
        Pending.inside_of_head head]
  | separate kind whole =>
      have ends : token.kind.endsType = true := by rw [kind]; rfl
      rw [events_of_endsType ends whole]
      refine ⟨(logged_append whole).trans ?_, by simp [ends]⟩
      simp [logged]
  | leave stack kind whole =>
      have ends := endsType_of_closer kind
      rw [events_of_endsType ends whole, logged_leave, ← stack]
      exact ⟨logged_append whole, by simp [ends]⟩

/-- The tokens that lead to a draft spell it, and the last of them tells whether a type is
pending. -/
structure Follows (draft : Draft) (before : List Token) : Prop where
  spells : draft.Spells before
  awaits : awaitsType (lastKind before) = draft.pending.type?.isNone

theorem empty_follows : empty.Follows [] where
  spells := ⟨[], [], [], rfl, .none, .none, .empty⟩
  awaits := rfl

/-- A token leads to the next draft. -/
theorem Moves.follows (move : draft.Moves token next) (follows : draft.Follows before) :
    next.Follows (before ++ [token]) where
  spells := move.spells follows.spells
  awaits := by rw [lastKind_append_singleton, move.awaitsType_eq]

/-- The events of one token are as they should be, whatever becomes of the draft. -/
theorem Follows.traces (follows : draft.Follows before) (token : Token) :
    Traces before [token] (draft.events token) := by
  have awaits := follows.awaits
  obtain ⟨outer, front, last, split, -, -, pending⟩ := follows.spells
  cases whole : draft.pending.type? with
  | none =>
      rw [events_eq_singleton fun _ => whole]
      exact .taken (fun _ => by simpa [whole] using awaits) (.none _)
  | some type =>
      by_cases ends : token.kind.endsType = true
      · rw [events_of_endsType ends whole]
        rw [← List.append_assoc] at split
        exact .finished ends (by simpa [whole] using awaits) split (pending.isTypeSpec whole)
          (.none _)
      · rw [events_eq_singleton fun ends' => absurd ends' ends]
        exact .taken (fun ends' => absurd ends' ends) (.none _)

end Step

/-- What happens while a draft takes tokens. -/
inductive Logs : Draft → List Token → List Event → Draft → Prop where
  | none (draft : Draft) : Logs draft [] [] draft
  | token {draft next after : Draft} {token : Token} {tokens : List Token} {events : List Event}
      (move : draft.Moves token next) (behind : Logs next tokens events after) :
      Logs draft (token :: tokens) (draft.events token ++ events) after

section Run

variable {draft next : Draft} {tokens before : List Token} {events : List Event}

theorem Takes.exists_logs (takes : draft.Takes tokens next) :
    ∃ events, draft.Logs tokens events next := by
  induction takes with
  | none draft => exact ⟨[], .none draft⟩
  | token move _ ih =>
      obtain ⟨events, logs⟩ := ih
      exact ⟨_, .token move logs⟩

/-- Reading on behind the tokens that are taken, it is their events that have happened. -/
theorem Logs.events_read (logs : draft.Logs tokens events next) {scanner after : Scanner}
    (yields : scanner.Yields tokens after) :
    (draft.read scanner).events = events ++ (next.read after).events := by
  induction yields generalizing draft events with
  | here =>
      cases logs
      rfl
  | blank blank _ ih =>
      rw [read_congr (Scanner.next_blank blank _)]
      exact ih logs
  | token found shown _ _ ih =>
      cases logs with
      | token move behind =>
          rw [read_of_reading (Scanner.next_lexeme found shown)
            ((step_eq_reading_iff shown).2 move), List.append_assoc]
          exact congrArg _ (ih behind)

/-- Token by token, the events are as they should be, and the tokens lead to the draft. -/
theorem Logs.traces (logs : draft.Logs tokens events next) (follows : draft.Follows before) :
    Traces before tokens events ∧ next.Follows (before ++ tokens) := by
  induction logs generalizing before with
  | none => exact ⟨.none _, by simpa using follows⟩
  | token move _ ih =>
      obtain ⟨traces, follows'⟩ := ih (move.follows follows)
      exact ⟨(follows.traces _).append traces, by simpa using follows'⟩

/-- Type by type, the events add up to the types that the draft has finished. -/
theorem Logs.finishedIn_eq (logs : draft.Logs tokens events next) :
    draft.logged ++ (finishedIn events).map Prod.fst = next.logged ∧
      (finishedIn events).map Prod.snd = tokens.filter fun token => token.kind.endsType := by
  induction logs with
  | none => simp
  | @token _ _ _ token tokens _ move _ ih =>
      obtain ⟨types, behind⟩ := move.finishedIn_events
      obtain ⟨types', behind'⟩ := ih
      rw [finishedIn_append, List.map_append, List.map_append, ← List.append_assoc, types, types',
        behind, behind', ← List.filter_append]
      exact ⟨rfl, rfl⟩

/-- How the trace ends: without a further event where no token starts, or with those of one
more token, which is rejected or is the end of input that completes the draft. -/
inductive Closes (draft : Draft) :
    List Token → List Event → Except Fault (List TypeExpr) → Prop where
  | stuck {fault : Fault} (invalid : fault.code = .invalidCharacter) :
      Closes draft [] [] (.error fault)
  | rejected {token : Token} {fault : Fault} (rejects : draft.Rejects token fault) :
      Closes draft [token] (draft.events token) (.error fault)
  | complete {token : Token} {type : TypeExpr} (last : token.kind = .endOfInput)
      (closed : draft.frames = []) (whole : draft.pending.type? = some type) :
      Closes draft [token] (draft.events token) (.ok (type :: draft.finished).reverse)

variable {result : Except Fault (List TypeExpr)}

theorem Halts.closes {scanner : Scanner} (halts : draft.Halts scanner result) :
    draft.Closes (draft.read scanner).pulled (draft.read scanner).events result := by
  cases halts with
  | stuck stuck =>
      rw [read_of_error (Scanner.next_stuck stuck)]
      exact .stuck rfl
  | rejected shown found rejects =>
      rw [read_of_rejected (Scanner.next_lexeme found shown) (step_eq_rejected_iff.2 rejects),
        Reading.pulled, filterMap_events]
      exact .rejected rejects
  | complete closed whole =>
      rw [read_of_complete (Scanner.next_end _ _)
        (step_eq_complete_iff.2 ⟨rfl, closed, _, whole, rfl⟩), Reading.pulled, filterMap_events]
      exact .complete rfl closed whole

/-- The last events are as they should be, too. -/
theorem Closes.traces (closes : draft.Closes tokens events result)
    (follows : draft.Follows before) : Traces before tokens events := by
  cases closes with
  | stuck => exact .none _
  | rejected | complete => exact follows.traces _

/-- A terminator that is refused for another one has finished a type before. -/
theorem Closes.events_of_notDue {expected : List TokenKind} {found : Token}
    (closes : draft.Closes tokens events result)
    (refused : result = .error (.mismatched expected found) ∨
      result = .error (.unclosed expected found)) :
    ∃ type, events = [.token found, .finished type found] := by
  cases closes with
  | stuck invalid => rcases refused with ⟨⟨⟩⟩ | ⟨⟨⟩⟩ <;> cases invalid
  | complete => simp at refused
  | rejected rejects =>
      rcases refused with ⟨⟨⟩⟩ | ⟨⟨⟩⟩
      · cases rejects with
        | mismatched kind whole =>
            exact ⟨_, events_of_endsType (by simp [TokenKind.endsType, kind]) whole⟩
      · cases rejects with
        | unclosed whole _ last => exact ⟨_, events_of_endsType (by rw [last]; rfl) whole⟩

/-- Where a type is missing, none is finished. -/
theorem Closes.events_of_missing {found : Token} (closes : draft.Closes tokens events result)
    (refused : result = .error (.missingName found)) : events = [.token found] := by
  cases closes with
  | stuck invalid => cases refused; cases invalid
  | complete => cases refused
  | rejected rejects =>
      cases refused
      cases rejects with
      | missing _ absent => exact events_eq_singleton fun _ => absent

/-- At the end all types are finished, each before a token that ends it. -/
theorem Closes.finishedIn_eq {types : List TypeExpr}
    (closes : draft.Closes tokens events (.ok types)) :
    draft.logged ++ (finishedIn events).map Prod.fst = postOrderAll types ∧
      (finishedIn events).map Prod.snd = tokens.filter fun token => token.kind.endsType := by
  cases closes with
  | complete last closed whole =>
      have ends : _ = true := congrArg TokenKind.endsType last
      rw [events_of_endsType ends whole]
      refine ⟨(logged_append whole).trans ?_, by simp [ends]⟩
      rw [closed]
      rfl

end Run

end Draft

namespace Reading

/-- The answers that reading had from the scanner: the tokens that it has taken and, if reading
ended at a character at which no token starts, that fault. -/
def answers (reading : Reading) : List Scanner.Answer :=
  reading.pulled.map .token ++
    match reading.result with
    | .ok _ => []
    | .error fault => if fault.code = .invalidCharacter then [.fault fault] else []

/-- The trace of a reading is a record of it. Its tokens are what the scanner has answered to
requests for the next token, and there was no other request. Behind a token stands the type that
it ends, also if it is refused as another terminator is due, but not if there is no type. Where
reading ends with types, these and all types inside them were finished in post-order, each before
the separator or terminator behind it. -/
structure Records (reading : Reading) (scanner : Scanner) : Prop where
  answered : scanner.nextAnswers reading.answers.length = reading.answers
  left : reading.scanner = scanner.driven (List.replicate reading.answers.length .next)
  traces : Traces [] reading.pulled reading.events
  notDue (expected : List TokenKind) (found : Token)
      (refused : reading.result = .error (.mismatched expected found) ∨
        reading.result = .error (.unclosed expected found)) :
      ∃ front type, reading.events = front ++ [.token found, .finished type found]
  missing (found : Token) (refused : reading.result = .error (.missingName found)) :
      ∃ front, reading.events = front ++ [.token found]
  postOrder (types : List TypeExpr) (read : reading.result = .ok types) :
      (finishedIn reading.events).map Prod.fst = postOrderAll types
  behind (types : List TypeExpr) (read : reading.result = .ok types) :
      (finishedIn reading.events).map Prod.snd =
        reading.pulled.filter fun token => token.kind.endsType
  count (types : List TypeExpr) (read : reading.result = .ok types) :
      (walkAll types).length =
        reading.pulled.countP (fun token => token.kind = .separator) +
          reading.pulled.countP Token.isTerminator

end Reading

/-- A token that ends a type is a separator or a terminator, and not both. -/
theorem countP_endsType (tokens : List Token) :
    tokens.countP (fun token => token.kind.endsType) =
      tokens.countP (fun token => token.kind = .separator) + tokens.countP Token.isTerminator := by
  induction tokens with
  | nil => rfl
  | cons token tokens ih =>
      rw [List.countP_cons, List.countP_cons, List.countP_cons, ih]
      cases kind : token.kind <;>
        simp [kind, Token.isTerminator, TokenKind.endsType, TokenKind.isTerminator] <;> omega

/-- One request is answered with one token or a fault. -/
theorem Scanner.nextAnswers_one {scanner after : Scanner} {answer : Scanner.Answer}
    (answered : scanner.perform .next = (answer, after)) :
    scanner.nextAnswers 1 = [answer] ∧ after = scanner.driven [.next] := by
  simp [nextAnswers_succ, driven, answered]

namespace Draft

section Answers

variable {draft following : Draft} {scanner after : Scanner} {token : Token} {fault : Fault}

/-- Where no token is found, that is the only answer. -/
theorem answers_of_error (next : scanner.next = (.error fault, after)) :
    (draft.read scanner).answers = [.fault fault] := by
  have invalid : fault.code = .invalidCharacter := by
    rcases scanner.next_outcomes with ⟨_, _, found, _⟩ | ⟨_, _, found, _⟩ | ⟨_, _, _, found⟩ <;>
      cases next.symm.trans found
    rfl
  rw [read_of_error next]
  simp [Reading.answers, Reading.pulled, invalid]

/-- A token that is rejected is the last answer, and no fault comes behind it. -/
theorem answers_of_rejected (next : scanner.next = (.ok token, after))
    (progress : draft.step token = .rejected fault) :
    (draft.read scanner).answers = [.token token] := by
  have valid : fault.code ≠ .invalidCharacter := by
    cases step_eq_rejected_iff.1 progress <;> simp [Fault.code]
  rw [read_of_rejected next progress]
  simp [Reading.answers, Reading.pulled, filterMap_events, valid]

/-- So is the token that completes the draft. -/
theorem answers_of_complete {types : List TypeExpr} (next : scanner.next = (.ok token, after))
    (progress : draft.step token = .complete types) :
    (draft.read scanner).answers = [.token token] := by
  rw [read_of_complete next progress]
  simp [Reading.answers, Reading.pulled, filterMap_events]

/-- Any other token comes before the answers to the next draft. -/
theorem answers_of_reading (next : scanner.next = (.ok token, after))
    (progress : draft.step token = .reading following) :
    (draft.read scanner).answers = .token token :: (following.read after).answers := by
  rw [read_of_reading next progress]
  simp [Reading.answers, Reading.pulled, filterMap_events]

end Answers

/-- Reading asks the scanner for one token after the other until it ends. -/
theorem answers_read (draft : Draft) (scanner : Scanner) :
    scanner.nextAnswers (draft.read scanner).answers.length = (draft.read scanner).answers ∧
      (draft.read scanner).scanner =
        scanner.driven (List.replicate (draft.read scanner).answers.length .next) := by
  induction draft, scanner using Draft.read.induct with
  | case1 draft scanner fault after next =>
      rw [answers_of_error next, read_of_error next]
      exact Scanner.nextAnswers_one (by simp [Scanner.perform, next])
  | case2 draft scanner token after next fault rejected =>
      rw [answers_of_rejected next rejected, read_of_rejected next rejected]
      exact Scanner.nextAnswers_one (by simp [Scanner.perform, next])
  | case3 draft scanner token after next types complete =>
      rw [answers_of_complete next complete, read_of_complete next complete]
      exact Scanner.nextAnswers_one (by simp [Scanner.perform, next])
  | case4 draft scanner token after next following goesOn _ ih =>
      obtain ⟨answered, left⟩ := ih
      rw [answers_of_reading next goesOn, read_of_reading next goesOn, List.length_cons,
        Scanner.nextAnswers_succ, List.replicate_succ]
      simp only [Scanner.driven_cons, Scanner.perform, next]
      exact ⟨congrArg _ answered, left⟩

end Draft

/-- The trace of every reading is a record of it. -/
theorem records_readText (text source : String) :
    (readText text source).Records (.start text source) := by
  obtain ⟨tokens, draft, here, yields, takes, halts⟩ :=
    Draft.result_eq_iff.1 (rfl : parse text source = _)
  obtain ⟨events, logs⟩ := takes.exists_logs
  obtain ⟨traces, follows⟩ := logs.traces Draft.empty_follows
  have closes := halts.closes
  have whole : (readText text source).events = events ++ (draft.read here).events :=
    logs.events_read yields
  have pulled : (readText text source).pulled = tokens ++ (draft.read here).pulled :=
    (takes.read_eq yields).2
  have finished : ∀ types, (readText text source).result = .ok types →
      (finishedIn (readText text source).events).map Prod.fst = postOrderAll types ∧
        (finishedIn (readText text source).events).map Prod.snd =
          (readText text source).pulled.filter fun token => token.kind.endsType := by
    intro types read
    rw [show parse text source = .ok types from read] at closes
    obtain ⟨front, front'⟩ := logs.finishedIn_eq
    obtain ⟨back, back'⟩ := closes.finishedIn_eq
    rw [whole, pulled, finishedIn_append, List.map_append, List.map_append, List.filter_append,
      front', back', ← back, ← front]
    exact ⟨rfl, rfl⟩
  obtain ⟨answered, left⟩ := Draft.empty.answers_read (.start text source)
  refine ⟨answered, left, ?_, ?_, ?_, ?_, ?_, ?_⟩
  · rw [whole, pulled]
    exact traces.append (closes.traces follows)
  · intro expected found refused
    obtain ⟨type, last⟩ := closes.events_of_notDue refused
    exact ⟨events, type, whole.trans (congrArg _ last)⟩
  · intro found refused
    exact ⟨events, whole.trans (congrArg _ (closes.events_of_missing refused))⟩
  · exact fun types read => (finished types read).1
  · exact fun types read => (finished types read).2
  · intro types read
    obtain ⟨postOrder, behind⟩ := finished types read
    rw [← countP_endsType, List.countP_eq_length_filter, ← behind, List.length_map,
      ← (postOrderAll_perm types).length_eq, ← postOrder, List.length_map]

end TypeProse
