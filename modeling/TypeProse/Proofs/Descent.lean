import TypeProse.Proofs.Tracing

/-!
# Lists inside lists

A text can be read without keeping the open brackets in a draft: each bracket begins the
reading of a list of its own, which goes on with the same scanner and hands its types back to
the list around it. `Descent.ofList` reads so. As nothing in it bounds how often it goes on, it
is given fuel and tells when that is spent. It also writes down which list asks the scanner and
how each list ends, so that what it does can be compared with `Draft.read` call by call.

`Descent.innermost` begins in the list in which a draft stands. Its lemmas say what each token
makes of that list, by what it makes of the draft.
-/

namespace TypeProse

/-- What the reading of one list does. -/
inductive Call where
  /-- The list inside that many brackets asks the scanner for the next token. -/
  | asked (depth : Nat) (answer : Except Fault Token)
  /-- A list hands its types back. -/
  | returned
  /-- A list ends with a fault, which is its own or that of a list inside it. -/
  | raised (fault : Fault)
  deriving DecidableEq

/-- The answer of the scanner, if it was asked. -/
def Call.answer? : Call → Option Scanner.Answer
  | .asked _ answer => some (.ofNext answer)
  | .returned => none
  | .raised _ => none

/-- How the reading of a list went: its types or its fault, or nothing if the fuel is spent, the
scanner as it was left, and the calls on the way. -/
structure Descent where
  result? : Option (Except Fault (List TypeExpr))
  scanner : Scanner
  calls : List Call
  deriving DecidableEq

namespace Descent

/-- The answers that a list and the lists inside it had from the scanner. -/
def answers (descent : Descent) : List Scanner.Answer :=
  descent.calls.filterMap Call.answer?

/-- The list hands its types back. -/
def handBack (types : List TypeExpr) (scanner : Scanner) : Descent :=
  ⟨some (.ok types), scanner, [.returned]⟩

/-- The list ends with a fault. -/
def raise (fault : Fault) (scanner : Scanner) : Descent :=
  ⟨some (.error fault), scanner, [.raised fault]⟩

/-- The same with calls that were made before. -/
def behind (calls : List Call) (descent : Descent) : Descent :=
  { descent with calls := calls ++ descent.calls }

/-- Go on with the types of a list inside this one. A fault of the inner list is raised again. -/
def andThen (inner : Descent) (onward : List TypeExpr → Scanner → Descent) : Descent :=
  match inner.result? with
  | some (.ok types) => (onward types inner.scanner).behind inner.calls
  | some (.error fault) => { inner with calls := inner.calls ++ [.raised fault] }
  | none => inner

/-- A bracket takes the pending name or its default name, unless a collection is pending or too
many brackets are open. -/
def opening (bracket : Bracket) (depth : Nat) (pending : Pending) (token : Token)
    (scanner : Scanner) (inside : String → Descent) : Descent :=
  match pending with
  | .type type => raise (.duplicateSuffix type.name token) scanner
  | .empty =>
      if depth < Draft.nestingLimit then inside bracket.defaultName
      else raise (.tooDeep token.location) scanner
  | .name name =>
      if depth < Draft.nestingLimit then inside name
      else raise (.tooDeep token.location) scanner

/-- A terminator ends the list, if it is the one that is due. -/
def closing (closer : TokenKind) (finished : List TypeExpr) (pending : Pending) (token : Token)
    (scanner : Scanner) : Descent :=
  match pending.type? with
  | none => raise (.missingName token) scanner
  | some type =>
      if token.kind = closer then handBack (type :: finished).reverse scanner
      else if token.kind = .endOfInput then raise (.unclosed [closer] token) scanner
      else raise (.mismatched [closer] token) scanner

/-- Read on in the list inside `depth` brackets, up to the token that closes it. With every token
there is less fuel, for what follows in this list as for the lists inside it. -/
def ofList : Nat → Nat → TokenKind → List TypeExpr → Pending → Scanner → Descent
  | 0, _, _, _, _, scanner => ⟨none, scanner, []⟩
  | fuel + 1, depth, closer, finished, pending, scanner =>
      match scanner.next with
      | (.error fault, after) => behind [.asked depth (.error fault)] (raise fault after)
      | (.ok token, after) =>
          behind [.asked depth (.ok token)] <|
            match token.kind with
            | .name =>
                match pending.type? with
                | some type => raise (.duplicateName type.name token) after
                | none => ofList fuel depth closer finished (.name token.lexeme) after
            | .separator =>
                match pending.type? with
                | none => raise (.missingName token) after
                | some type => ofList fuel depth closer (type :: finished) .empty after
            | .openCollection =>
                opening .collection depth pending token after fun name =>
                  (ofList fuel (depth + 1) .closeCollection [] .empty after).andThen
                    fun types after =>
                      ofList fuel depth closer finished (.type (.collection name types)) after
            | .openFixed =>
                opening .fixed depth pending token after fun name =>
                  (ofList fuel (depth + 1) .closeFixed [] .empty after).andThen
                    fun types after =>
                      ofList fuel depth closer finished (.type (.fixedCollection name types)) after
            | .openHash =>
                -- The keys end at the arrow, and the values begin where the scanner stands then.
                opening .hashKeys depth pending token after fun name =>
                  (ofList fuel (depth + 1) .arrow [] .empty after).andThen fun keys after =>
                    (ofList fuel (depth + 1) .closeHash [] .empty after).andThen
                      fun values after =>
                        ofList fuel depth closer finished
                          (.type (.hashCollection name keys values)) after
            | _ => closing closer finished pending token after

/-- Read a text from its front. No bracket is open there, and the end of input closes the
list. -/
def ofText (fuel : Nat) (text source : String) : Descent :=
  ofList fuel 0 .endOfInput [] .empty (.start text source)

@[simp] theorem result?_behind (calls : List Call) (descent : Descent) :
    (descent.behind calls).result? = descent.result? :=
  rfl

@[simp] theorem scanner_behind (calls : List Call) (descent : Descent) :
    (descent.behind calls).scanner = descent.scanner :=
  rfl

@[simp] theorem answers_behind (calls : List Call) (descent : Descent) :
    (descent.behind calls).answers = calls.filterMap Call.answer? ++ descent.answers :=
  List.filterMap_append

/-- The list around goes on behind the calls of the inner list. -/
theorem andThen_of_ok {inner : Descent} {types : List TypeExpr}
    (ended : inner.result? = some (.ok types)) (onward : List TypeExpr → Scanner → Descent) :
    inner.andThen onward = (onward types inner.scanner).behind inner.calls := by
  rw [andThen, ended]

/-- The list around ends with the fault of the inner list. -/
theorem andThen_of_error {inner : Descent} {fault : Fault}
    (ended : inner.result? = some (.error fault)) (onward : List TypeExpr → Scanner → Descent) :
    inner.andThen onward =
      ⟨some (.error fault), inner.scanner, inner.calls ++ [.raised fault]⟩ := by
  rw [andThen, ended]

section Step

variable {draft : Draft} {scanner after : Scanner} {token : Token} {fault : Fault} {fuel : Nat}

/-- The list in which a draft stands, read on from there. -/
def innermost (fuel : Nat) (draft : Draft) (scanner : Scanner) : Descent :=
  ofList fuel draft.frames.length draft.closer draft.finished draft.pending scanner

/-- Where no token is found, the list ends with that fault. -/
theorem innermost_of_error (next : scanner.next = (.error fault, after)) :
    innermost (fuel + 1) draft scanner =
      behind [.asked draft.frames.length (.error fault)] (raise fault after) := by
  rw [innermost, ofList, next]

/-- A terminator closes the list or ends it with a fault. -/
theorem innermost_of_isTerminator (next : scanner.next = (.ok token, after))
    (ends : token.kind.isTerminator = true) :
    innermost (fuel + 1) draft scanner =
      behind [.asked draft.frames.length (.ok token)]
        (closing draft.closer draft.finished draft.pending token after) := by
  rw [innermost, ofList, next]
  cases kind : token.kind <;> simp [kind, TokenKind.isTerminator] at ends <;> simp [kind]

/-- A bracket behind a name, or behind nothing, is opened if there is room for it. -/
theorem opening_of_head {bracket : Bracket} {pending : Pending} {name : String}
    (head : pending.head? bracket = some name) (depth : Nat) (inside : String → Descent) :
    opening bracket depth pending token scanner inside =
      if depth < Draft.nestingLimit then inside name
      else raise (.tooDeep token.location) scanner := by
  cases pending <;> cases head <;> rfl

/-- What the draft rejects ends the list with the same fault. -/
theorem innermost_of_rejects (next : scanner.next = (.ok token, after))
    (rejects : draft.Rejects token fault) :
    innermost (fuel + 1) draft scanner =
      behind [.asked draft.frames.length (.ok token)] (raise fault after) := by
  cases rejects with
  | named kind pending => simp only [innermost, ofList, next, kind, pending]
  | missing kind pending =>
      rcases kind with kind | kind
      · simp only [innermost, ofList, next, kind, pending]
      · rw [innermost_of_isTerminator next kind, closing, pending]
  | suffixed kind pending =>
      cases opens : token.kind <;> simp [opens, TokenKind.opens?] at kind <;>
        simp only [innermost, ofList, next, opens, pending, opening]
  | full kind head full =>
      have noRoom := Nat.not_lt.2 full
      cases opens : token.kind <;> simp only [opens, TokenKind.opens?, reduceCtorEq] at kind <;>
        cases kind <;>
        simp only [innermost, ofList, next, opens, opening_of_head head, noRoom, if_false]
  | mismatched kind pending due more =>
      rw [innermost_of_isTerminator next kind, closing, pending]
      simp only [due, more, if_false]
  | unclosed pending due last =>
      have kind : token.kind.isTerminator = true := by rw [last]; rfl
      rw [innermost_of_isTerminator next kind, closing, pending]
      simp only [due, if_false]
      rw [if_pos last]

/-- The terminator that is due lets the list hand back its types. -/
theorem innermost_of_due {type : TypeExpr} (next : scanner.next = (.ok token, after))
    (due : token.kind = draft.closer) (ends : token.kind.isTerminator = true)
    (pending : draft.pending.type? = some type) :
    innermost (fuel + 1) draft scanner =
      behind [.asked draft.frames.length (.ok token)]
        (handBack (type :: draft.finished).reverse after) := by
  rw [innermost_of_isTerminator next ends, closing, pending]
  exact congrArg _ (if_pos due)

/-- Where nothing is pending, a name becomes pending in the list. -/
theorem innermost_of_name (next : scanner.next = (.ok token, after)) (kind : token.kind = .name)
    (free : draft.pending = .empty) :
    innermost (fuel + 1) draft scanner =
      behind [.asked draft.frames.length (.ok token)]
        (innermost fuel { draft with pending := .name token.lexeme } after) := by
  simp only [innermost, ofList, next, kind, free, Pending.type?]
  rfl

/-- A separator finishes the pending type, and the list goes on. -/
theorem innermost_of_separator {type : TypeExpr} (next : scanner.next = (.ok token, after))
    (kind : token.kind = .separator) (pending : draft.pending.type? = some type) :
    innermost (fuel + 1) draft scanner =
      behind [.asked draft.frames.length (.ok token)]
        (innermost fuel ⟨draft.frames, type :: draft.finished, .empty⟩ after) := by
  simp only [innermost, ofList, next, kind, pending]
  rfl

/-- The list inside a bracket, and then the list in which the draft stands that has left the
bracket. -/
def within (fuel : Nat) (frame : Frame) (frames : List Frame) (scanner : Scanner) : Descent :=
  (innermost fuel ⟨frame :: frames, [], .empty⟩ scanner).andThen fun types after =>
    innermost fuel (Draft.leave frame frames types) after

/-- An opening bracket begins a list, and behind a list of keys another one. -/
theorem innermost_of_opens {bracket : Bracket} {name : String}
    (next : scanner.next = (.ok token, after)) (opens : token.kind.opens? = some bracket)
    (head : draft.pending.head? bracket = some name)
    (room : draft.frames.length < Draft.nestingLimit) :
    innermost (fuel + 1) draft scanner = behind [.asked draft.frames.length (.ok token)]
      (if bracket = .hashKeys then
        (innermost fuel ⟨⟨name, .hashKeys, draft.finished⟩ :: draft.frames, [], .empty⟩
          after).andThen fun keys after =>
            within fuel ⟨name, .hashValues keys, draft.finished⟩ draft.frames after
      else within fuel ⟨name, bracket, draft.finished⟩ draft.frames after) := by
  cases kind : token.kind <;> simp only [kind, TokenKind.opens?, reduceCtorEq] at opens <;>
    cases opens <;>
    simp only [innermost, ofList, next, kind, opening_of_head head, room, if_true] <;>
    rfl

end Step

end Descent

end TypeProse
