import TypeProse.Proofs.Covering

/-!
# One stream of tokens

What lies ahead of a scanner is one stream of tokens with one ending, which is the end of
input or a fault. `Scanner.outlook` follows the stream by asking for one token after the
other. `Scanner.Serves` says all that a request can do: look and change nothing, hand out
the first token of the stream, or come to the ending. So in whatever order a scanner is
asked, it hands out the stream from its front, and once it has come to the ending it
stays there and gives the same answer for ever.
-/

namespace TypeProse

/-- What lies ahead of a scanner: the tokens before the ending, and the ending. -/
structure Outlook where
  tokens : List Token
  ending : Except Fault Token
  deriving DecidableEq

/-- The tokens ahead, with the ending in the place of some more of them if it is a token. -/
def Outlook.extended (outlook : Outlook) (count : Nat) : List Token :=
  outlook.tokens ++
    match outlook.ending with
    | .ok last => List.replicate count last
    | .error _ => []

namespace Outlook

variable {outlook : Outlook}

theorem extended_of_ok {last : Token} (ending : outlook.ending = .ok last) (count : Nat) :
    outlook.extended count = outlook.tokens ++ List.replicate count last := by
  rw [extended, ending]

theorem extended_of_error {fault : Fault} (ending : outlook.ending = .error fault) (count : Nat) :
    outlook.extended count = outlook.tokens := by
  rw [extended, ending, List.append_nil]

end Outlook

namespace Scanner

/-- What lies ahead of a scanner: it is asked for the next token again and again, up to the
end of input or a fault. -/
def outlook (scanner : Scanner) : Outlook :=
  match read : scanner.next with
  | (.error fault, _) => ⟨[], .error fault⟩
  | (.ok token, after) =>
      if last : token.kind = .endOfInput then
        ⟨[], .ok token⟩
      else
        have _shorter := length_rest_next_lt read last
        ⟨token :: after.outlook.tokens, after.outlook.ending⟩
termination_by scanner.rest.length

/-- Ahead of a scanner lie the next token and what lies ahead behind it. -/
theorem outlook_eq_next (scanner : Scanner) :
    scanner.outlook =
      match scanner.next with
      | (.error fault, _) => ⟨[], .error fault⟩
      | (.ok token, after) =>
          if token.kind = .endOfInput then ⟨[], .ok token⟩
          else ⟨token :: after.outlook.tokens, after.outlook.ending⟩ := by
  rw [outlook]
  split
  · rename_i next
    rw [next]
  · rename_i next
    simp only [next, dite_eq_ite]

/-- A scanner that has come to the ending: to the end of its text, or to a character at which
no token starts. -/
inductive Settled : Scanner → Except Fault Token → Prop where
  | ended (source : String) (cursor : Cursor) :
      Settled ⟨source, cursor, []⟩
        (.ok ⟨.endOfInput, "", ⟨source, cursor.line, cursor.column, cursor.offset⟩⟩)
  | stuck {scanner : Scanner} (stuck : lexemeAt? scanner.rest = none) :
      Settled scanner
        (.error (.invalidCharacter (String.ofList (scanner.rest.take 1)) scanner.location))

section Ending

variable {scanner stopped : Scanner} {tokens : List Token} {ending : Except Fault Token}

/-- At the ending, the next token is the ending, and the scanner stays. -/
theorem Settled.next_eq (settled : scanner.Settled ending) : scanner.next = (ending, scanner) := by
  cases settled with
  | ended source cursor => exact next_end source cursor
  | stuck stuck => exact next_stuck stuck

/-- A token at the ending is the end of input. -/
theorem Settled.kind_eq {last : Token} (settled : scanner.Settled (.ok last)) :
    last.kind = .endOfInput := by
  cases settled
  rfl

/-- Nothing but the ending lies ahead of it. -/
theorem Settled.outlook_eq (settled : scanner.Settled ending) : scanner.outlook = ⟨[], ending⟩ := by
  rw [outlook_eq_next, settled.next_eq]
  cases ending with
  | error fault => rfl
  | ok last => simp [settled.kind_eq]

/-- All tokens from the ending on are the ending alone. -/
theorem Settled.tokenize_eq (settled : scanner.Settled ending) :
    scanner.tokenize = (ending.map fun last => [last], scanner) := by
  rw [tokenize_eq_next, settled.next_eq]
  cases ending with
  | error fault => rfl
  | ok last =>
      simp only [settled.kind_eq, if_true]
      rfl

/-- The tokens on the way to a place lie ahead, and then what lies ahead of that place. -/
theorem Yields.outlook_eq (yields : scanner.Yields tokens stopped) :
    scanner.outlook = ⟨tokens ++ stopped.outlook.tokens, stopped.outlook.ending⟩ := by
  induction yields with
  | here => rfl
  | blank blank _ ih => rw [outlook_eq_next, next_blank blank, ← outlook_eq_next, ih]
  | token found shown more _ ih =>
      rw [outlook_eq_next, next_lexeme found shown]
      simp only [more, if_false, ih, List.cons_append]

/-- Ahead of a scanner lie the tokens on the way to the ending. -/
theorem Yields.outlook_of_settled (yields : scanner.Yields tokens stopped)
    (settled : stopped.Settled ending) : scanner.outlook = ⟨tokens, ending⟩ := by
  rw [yields.outlook_eq, settled.outlook_eq, List.append_nil]

/-- All tokens from a scanner on are those on the way to the ending, and the ending. -/
theorem Yields.tokenize_of_settled (yields : scanner.Yields tokens stopped)
    (settled : stopped.Settled ending) :
    scanner.tokenize = (ending.map fun last => tokens ++ [last], stopped) := by
  rw [yields.tokenize_eq, settled.tokenize_eq]
  cases ending <;> rfl

end Ending

/-- Every scanner comes to the ending. -/
theorem exists_settled (scanner : Scanner) :
    ∃ tokens ending stopped, scanner.Yields tokens stopped ∧ stopped.Settled ending := by
  obtain ⟨tokens, cursor, rest, yields, rfl | stuck⟩ := scanner.exists_yields
  · exact ⟨tokens, _, _, yields, .ended _ cursor⟩
  · exact ⟨tokens, _, _, yields, .stuck stuck⟩

/-- All tokens from a scanner on are what lies ahead of it. -/
theorem tokenize_eq_outlook (scanner : Scanner) :
    scanner.tokenize.1 =
      scanner.outlook.ending.map fun last => scanner.outlook.tokens ++ [last] := by
  obtain ⟨tokens, ending, stopped, yields, settled⟩ := scanner.exists_settled
  rw [yields.tokenize_of_settled settled, yields.outlook_of_settled settled]

/-- If all tokens can be had, the end of input lies ahead behind the others. -/
theorem outlook_of_tokenize_eq_ok {scanner : Scanner} {all : List Token}
    (cut : scanner.tokenize.1 = .ok all) :
    ∃ last, all = scanner.outlook.tokens ++ [last] ∧ scanner.outlook.ending = .ok last ∧
      last.kind = .endOfInput := by
  obtain ⟨tokens, ending, stopped, yields, settled⟩ := scanner.exists_settled
  rw [yields.tokenize_of_settled settled] at cut
  rw [yields.outlook_of_settled settled]
  cases ending with
  | error fault => cases cut
  | ok last =>
      cases cut
      exact ⟨last, rfl, rfl, settled.kind_eq⟩

/-- If not all tokens can be had, the fault lies ahead. -/
theorem outlook_of_tokenize_eq_error {scanner : Scanner} {fault : Fault}
    (failed : scanner.tokenize.1 = .error fault) : scanner.outlook.ending = .error fault := by
  rw [tokenize_eq_outlook] at failed
  cases ending : scanner.outlook.ending with
  | ok last => simp [ending, Except.map] at failed
  | error cause =>
      rw [ending] at failed
      exact congrArg _ (Except.error.inj failed)

/-- The tokens in an answer. -/
def Answer.handed : Answer → List Token
  | .token one => [one]
  | .tokens several => several
  | .atEnd _ => []
  | .location _ => []
  | .fault _ => []

/-- The answer with one token or a fault. -/
def Answer.ofNext : Except Fault Token → Answer
  | .ok one => .token one
  | .error cause => .fault cause

/-- The answer with several tokens or a fault. -/
def Answer.ofAll : Except Fault (List Token) → Answer
  | .ok several => .tokens several
  | .error cause => .fault cause

theorem perform_next (scanner : Scanner) :
    scanner.perform .next = (.ofNext scanner.next.1, scanner.next.2) := by
  unfold perform
  rcases scanner.next with ⟨_ | _, _⟩ <;> rfl

theorem perform_tokenize (scanner : Scanner) :
    scanner.perform .tokenize = (.ofAll scanner.tokenize.1, scanner.tokenize.2) := by
  unfold perform
  rcases scanner.tokenize with ⟨_ | _, _⟩ <;> rfl

/-- What a request can do: it looks and changes nothing, or hands out the next token, or comes
to the ending, from wherever all tokens are asked for. -/
inductive Serves (scanner : Scanner) : Request → Answer → Scanner → Prop where
  | atEnd : Serves scanner .atEnd (.atEnd scanner.atEnd) scanner
  | location : Serves scanner .location (.location scanner.location) scanner
  | token {token : Token} {after : Scanner} (one : scanner.Yields [token] after) :
      Serves scanner .next (.token token) after
  | ending {ending : Except Fault Token} {after : Scanner} (blanks : scanner.Yields [] after)
      (settled : after.Settled ending) : Serves scanner .next (.ofNext ending) after
  | all {tokens : List Token} {ending : Except Fault Token} {after : Scanner}
      (yields : scanner.Yields tokens after) (settled : after.Settled ending) :
      Serves scanner .tokenize (.ofAll (ending.map fun last => tokens ++ [last])) after

/-- Every request does one of these. -/
theorem serves_perform (scanner : Scanner) (request : Request) :
    scanner.Serves request (scanner.perform request).1 (scanner.perform request).2 := by
  cases request with
  | atEnd => exact .atEnd
  | location => exact .location
  | next =>
      rw [perform_next]
      rcases scanner.next_cases with
        ⟨cursor, kind, lexeme, rest, shown, found, passes⟩ | ⟨cursor, rest, stuck, passes⟩
      · by_cases last : kind = .endOfInput
        · subst last
          rw [chars_eq_nil_of_endOfInput found] at passes
          have settled := Settled.ended scanner.source cursor
          rw [passes.next_eq, settled.next_eq]
          exact .ending passes settled
        · rw [passes.next_eq, next_lexeme found shown]
          exact .token (passes.trans (.token found shown last (.here _)))
      · have settled : Settled ⟨scanner.source, cursor, rest⟩ _ := .stuck stuck
        rw [passes.next_eq, settled.next_eq]
        exact .ending passes settled
  | tokenize =>
      obtain ⟨tokens, ending, stopped, yields, settled⟩ := scanner.exists_settled
      rw [perform_tokenize, yields.tokenize_of_settled settled]
      exact .all yields settled

/-- The scanner after several requests in turn. -/
def driven (scanner : Scanner) (requests : List Request) : Scanner :=
  requests.foldl (fun scanner request => (scanner.perform request).2) scanner

@[simp] theorem driven_cons (scanner : Scanner) (request : Request) (requests : List Request) :
    scanner.driven (request :: requests) = (scanner.perform request).2.driven requests :=
  rfl

/-- The tokens in all answers to several requests in turn. -/
def handedOut (scanner : Scanner) (requests : List Request) : List Token :=
  (scanner.performAll requests).flatMap fun step => step.1.handed

theorem handedOut_cons (scanner : Scanner) (request : Request) (requests : List Request) :
    scanner.handedOut (request :: requests) =
      (scanner.perform request).1.handed ++ (scanner.perform request).2.handedOut requests :=
  rfl

section Session

variable {scanner after : Scanner} {request : Request} {answer : Answer}

/-- A request that comes to the ending hands out all tokens before it and the ending, or
nothing if the ending is a fault; what lies ahead then is the ending alone. -/
theorem isPrefix_extended_of_settled {tokens more : List Token} {ending : Except Fault Token}
    {count : Nat} (yields : scanner.Yields tokens after) (settled : after.Settled ending)
    (ahead : more <+: after.outlook.extended count) :
    (Answer.ofAll (ending.map fun last => tokens ++ [last])).handed ++ more <+:
      scanner.outlook.extended (count + 1) := by
  rw [settled.outlook_eq] at ahead
  rw [yields.outlook_of_settled settled]
  cases ending with
  | error fault =>
      obtain rfl : more = [] := by simpa [Outlook.extended] using ahead
      exact List.nil_prefix
  | ok last =>
      simp only [Outlook.extended, Except.map, Answer.ofAll, Answer.handed, List.nil_append,
        List.append_assoc, List.replicate_succ, List.singleton_append] at ahead ⊢
      exact (List.prefix_append_right_inj tokens).2 (List.cons_prefix_cons.2 ⟨rfl, ahead⟩)

/-- What one request hands out comes from the front of what lies ahead, and what can be handed
out later comes behind it. -/
theorem Serves.isPrefix_extended (serves : scanner.Serves request answer after)
    {more : List Token} {count : Nat} (ahead : more <+: after.outlook.extended count) :
    ∃ count', answer.handed ++ more <+: scanner.outlook.extended count' := by
  cases serves with
  | atEnd => exact ⟨count, ahead⟩
  | location => exact ⟨count, ahead⟩
  | @token token _ one =>
      refine ⟨count, ?_⟩
      rw [one.outlook_eq]
      exact List.cons_prefix_cons.2 ⟨rfl, ahead⟩
  | @ending ending _ blanks settled =>
      have same : (Answer.ofNext ending).handed =
          (Answer.ofAll (ending.map fun last => [] ++ [last])).handed := by
        cases ending <;> rfl
      rw [same]
      exact ⟨count + 1, isPrefix_extended_of_settled blanks settled ahead⟩
  | all yields settled => exact ⟨count + 1, isPrefix_extended_of_settled yields settled ahead⟩

/-- However a scanner is driven, it hands out what lies ahead of it from the front. -/
theorem handedOut_isPrefix (scanner : Scanner) (requests : List Request) :
    ∃ count, scanner.handedOut requests <+: scanner.outlook.extended count := by
  induction requests generalizing scanner with
  | nil => exact ⟨0, List.nil_prefix⟩
  | cons request requests ih =>
      -- From the last request to the first: the ending is counted once more whenever it is met.
      obtain ⟨count, ahead⟩ := ih (scanner.perform request).2
      rw [handedOut_cons]
      exact (scanner.serves_perform request).isPrefix_extended ahead

/-- So it is behind tokens that were handed out before. -/
theorem Yields.handedOut_isPrefix {tokens : List Token} (yields : scanner.Yields tokens after)
    (requests : List Request) :
    ∃ count, tokens ++ after.handedOut requests <+: scanner.outlook.extended count := by
  obtain ⟨count, ahead⟩ := after.handedOut_isPrefix requests
  refine ⟨count, ?_⟩
  rw [yields.outlook_eq, Outlook.extended, List.append_assoc]
  exact (List.prefix_append_right_inj tokens).2 ahead

/-- Where the scanner has come to the ending, no request moves it. -/
theorem Settled.perform_snd {ending : Except Fault Token} (settled : scanner.Settled ending)
    (request : Request) : (scanner.perform request).2 = scanner := by
  cases request with
  | next => rw [perform_next, settled.next_eq]
  | tokenize => rw [perform_tokenize, settled.tokenize_eq]
  | atEnd => rfl
  | location => rfl

theorem Settled.driven_eq {ending : Except Fault Token} (settled : scanner.Settled ending)
    (requests : List Request) : scanner.driven requests = scanner := by
  induction requests with
  | nil => rfl
  | cons request requests ih => rw [driven_cons, settled.perform_snd, ih]

/-- Where the end of input was handed out, the scanner has come to it. -/
theorem Serves.settled_of_mem {token : Token} (serves : scanner.Serves request answer after)
    (inside : token ∈ answer.handed) (last : token.kind = .endOfInput) :
    after.Settled (.ok token) := by
  cases serves with
  | atEnd => cases inside
  | location => cases inside
  | token one =>
      obtain rfl := List.mem_singleton.1 inside
      exact absurd last (one.kind_ne _ (List.mem_singleton_self _)).2
  | @ending ending _ blanks settled =>
      cases ending with
      | error fault => cases inside
      | ok last =>
          obtain rfl := List.mem_singleton.1 inside
          exact settled
  | @all tokens ending _ yields settled =>
      cases ending with
      | error fault => cases inside
      | ok final =>
          rcases List.mem_append.1 inside with before | behind
          · exact absurd last (yields.kind_ne _ before).2
          · obtain rfl := List.mem_singleton.1 behind
            exact settled

/-- Where a fault was the answer, the scanner has come to it. -/
theorem Serves.settled_of_fault {fault : Fault}
    (serves : scanner.Serves request (.fault fault) after) : after.Settled (.error fault) := by
  generalize same : Answer.fault fault = answer at serves
  cases serves with
  | atEnd => cases same
  | location => cases same
  | token => cases same
  | @ending ending _ _ settled =>
      cases ending with
      | ok last => cases same
      | error fault =>
          cases same
          exact settled
  | @all _ ending _ _ settled =>
      cases ending with
      | ok last => cases same
      | error fault =>
          cases same
          exact settled

/-- Each request for the next token takes one token off the front of what lies ahead, as long
as there is one. -/
theorem outlook_driven {requests : List Request} (single : .tokenize ∉ requests)
    (few : requests.count .next ≤ scanner.outlook.tokens.length) :
    (scanner.driven requests).outlook =
      ⟨scanner.outlook.tokens.drop (requests.count .next), scanner.outlook.ending⟩ := by
  induction requests generalizing scanner with
  | nil => rfl
  | cons request requests ih =>
      obtain ⟨first, others⟩ := not_or.1 (mt List.mem_cons.2 single)
      have serves := scanner.serves_perform request
      rw [driven_cons]
      generalize (scanner.perform request).1 = answer at serves
      generalize (scanner.perform request).2 = after at serves ⊢
      cases serves with
      | atEnd => simpa using ih others (by simpa using few)
      | location => simpa using ih others (by simpa using few)
      | token one =>
          have ahead := one.outlook_eq
          rw [ahead, List.count_cons_self] at few ⊢
          exact ih others (by simpa using few)
      | ending blanks settled =>
          rw [blanks.outlook_of_settled settled, List.count_cons_self] at few
          exact absurd few (Nat.not_succ_le_zero _)
      | all => exact absurd rfl first

end Session

end Scanner

open Scanner

/-- Whatever a scanner is asked, and in whatever order, it hands out one stream of tokens. If
the text can be cut, the stream goes on with the end of input for ever, and all tokens are
the whole list without those that were handed out one by one before; if it cannot, the
stream stops. To ask whether and where the scanner stands moves nothing. Once the end of
input or a fault was an answer, it is the answer to every further request for tokens, and
the scanner stays where it is. -/
theorem session_hands_out_outlook (text source : String) :
    (∀ all, tokenize text source = .ok all →
      ∃ last, all = (start text source).outlook.tokens ++ [last] ∧ last.kind = .endOfInput ∧
        (∀ requests, ∃ count, (start text source).handedOut requests <+:
          (start text source).outlook.tokens ++ List.replicate count last) ∧
        ∀ before, .tokenize ∉ before →
          before.count .next ≤ (start text source).outlook.tokens.length →
          (((start text source).driven before).perform .tokenize).1 =
            .tokens (all.drop (before.count .next))) ∧
    (∀ fault, tokenize text source = .error fault →
      ∀ requests, (start text source).handedOut requests <+:
        (start text source).outlook.tokens) ∧
    ∀ before here, (start text source).driven before = here →
      (here.perform .atEnd).2 = here ∧ (here.perform .location).2 = here ∧
      ∀ request answer after, here.perform request = (answer, after) →
        (∀ token ∈ answer.handed, token.kind = .endOfInput → ∀ between,
          (after.driven between).perform .next = (.token token, after) ∧
          (after.driven between).perform .tokenize = (.tokens [token], after)) ∧
        ∀ fault, answer = .fault fault → ∀ between,
          (after.driven between).perform .next = (.fault fault, after) ∧
          (after.driven between).perform .tokenize = (.fault fault, after) := by
  have handed := (start text source).handedOut_isPrefix
  refine ⟨?_, ?_, ?_⟩
  · intro all cut
    obtain ⟨last, rfl, ending, kind⟩ := outlook_of_tokenize_eq_ok cut
    refine ⟨last, rfl, kind, ?_, ?_⟩
    · simpa only [Outlook.extended_of_ok ending] using handed
    · intro before single few
      rw [perform_tokenize, tokenize_eq_outlook, outlook_driven single few, ending,
        List.drop_append_of_le_length few]
      rfl
  · intro fault failed requests
    obtain ⟨count, front⟩ := handed requests
    rw [Outlook.extended_of_error (outlook_of_tokenize_eq_error failed)] at front
    exact front
  · intro before here _
    refine ⟨rfl, rfl, ?_⟩
    intro request answer after performed
    have serves := here.serves_perform request
    rw [performed] at serves
    refine ⟨?_, ?_⟩
    · intro token inside last between
      have settled := serves.settled_of_mem inside last
      rw [settled.driven_eq, perform_next, perform_tokenize, settled.next_eq, settled.tokenize_eq]
      exact ⟨rfl, rfl⟩
    · rintro fault rfl between
      have settled := serves.settled_of_fault
      rw [settled.driven_eq, perform_next, perform_tokenize, settled.next_eq, settled.tokenize_eq]
      exact ⟨rfl, rfl⟩

/-- All tokens behind one that was handed out before, and a fault that is met again behind the
blanks where it was met first. -/
theorem session_over_two_texts :
    (((start "A<b" "t").driven [.next, .location]).perform .tokenize).1 =
      .tokens [⟨.openCollection, "<", ⟨"t", 1, 2, 1⟩⟩, ⟨.name, "b", ⟨"t", 1, 3, 2⟩⟩,
        ⟨.endOfInput, "", ⟨"t", 1, 4, 3⟩⟩] ∧
    (((start "a \n:" "t").driven [.tokenize]).driven [.next, .atEnd]).perform .next =
      (.fault (.invalidCharacter ":" ⟨"t", 2, 1, 3⟩), ⟨"t", ⟨3, 2, 1⟩, [':']⟩) := by
  have cut : tokenize "A<b" "t" = .ok [⟨.name, "A", ⟨"t", 1, 1, 0⟩⟩,
      ⟨.openCollection, "<", ⟨"t", 1, 2, 1⟩⟩, ⟨.name, "b", ⟨"t", 1, 3, 2⟩⟩,
      ⟨.endOfInput, "", ⟨"t", 1, 4, 3⟩⟩] := by
    decide +kernel
  have met : (start "a \n:" "t").perform .tokenize =
      (.fault (.invalidCharacter ":" ⟨"t", 2, 1, 3⟩), ⟨"t", ⟨3, 2, 1⟩, [':']⟩) := by
    decide +kernel
  constructor
  · obtain ⟨last, -, -, -, behind⟩ := (session_hands_out_outlook _ _).1 _ cut
    exact behind [.next, .location] (by decide) (by decide +kernel)
  · obtain ⟨-, -, stays⟩ := (session_hands_out_outlook "a \n:" "t").2.2 [] _ rfl
    rw [driven_cons _ .tokenize, met]
    exact ((stays _ _ _ met).2 _ rfl [.next, .atEnd]).1

end TypeProse
