import TypeProse.Proofs.Continuation
import TypeProse.Proofs.Lookback
import TypeProse.Proofs.Streaming

/-!
# What reading takes from a scanner

Reading takes tokens one by one, and never one more than it needs. `Scanner.Leaves` says
which tokens it has taken when it ends and where it leaves the scanner: at a character at
which no token starts, at the end of the text, or behind a token that is rejected. So the
tokens that are taken are the first of those that lie ahead of the scanner, and of a fault
of the characters and a fault of the types the one that comes first is reported.
-/

namespace TypeProse

/-- The token that was taken, if that is what happened. -/
def Event.token? : Event → Option Token
  | .token taken => some taken
  | .finished _ _ => none

/-- The tokens that reading has taken from the scanner, in their order. -/
def Reading.pulled (reading : Reading) : List Token :=
  reading.events.filterMap Event.token?

/-- The tokens before the end of input that reading has taken. -/
def Reading.taken (reading : Reading) : List Token :=
  reading.pulled.filter fun token => token.kind ≠ .endOfInput

/-- Taking a token into account is one event of that token. -/
theorem Draft.filterMap_events (draft : Draft) (token : Token) :
    (draft.events token).filterMap Event.token? = [token] := by
  unfold Draft.events
  split
  · cases draft.pending.type? <;> rfl
  · rfl

/-- How reading ends: with the tokens that it has taken, the scanner as it leaves it, and its
result. -/
inductive Scanner.Leaves (scanner : Scanner) :
    List Token → Scanner → Except Fault (List TypeExpr) → Prop where
  | stuck {tokens : List Token} {stopped : Scanner} {fault : Fault}
      (yields : scanner.Yields tokens stopped) (settled : stopped.Settled (.error fault)) :
      Leaves scanner tokens stopped (.error fault)
  | ended {tokens : List Token} {stopped : Scanner} {last : Token}
      {result : Except Fault (List TypeExpr)} (yields : scanner.Yields tokens stopped)
      (settled : stopped.Settled (.ok last))
      (atEnd : ∀ fault, result = .error fault →
        fault.IsAtEnd ∧ fault.location = last.location) :
      Leaves scanner (tokens ++ [last]) stopped result
  | rejected {draft : Draft} {tokens : List Token} {token : Token} {here after : Scanner}
      {fault : Fault} (yields : scanner.Yields tokens here) (one : here.Yields [token] after)
      (place : token.location = here.location)
      (length : after.cursor.offset = here.cursor.offset + token.lexeme.length)
      (rejects : draft.Rejects token fault) :
      Leaves scanner (tokens ++ [token]) after (.error fault)

namespace Draft

/-- Reading goes on behind the tokens that are taken, with the scanner that has handed them
out. -/
theorem Takes.read_eq {draft next : Draft} {scanner after : Scanner} {tokens : List Token}
    (takes : draft.Takes tokens next) (yields : scanner.Yields tokens after) :
    (draft.read scanner).scanner = (next.read after).scanner ∧
      (draft.read scanner).pulled = tokens ++ (next.read after).pulled := by
  induction yields generalizing draft with
  | here =>
      cases takes
      exact ⟨rfl, rfl⟩
  | blank blank _ ih =>
      rw [read_congr (Scanner.next_blank blank _)]
      exact ih takes
  | token found shown _ _ ih =>
      cases takes with
      | token move behind =>
          rw [read_of_reading (Scanner.next_lexeme found shown)
            ((step_eq_reading_iff shown).2 move)]
          obtain ⟨left, pulled⟩ := ih behind
          refine ⟨left, ?_⟩
          rw [Reading.pulled, List.filterMap_append, filterMap_events]
          exact congrArg _ pulled

/-- Where reading ends, it leaves the scanner there, or behind the token that is rejected. -/
theorem Halts.leaves {draft : Draft} {scanner here : Scanner} {tokens : List Token}
    {result : Except Fault (List TypeExpr)} (halts : draft.Halts here result)
    (yields : scanner.Yields tokens here) :
    scanner.Leaves (tokens ++ (draft.read here).pulled) (draft.read here).scanner result := by
  cases halts with
  | stuck stuck =>
      rw [read_of_error (Scanner.next_stuck stuck), Reading.pulled, List.filterMap_nil,
        List.append_nil]
      exact .stuck yields (.stuck stuck)
  | complete closed pending =>
      rw [read_of_complete (Scanner.next_end _ _)
        (step_eq_complete_iff.2 ⟨rfl, closed, _, pending, rfl⟩), Reading.pulled, filterMap_events]
      exact .ended yields (.ended _ _) (by simp)
  | @rejected source cursor kind lexeme rest fault shown found rejects =>
      rw [read_of_rejected (Scanner.next_lexeme found shown) (step_eq_rejected_iff.2 rejects),
        Reading.pulled, filterMap_events]
      by_cases last : kind = .endOfInput
      · subst last
        obtain ⟨rfl, rfl⟩ := List.append_eq_nil_iff.1 (chars_eq_nil_of_endOfInput found)
        refine .ended yields (.ended source cursor) fun fault' same => ?_
        cases same
        exact ⟨rejects.isAtEnd rfl, rejects.location_eq⟩
      · have one : Scanner.Yields ⟨source, cursor, lexeme ++ rest⟩ _
            ⟨source, cursor.past lexeme, rest⟩ := .token found shown last (.here _)
        exact .rejected yields one rfl (by simp [Cursor.offset_past]) rejects

end Draft

/-- Reading a text ends in one of these ways. -/
theorem leaves_readText (text source : String) :
    (Scanner.start text source).Leaves (readText text source).pulled
      (readText text source).scanner (parse text source) := by
  obtain ⟨tokens, draft, here, yields, takes, halts⟩ :=
    Draft.result_eq_iff.1 (rfl : parse text source = _)
  obtain ⟨left, pulled⟩ := takes.read_eq yields
  rw [readText, left, pulled]
  exact halts.leaves yields

/-- A text of which too many brackets are open at once goes over the nesting limit. -/
theorem not_nestsWithin_of_parse_eq {text source : String} {location : Location}
    (full : parse text source = .error (.tooDeep location)) :
    ¬ (Scanner.start text source).NestsWithin Draft.nestingLimit := by
  obtain ⟨tokens, draft, here, yields, takes, halts⟩ := Draft.result_eq_iff.1 full
  exact halts.not_nestsWithin takes yields

/-- A token before the end is rejected with a fault at that token, where there is room. -/
theorem Draft.Rejects.isAtToken {draft : Draft} {token : Token} {fault : Fault}
    (rejects : draft.Rejects token fault) (more : token.kind ≠ .endOfInput)
    (room : ∀ location, fault ≠ .tooDeep location) : fault.IsAtToken := by
  cases rejects with
  | named | suffixed | mismatched => trivial
  | missing => exact more
  | full => exact absurd rfl (room _)
  | unclosed _ _ last => exact more last

namespace Fault

/-- What is missing at the end of a text is a type or a terminator. -/
theorem IsAtEnd.code_mem {fault : Fault} (ends : fault.IsAtEnd) :
    fault.code ∈ [FaultCode.missingName, FaultCode.unclosed] := by
  cases fault with
  | missingName | unclosed => simp [code]
  | invalidCharacter | duplicateName | mismatched | duplicateSuffix | tooDeep => cases ends

/-- The faults at a token are four. -/
theorem IsAtToken.code_mem {fault : Fault} (stands : fault.IsAtToken) :
    fault.code ∈ [FaultCode.duplicateName, FaultCode.missingName, FaultCode.mismatched,
      FaultCode.duplicateSuffix] := by
  cases fault with
  | duplicateName | missingName | mismatched | duplicateSuffix => simp [code]
  | invalidCharacter | unclosed | tooDeep => cases stands

end Fault

namespace Scanner

variable {scanner left stopped : Scanner} {pulled tokens : List Token}
  {result : Except Fault (List TypeExpr)}

/-- A scanner goes forward only. -/
theorem Yields.offset_le (yields : scanner.Yields tokens stopped) :
    scanner.cursor.offset ≤ stopped.cursor.offset := by
  obtain ⟨front, -, place⟩ := yields.split
  rw [place, Cursor.offset_past]
  exact Nat.le_add_right _ _

/-- The fault at a character at which no token starts stands where the scanner does. -/
theorem Settled.location_eq {fault : Fault} (settled : stopped.Settled (.error fault)) :
    fault.location = stopped.location := by
  cases settled
  rfl

/-- Reading leaves the scanner behind the tokens before the end of input that it has taken. -/
theorem Leaves.yields (leaves : scanner.Leaves pulled left result) :
    scanner.Yields (pulled.filter fun token => token.kind ≠ .endOfInput) left := by
  have kept : ∀ {tokens : List Token} {after : Scanner}, scanner.Yields tokens after →
      tokens.filter (fun token => token.kind ≠ .endOfInput) = tokens := by
    intro tokens after yields
    simpa [List.filter_eq_self] using fun token inside => (yields.kind_ne token inside).2
  cases leaves with
  | stuck yields _ =>
      rw [kept yields]
      exact yields
  | ended yields settled _ =>
      rw [List.filter_append, kept yields]
      simpa [settled.kind_eq] using yields
  | rejected yields one =>
      rw [kept (yields.trans one)]
      exact yields.trans one

/-- The tokens that reading takes are the first of those that lie ahead, with the end of input
behind them if there is one. -/
theorem Leaves.isPrefix_extended (leaves : scanner.Leaves pulled left result) :
    pulled <+: scanner.outlook.extended 1 := by
  cases leaves with
  | stuck yields settled =>
      rw [yields.outlook_of_settled settled]
      exact List.prefix_append _ _
  | ended yields settled _ =>
      rw [yields.outlook_of_settled settled]
      exact List.prefix_refl _
  | rejected yields one =>
      rw [(yields.trans one).outlook_eq]
      simp [Outlook.extended]

/-- If all tokens can be had, the ones that reading takes are the first of them. -/
theorem Leaves.isPrefix_of_tokenize_eq_ok {all : List Token}
    (leaves : scanner.Leaves pulled left result) (cut : scanner.tokenize.1 = .ok all) :
    pulled <+: all := by
  obtain ⟨last, rfl, ending, -⟩ := outlook_of_tokenize_eq_ok cut
  have ahead := leaves.isPrefix_extended
  rw [Outlook.extended_of_ok ending] at ahead
  exact ahead

/-- If not all tokens can be had, the ones that reading takes are the first of those before the
fault. -/
theorem Leaves.isPrefix_of_tokenize_eq_error {fault : Fault}
    (leaves : scanner.Leaves pulled left result) (failed : scanner.tokenize.1 = .error fault) :
    pulled <+: scanner.outlook.tokens := by
  have ahead := leaves.isPrefix_extended
  rw [Outlook.extended_of_error (outlook_of_tokenize_eq_error failed)] at ahead
  exact ahead

/-- Where reading ends with types, it has taken all tokens that lie ahead. -/
theorem Leaves.tokenize_eq {types : List TypeExpr}
    (leaves : scanner.Leaves pulled left (.ok types)) :
    scanner.tokenize.1 = .ok pulled ∧ ∃ tokens last, pulled = tokens ++ [last] ∧
      last.kind = .endOfInput ∧ ∀ token ∈ tokens, token.kind ≠ .endOfInput := by
  cases leaves with
  | ended yields settled _ =>
      rw [yields.tokenize_of_settled settled]
      exact ⟨rfl, _, _, rfl, settled.kind_eq, fun token inside => (yields.kind_ne token inside).2⟩

/-- A character at which no token starts is met by reading as it is met when all tokens are
asked for. -/
theorem Leaves.tokenize_eq_of_code {fault : Fault}
    (leaves : scanner.Leaves pulled left (.error fault))
    (invalid : fault.code = .invalidCharacter) : scanner.tokenize.1 = .error fault := by
  cases leaves with
  | stuck yields settled =>
      rw [yields.tokenize_of_settled settled]
      rfl
  | ended _ _ atEnd =>
      have ends := (atEnd fault rfl).1.code_mem
      simp [invalid] at ends
  | rejected _ _ _ _ rejects => cases rejects <;> cases invalid

/-- Where not all tokens can be had, reading meets the same fault, or it has rejected a token
before that. -/
theorem Leaves.of_tokenize_eq {fault : Fault} (leaves : scanner.Leaves pulled left result)
    (failed : scanner.tokenize.1 = .error fault)
    (room : ∀ location, result ≠ .error (.tooDeep location)) :
    ∃ fault', result = .error fault' ∧
      (fault' = fault ∨ fault'.IsAtToken ∧ fault'.location.offset < fault.location.offset) := by
  cases leaves with
  | stuck yields settled =>
      rw [yields.tokenize_of_settled settled] at failed
      exact ⟨_, rfl, .inl (Except.error.inj failed)⟩
  | ended yields settled _ =>
      rw [yields.tokenize_of_settled settled] at failed
      cases failed
  | @rejected draft tokens token here _ fault' yields one place length rejects =>
      obtain ⟨behind, ending, stopped, onward, settled⟩ := left.exists_settled
      have all := (yields.trans (one.trans onward)).tokenize_of_settled settled
      rw [all] at failed
      cases ending with
      | ok last => cases failed
      | error cause =>
          obtain rfl : cause = fault := Except.error.inj failed
          have inside := List.mem_singleton_self token
          refine ⟨fault', rfl, .inr ⟨?_, ?_⟩⟩
          · exact rejects.isAtToken (one.kind_ne _ inside).2 fun location full =>
              room location (congrArg _ full)
          -- The rejected token has characters, and the scanner stops behind all of them.
          · have filled : 0 < token.lexeme.length := by
              rw [Nat.pos_iff_ne_zero]
              exact fun empty => (one.matches _ inside).1 (String.length_eq_zero_iff.1 empty)
            have forward := onward.offset_le
            rw [rejects.location_eq, place, settled.location_eq]
            simp only [Scanner.location]
            omega

end Scanner

/-- Reading takes tokens as they are needed, and agrees with cutting the whole text first. The
tokens that it takes are the first of those that the text is cut into. If it ends with types,
the text can be cut, and all tokens were taken, with the one end of input as the last. If it
meets a character at which no token starts, so does cutting, with the same fault. And where
cutting fails, reading fails with the same fault, or earlier, at a token that cannot stand
where it does, unless the text goes over the nesting limit. -/
theorem reading_pulls_from_outlook (text source : String) :
    (∀ all, tokenize text source = .ok all → (readText text source).pulled <+: all) ∧
    (∀ fault, tokenize text source = .error fault →
      (readText text source).pulled <+: (Scanner.start text source).outlook.tokens) ∧
    (∀ types, parse text source = .ok types →
      tokenize text source = .ok (readText text source).pulled ∧
      ∃ tokens last, (readText text source).pulled = tokens ++ [last] ∧
        last.kind = .endOfInput ∧ ∀ token ∈ tokens, token.kind ≠ .endOfInput) ∧
    (∀ fault, parse text source = .error fault → fault.code = .invalidCharacter →
      tokenize text source = .error fault) ∧
    ((Scanner.start text source).NestsWithin Draft.nestingLimit →
      ∀ fault, tokenize text source = .error fault →
        ∃ fault', parse text source = .error fault' ∧
          (fault' = fault ∨
            fault'.code ∈ [.duplicateName, .missingName, .mismatched, .duplicateSuffix] ∧
              fault'.location.offset < fault.location.offset)) := by
  have leaves := leaves_readText text source
  refine ⟨?_, ?_, ?_, ?_, ?_⟩
  · exact fun all => leaves.isPrefix_of_tokenize_eq_ok
  · exact fun fault => leaves.isPrefix_of_tokenize_eq_error
  · intro types read
    rw [read] at leaves
    exact leaves.tokenize_eq
  · intro fault failed invalid
    rw [failed] at leaves
    exact leaves.tokenize_eq_of_code invalid
  · intro nested fault failed
    have room : ∀ location, parse text source ≠ .error (.tooDeep location) :=
      fun location full => not_nestsWithin_of_parse_eq full nested
    obtain ⟨fault', failed', same | ⟨stands, before⟩⟩ := leaves.of_tokenize_eq failed room
    · exact ⟨fault', failed', .inl same⟩
    · exact ⟨fault', failed', .inr ⟨stands.code_mem, before⟩⟩

/-- A text of which all tokens are taken, and one where a bracket that does not match comes
before a character at which no token starts. -/
theorem reading_pulls_from_two_texts :
    (readText "#a" "t").pulled =
      [⟨.name, "#a", ⟨"t", 1, 1, 0⟩⟩, ⟨.endOfInput, "", ⟨"t", 1, 3, 2⟩⟩] ∧
    ∃ fault, parse "A<b) :" "t" = .error fault ∧ fault.location.offset < 5 := by
  have read : parse "#a" "t" = .ok [.simple "#a"] := by decide +kernel
  have cut : tokenize "#a" "t" =
      .ok [⟨.name, "#a", ⟨"t", 1, 1, 0⟩⟩, ⟨.endOfInput, "", ⟨"t", 1, 3, 2⟩⟩] := by
    decide +kernel
  have failed : tokenize "A<b) :" "t" = .error (.invalidCharacter ":" ⟨"t", 1, 6, 5⟩) := by
    decide +kernel
  have differs : parse "A<b) :" "t" ≠ .error (.invalidCharacter ":" ⟨"t", 1, 6, 5⟩) := by
    decide +kernel
  have nested : (Scanner.start "A<b) :" "t").NestsWithin Draft.nestingLimit :=
    Scanner.nestsWithin_of_length_le (by decide)
  constructor
  · have all := ((reading_pulls_from_outlook _ _).2.2.1 _ read).1
    exact Except.ok.inj (all.symm.trans cut)
  · obtain ⟨fault, failed', same | ⟨-, before⟩⟩ :=
      (reading_pulls_from_outlook _ _).2.2.2.2 nested _ failed
    · exact absurd (same ▸ failed') differs
    · exact ⟨fault, failed', before⟩

end TypeProse
