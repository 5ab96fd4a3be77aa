import Mathlib.Data.List.Basic
import TypeProse.Proofs.Descent
import TypeProse.Proofs.Locating

/-!
# How nested reading ends

Where lists are read inside lists with one scanner, the end of input moves nothing, so nothing
but the end of every list keeps the scanner from being asked again. `Call.End` says how the
calls of a list end: with the types of the list, or with a fault that is raised by the list that
has asked last and by every list around it. `Descent.Follows` compares a list with a draft: the
types of a list lead to the draft behind its bracket, and its fault is the end of the reading.
So the lists come to what reading comes to, with the same answers from the scanner, and they do
not run out of fuel if there is more of it than characters.
-/

namespace TypeProse

/-- A call behind which the scanner may be asked again. -/
def Call.GoesOn : Call → Prop
  | .asked _ (.ok token) => token.kind ≠ .endOfInput
  | .asked _ (.error _) => False
  | .returned => True
  | .raised _ => False

/-- How the calls of a list inside `depth` brackets end. Either the list has asked last, and
hands its types back, at the end of input only if no bracket is open. Or the list which is
`deeper` brackets inside it has asked last, and then a fault is raised by that list and by every
list around it, up to this one. -/
inductive Call.End (depth : Nat) : Except Fault (List TypeExpr) → List Call → Prop where
  | returned {front : List Call} {token : Token} {types : List TypeExpr}
      (goesOn : ∀ call ∈ front, call.GoesOn) (last : token.kind = .endOfInput ↔ depth = 0) :
      End depth (.ok types) (front ++ [.asked depth (.ok token), .returned])
  | raised {front : List Call} {deeper : Nat} {answer : Except Fault Token} {fault : Fault}
      (goesOn : ∀ call ∈ front, call.GoesOn) :
      End depth (.error fault) (front ++ .asked (depth + deeper) answer ::
        List.replicate (deeper + 1) (.raised fault))

namespace Call.End

variable {depth : Nat} {result : Except Fault (List TypeExpr)} {calls front : List Call}

/-- Calls behind which the scanner may be asked again can come before. -/
theorem append (ends : Call.End depth result calls) (goesOn : ∀ call ∈ front, call.GoesOn) :
    Call.End depth result (front ++ calls) := by
  cases ends with
  | returned goesOn' last =>
      rw [← List.append_assoc]
      exact .returned (List.forall_mem_append.2 ⟨goesOn, goesOn'⟩) last
  | raised goesOn' =>
      rw [← List.append_assoc]
      exact .raised (List.forall_mem_append.2 ⟨goesOn, goesOn'⟩)

/-- A list inside a bracket has not met the end of input when it hands its types back. -/
theorem goesOn {types : List TypeExpr} (ends : Call.End (depth + 1) (.ok types) calls) :
    ∀ call ∈ calls, call.GoesOn := by
  cases ends with
  | returned goesOn last =>
      have more : ¬ _ = TokenKind.endOfInput := mt last.1 (Nat.succ_ne_zero depth)
      exact List.forall_mem_append.2 ⟨goesOn, by simpa [Call.GoesOn] using more⟩

/-- A fault inside a bracket is raised by the list around it as well. -/
theorem raise {fault : Fault} (ends : Call.End (depth + 1) (.error fault) calls) :
    Call.End depth (.error fault) (calls ++ [.raised fault]) := by
  cases ends with
  | @raised front deeper answer _ goesOn =>
      have place : depth + 1 + deeper = depth + (deeper + 1) := by omega
      rw [List.append_assoc, List.cons_append, ← List.replicate_succ', place]
      exact .raised goesOn

end Call.End

/-- A reading without its trace: the types or the fault, the scanner as it was left, and the
answers that the scanner gave. -/
structure Gist where
  result : Except Fault (List TypeExpr)
  scanner : Scanner
  answers : List Scanner.Answer

/-- The same with answers that the scanner gave before. -/
def Gist.behind (answers : List Scanner.Answer) (gist : Gist) : Gist :=
  { gist with answers := answers ++ gist.answers }

/-- The gist of a reading. -/
def Reading.gist (reading : Reading) : Gist :=
  ⟨reading.result, reading.scanner, reading.answers⟩

namespace Draft

variable {draft following : Draft} {scanner after : Scanner} {token : Token} {fault : Fault}

theorem gist_of_error (next : scanner.next = (.error fault, after)) :
    (draft.read scanner).gist = ⟨.error fault, after, [.fault fault]⟩ := by
  rw [Reading.gist, answers_of_error next, read_of_error next]

theorem gist_of_rejected (next : scanner.next = (.ok token, after))
    (progress : draft.step token = .rejected fault) :
    (draft.read scanner).gist = ⟨.error fault, after, [.token token]⟩ := by
  rw [Reading.gist, answers_of_rejected next progress, read_of_rejected next progress]

theorem gist_of_complete {types : List TypeExpr} (next : scanner.next = (.ok token, after))
    (progress : draft.step token = .complete types) :
    (draft.read scanner).gist = ⟨.ok types, after, [.token token]⟩ := by
  rw [Reading.gist, answers_of_complete next progress, read_of_complete next progress]

theorem gist_of_reading (next : scanner.next = (.ok token, after))
    (progress : draft.step token = .reading following) :
    (draft.read scanner).gist = (following.read after).gist.behind [.token token] := by
  rw [Reading.gist, answers_of_reading next progress, read_of_reading next progress]
  rfl

end Draft

namespace Scanner

variable {scanner after : Scanner} {token : Token}

/-- Blanks are not handed out. -/
theorem kind_ne_blank_of_next (next : scanner.next = (.ok token, after)) :
    token.kind ≠ .blank := by
  rcases scanner.next_outcomes with ⟨_, _, found, _, one⟩ | ⟨_, _, found, last, _⟩ |
      ⟨_, _, _, found⟩ <;> cases next.symm.trans found
  · exact (one.kind_ne _ (List.mem_singleton_self _)).1
  · simp [last]

/-- The scanner never goes back. -/
theorem length_rest_next_le {answer : Except Fault Token}
    (next : scanner.next = (answer, after)) : after.rest.length ≤ scanner.rest.length := by
  rcases scanner.next_outcomes with ⟨_, _, found, _, one⟩ | ⟨_, _, found, _, ended⟩ |
      ⟨_, passes, _, found⟩ <;> cases next.symm.trans found
  · exact Nat.le_of_add_left_le one.length_le
  · simp [ended]
  · simpa using passes.length_le

/-- A token before the end of input moves the scanner forward. -/
theorem offset_lt_of_next (next : scanner.next = (.ok token, after))
    (more : token.kind ≠ .endOfInput) : scanner.cursor.offset < after.cursor.offset := by
  rcases scanner.next_outcomes with ⟨_, _, found, _, one⟩ | ⟨_, _, found, last, _⟩ |
      ⟨_, _, _, found⟩ <;> cases next.symm.trans found
  · obtain ⟨front, whole, place⟩ := one.split
    have shorter := length_rest_next_lt next more
    rw [whole, List.length_append] at shorter
    rw [place, Cursor.offset_past]
    omega
  · exact absurd last more

end Scanner

namespace Descent

/-- What becomes of a reading when the list inside the given brackets has ended: its types lead
to the draft behind the innermost bracket or, where there is none, complete the reading, and its
fault ends the reading. -/
def outcome? (descent : Descent) (frames : List Frame) : Option Gist :=
  match descent.result?, frames with
  | none, _ => none
  | some (.ok types), frame :: frames =>
      some (((Draft.leave frame frames types).read descent.scanner).gist.behind descent.answers)
  | some result, _ => some ⟨result, descent.scanner, descent.answers⟩

/-- The list inside the given brackets follows the reading of a draft, which may stand in a list
further inside. -/
structure Follows (frames : List Frame) (draft : Draft) (scanner : Scanner) (descent : Descent) :
    Prop where
  shorter : descent.scanner.rest.length ≤ scanner.rest.length
  agrees : descent.outcome? frames = some (draft.read scanner).gist
  ends : ∃ result, descent.result? = some result ∧ Call.End frames.length result descent.calls

section Following

variable {frame : Frame} {frames : List Frame} {draft following : Draft}
  {scanner after : Scanner} {token : Token} {fault : Fault} {descent : Descent}
  {further : Gist}

/-- Calls that were made before only add their answers. -/
theorem outcome?_behind (calls : List Call) :
    (descent.behind calls).outcome? frames =
      (descent.outcome? frames).map (.behind (calls.filterMap Call.answer?)) := by
  unfold outcome?
  rcases result : descent.result? with _ | fault | types <;> cases frames <;>
    simp [result, Gist.behind]

/-- Where an inner list is followed by what is left of the list around it, both together come
to what the inner list alone leads to. -/
theorem outcome?_andThen {result : Except Fault (List TypeExpr)}
    {onward : List TypeExpr → Scanner → Descent} (ended : descent.result? = some result)
    (agrees : ∀ types, (onward types descent.scanner).outcome? frames =
      some ((Draft.leave frame frames types).read descent.scanner).gist) :
    (descent.andThen onward).outcome? frames = descent.outcome? (frame :: frames) := by
  cases result with
  | error fault => simp [andThen_of_error ended, outcome?, ended, answers, Call.answer?]
  | ok types =>
      rw [andThen_of_ok ended, outcome?_behind, agrees types]
      simp [outcome?, ended, answers]

/-- A list that has asked for a token with which the draft goes on follows the draft. -/
theorem Follows.behind (follows : descent.Follows frames following after) (depth : Nat)
    (next : scanner.next = (.ok token, after)) (progress : draft.step token = .reading following) :
    (descent.behind [.asked depth (.ok token)]).Follows frames draft scanner := by
  have more := Draft.kind_ne_endOfInput_of_reading progress
  have shorter := Scanner.length_rest_next_lt next more
  obtain ⟨result, ended, ends⟩ := follows.ends
  refine ⟨Nat.le_trans follows.shorter (Nat.le_of_lt shorter), ?_, result, ended, ?_⟩
  · rw [outcome?_behind, follows.agrees, Draft.gist_of_reading next progress]
    rfl
  · exact ends.append (by simpa [Call.GoesOn] using more)

/-- An inner list that follows the draft goes on to follow it in the list around it. -/
theorem Follows.andThen {onward : List TypeExpr → Scanner → Descent}
    (inner : descent.Follows (frame :: frames) draft scanner)
    (outer : ∀ types, (onward types descent.scanner).Follows frames
      (Draft.leave frame frames types) descent.scanner) :
    (descent.andThen onward).Follows frames draft scanner := by
  obtain ⟨result, ended, ends⟩ := inner.ends
  have agrees := (outcome?_andThen ended fun types => (outer types).agrees).trans inner.agrees
  cases result with
  | error fault =>
      -- The fault has ended the reading already; the list around only raises it once more.
      rw [andThen_of_error ended] at agrees ⊢
      exact ⟨inner.shorter, agrees, _, rfl, ends.raise⟩
  | ok types =>
      rw [andThen_of_ok ended] at agrees ⊢
      obtain ⟨result', ended', ends'⟩ := (outer types).ends
      exact ⟨Nat.le_trans (outer types).shorter inner.shorter, agrees, result', ended',
        ends'.append ends.goesOn⟩

/-- Where no token is found or the token is rejected, the list follows the draft by its fault. -/
theorem Follows.raise {answer : Except Fault Token} (next : scanner.next = (answer, after))
    (agrees : (draft.read scanner).gist = ⟨.error fault, after, [.ofNext answer]⟩) :
    ((raise fault after).behind [.asked frames.length answer]).Follows frames draft scanner := by
  refine ⟨Scanner.length_rest_next_le next, ?_, .error fault, rfl, ?_⟩
  · rw [agrees]
    rfl
  · exact @Call.End.raised frames.length [] 0 answer fault (List.forall_mem_nil _)

/-- Where the list is closed, it follows the draft by its types. -/
theorem Follows.handBack {types : List TypeExpr} (next : scanner.next = (.ok token, after))
    (last : token.kind = .endOfInput ↔ frames.length = 0)
    (agrees : (handBack types after).outcome? frames = some further)
    (same : (draft.read scanner).gist = further.behind [.token token]) :
    ((handBack types after).behind [.asked frames.length (.ok token)]).Follows frames draft
      scanner := by
  refine ⟨Scanner.length_rest_next_le next, ?_, .ok types, rfl, ?_⟩
  · rw [outcome?_behind, agrees, same]
    rfl
  · exact @Call.End.returned frames.length [] token types (List.forall_mem_nil _) last

/-- A list inside a bracket that is closed with it is followed by the list around it. -/
theorem Follows.within {fuel : Nat}
    (follows : ∀ draft scanner, scanner.rest.length < fuel →
      (innermost fuel draft scanner).Follows draft.frames draft scanner)
    (closes : ∀ types, (Draft.leave frame frames types).frames = frames)
    (enough : scanner.rest.length < fuel) :
    (within fuel frame frames scanner).Follows frames ⟨frame :: frames, [], .empty⟩ scanner := by
  have inner := follows ⟨frame :: frames, [], .empty⟩ scanner enough
  refine inner.andThen fun types => ?_
  have outer := follows (Draft.leave frame frames types) _
    (Nat.lt_of_le_of_lt inner.shorter enough)
  rwa [closes] at outer

end Following

/-- Every list follows the draft that stands in it, if there is more fuel than characters. -/
theorem follows_innermost (fuel : Nat) (draft : Draft) (scanner : Scanner)
    (enough : scanner.rest.length < fuel) :
    (innermost fuel draft scanner).Follows draft.frames draft scanner := by
  -- Over all drafts at once: a list goes on with another draft in the same brackets, and the
  -- lists inside it with drafts that have one bracket more.
  induction fuel generalizing draft scanner with
  | zero => exact absurd enough (Nat.not_lt_zero _)
  | succ fuel ih =>
      rcases next : scanner.next with ⟨fault | token, after⟩
      · rw [innermost_of_error next]
        exact .raise next (Draft.gist_of_error next)
      · cases progress : draft.step token with
        | rejected fault =>
            rw [innermost_of_rejects next (Draft.step_eq_rejected_iff.1 progress)]
            exact .raise next (Draft.gist_of_rejected next progress)
        | complete types =>
            obtain ⟨last, closed, type, pending, rfl⟩ := Draft.step_eq_complete_iff.1 progress
            have due : token.kind = draft.closer := by rw [Draft.closer, closed, last]
            rw [innermost_of_due next due (by rw [last]; rfl) pending, closed]
            exact .handBack next (by simp [last]) rfl (Draft.gist_of_complete next progress)
        | reading following =>
            have more := Draft.kind_ne_endOfInput_of_reading progress
            have shorter := Scanner.length_rest_next_lt next more
            cases (Draft.step_eq_reading_iff (Scanner.kind_ne_blank_of_next next)).1 progress with
            | name kind free =>
                rw [innermost_of_name next kind free]
                exact (ih _ after (by omega)).behind _ next progress
            | separate kind pending =>
                rw [innermost_of_separator next kind pending]
                exact (ih _ after (by omega)).behind _ next progress
            | @leave frame frames type stack kind pending =>
                have due : token.kind = draft.closer := by rw [Draft.closer, stack, kind]
                have ends : token.kind.isTerminator = true :=
                  kind ▸ frame.bracket.isTerminator_closer
                rw [innermost_of_due next due ends pending, stack]
                exact .handBack next (by simp [more]) rfl (Draft.gist_of_reading next progress)
            | @enter bracket name opens head room =>
                rw [innermost_of_opens next opens head room]
                refine Follows.behind ?_ _ next progress
                cases bracket with
                | collection | fixed | hashValues => exact .within ih (fun _ => rfl) (by omega)
                | hashKeys =>
                    -- The values are read where the keys have ended, so at least as far on as the
                    -- keys, and what was enough fuel for the keys is enough for them.
                    have inner := ih ⟨⟨name, .hashKeys, draft.finished⟩ :: draft.frames, [], .empty⟩
                      after (by omega)
                    exact inner.andThen fun keys =>
                      .within ih (fun _ => rfl) (Nat.lt_of_le_of_lt inner.shorter (by omega))

/-- So the lists of a text come to what reading it comes to. -/
theorem follows_ofText {fuel : Nat} {text : String} (enough : text.length < fuel)
    (source : String) : (ofText fuel text source).Follows [] .empty (.start text source) :=
  follows_innermost fuel .empty (.start text source) (String.length_toList.symm ▸ enough)

/-- Where no bracket is open, the list has the result, the scanner and the answers of the
reading. -/
theorem Follows.eq_gist {draft : Draft} {scanner : Scanner} {descent : Descent}
    (follows : descent.Follows [] draft scanner) :
    descent.result? = some (draft.read scanner).result ∧
      descent.scanner = (draft.read scanner).scanner ∧
      descent.answers = (draft.read scanner).answers := by
  have agrees := follows.agrees
  obtain ⟨result, ended, -⟩ := follows.ends
  have same : ⟨result, descent.scanner, descent.answers⟩ = (draft.read scanner).gist := by
    cases result <;> simpa [outcome?, ended] using agrees
  rw [ended]
  exact ⟨congrArg (some ·.result) same, congrArg Gist.scanner same, congrArg Gist.answers same⟩

end Descent

/-- Every answer but the last takes a character off the rest. -/
theorem Draft.length_answers_read_le (draft : Draft) (scanner : Scanner) :
    (draft.read scanner).answers.length ≤ scanner.rest.length + 1 := by
  induction draft, scanner using Draft.read.induct with
  | case1 draft scanner fault after next =>
      rw [answers_of_error next]
      exact Nat.le_add_left 1 _
  | case2 draft scanner token after next fault rejected =>
      rw [answers_of_rejected next rejected]
      exact Nat.le_add_left 1 _
  | case3 draft scanner token after next types complete =>
      rw [answers_of_complete next complete]
      exact Nat.le_add_left 1 _
  | case4 draft scanner token after next following goesOn shorter ih =>
      rw [answers_of_reading next goesOn, List.length_cons]
      omega

/-- Reading takes the end of input at most once. -/
theorem Scanner.Leaves.countP_endOfInput_le {scanner left : Scanner} {pulled : List Token}
    {result : Except Fault (List TypeExpr)} (leaves : scanner.Leaves pulled left result) :
    pulled.countP (fun token => token.kind = .endOfInput) ≤ 1 := by
  have none : ∀ {tokens : List Token} {after : Scanner}, scanner.Yields tokens after →
      tokens.countP (fun token => token.kind = .endOfInput) = 0 := by
    intro tokens after yields
    simpa [List.countP_eq_zero] using fun token inside => (yields.kind_ne token inside).2
  cases leaves with
  | stuck yields _ =>
      rw [none yields]
      exact Nat.zero_le 1
  | ended yields _ _ =>
      rw [List.countP_append, none yields, Nat.zero_add]
      exact List.countP_le_length
  | rejected yields one =>
      rw [none (yields.trans one)]
      exact Nat.zero_le 1

/-- Behind the end of input nothing is asked. The list that has met it hands back its types if no
bracket is open, or a fault is raised by this list and by all lists around it. -/
theorem Call.End.behind_endOfInput {result : Except Fault (List TypeExpr)} {depth : Nat}
    {calls before behind : List Call} {token : Token} (ends : Call.End 0 result calls)
    (split : calls = before ++ .asked depth (.ok token) :: behind)
    (last : token.kind = .endOfInput) :
    (depth = 0 ∧ behind = [.returned] ∧ ∃ types, result = .ok types) ∨
      ∃ fault, behind = List.replicate (depth + 1) (.raised fault) ∧ result = .error fault := by
  have fresh : ∀ {front : List Call}, (∀ call ∈ front, call.GoesOn) →
      Call.asked depth (.ok token) ∉ front :=
    fun goesOn inside => goesOn _ inside last
  cases ends with
  | returned goesOn _ =>
      obtain ⟨-, same, rfl⟩ :=
        (List.append_cons_inj_of_notMem (fresh goesOn) (by simp)).1 split
      cases same
      exact .inl ⟨rfl, rfl, _, rfl⟩
  | @raised _ deeper _ fault goesOn =>
      obtain ⟨-, same, rfl⟩ :=
        (List.append_cons_inj_of_notMem (fresh goesOn) (by simp)).1 split
      cases same
      exact .inr ⟨fault, by rw [Nat.zero_add], rfl⟩

/-- Reading comes to an end inside its text, and so does reading lists inside lists. Every token
before the end of input moves the scanner forward. The end of input is taken at most once, and
the scanner is asked at most once more than there are characters. Lists that are read inside
lists have the same answers from the scanner, and come to the same result, if there is more fuel
than characters; in particular they do not run out of it. Once the end of input was the answer,
no list asks again: the list that met it was the outermost one and hands back its types, or it
ends with a fault and so do all the lists around it. -/
theorem reading_ends_inside_text (text source : String) :
    (∀ (scanner after : Scanner) (token : Token), scanner.next = (.ok token, after) →
      token.kind ≠ .endOfInput → scanner.cursor.offset < after.cursor.offset) ∧
    (readText text source).pulled.countP (fun token => token.kind = .endOfInput) ≤ 1 ∧
    (readText text source).answers.length ≤ text.length + 1 ∧
    (readText text source).scanner.cursor.offset ≤ text.length ∧
    ∀ fuel, text.length < fuel →
      (Descent.ofText fuel text source).result? = some (parse text source) ∧
      (Descent.ofText fuel text source).scanner = (readText text source).scanner ∧
      (Descent.ofText fuel text source).answers = (readText text source).answers ∧
      ∀ before depth token behind,
        (Descent.ofText fuel text source).calls =
          before ++ .asked depth (.ok token) :: behind →
        token.kind = .endOfInput →
        (depth = 0 ∧ behind = [.returned] ∧ ∃ types, parse text source = .ok types) ∨
          ∃ fault, behind = List.replicate (depth + 1) (.raised fault) ∧
            parse text source = .error fault := by
  have leaves := leaves_readText text source
  refine ⟨fun _ _ _ => Scanner.offset_lt_of_next, leaves.countP_endOfInput_le, ?_, ?_, ?_⟩
  · rw [← String.length_toList]
    exact Draft.empty.length_answers_read_le _
  · exact (leaves.yields.standsIn (Scanner.standsIn_start text source)).within
  · intro fuel enough
    have follows := Descent.follows_ofText enough source
    obtain ⟨result, left, answers⟩ := follows.eq_gist
    refine ⟨result, left, answers, ?_⟩
    intro before depth token behind split last
    obtain ⟨_, ended, ends⟩ := follows.ends
    cases ended.symm.trans result
    exact ends.behind_endOfInput split last

/-- The end of input between the keys and the values of a hash: the list of values has met it,
and a fault is raised twice. -/
theorem end_of_input_behind_arrow :
    (Scanner.start "\x7bA=>" "t").cursor.offset < 1 ∧
    (Descent.ofText 5 "\x7bA=>" "t").result? = some (parse "\x7bA=>" "t") ∧
    ∃ before fault, (Descent.ofText 5 "\x7bA=>" "t").calls = before ++
        [.asked 1 (.ok ⟨.endOfInput, "", ⟨"t", 1, 5, 4⟩⟩), .raised fault, .raised fault] ∧
      parse "\x7bA=>" "t" = .error fault := by
  have first : (Scanner.start "\x7bA=>" "t").next =
      (.ok ⟨.openHash, "\x7b", ⟨"t", 1, 1, 0⟩⟩, ⟨"t", ⟨1, 1, 2⟩, ['A', '=', '>']⟩) := by
    decide +kernel
  have calls : ∃ before behind, (Descent.ofText 5 "\x7bA=>" "t").calls =
      before ++ .asked 1 (.ok ⟨.endOfInput, "", ⟨"t", 1, 5, 4⟩⟩) :: behind :=
    ⟨[.asked 0 (.ok ⟨.openHash, "\x7b", ⟨"t", 1, 1, 0⟩⟩),
        .asked 1 (.ok ⟨.name, "A", ⟨"t", 1, 2, 1⟩⟩),
        .asked 1 (.ok ⟨.arrow, "=>", ⟨"t", 1, 3, 2⟩⟩), .returned],
      List.replicate 2 (.raised (.missingName ⟨.endOfInput, "", ⟨"t", 1, 5, 4⟩⟩)),
      by decide +kernel⟩
  obtain ⟨forward, -, -, -, lists⟩ := reading_ends_inside_text "\x7bA=>" "t"
  obtain ⟨result, -, -, unwinds⟩ := lists 5 (by decide)
  obtain ⟨before, behind, split⟩ := calls
  refine ⟨forward _ _ _ first (by decide), result, ?_⟩
  rcases unwinds _ _ _ _ split rfl with ⟨outermost, -⟩ | ⟨fault, rfl, failed⟩
  · cases outermost
  · exact ⟨before, fault, split, failed⟩

/-- With less fuel than that, lists may run out of it. -/
example : (Descent.ofText 1 "A" "t").result? = none := by
  decide +kernel

end TypeProse
