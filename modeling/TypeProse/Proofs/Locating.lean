import Mathlib.Data.List.DropRight
import TypeProse.Proofs.Pulling

/-!
# Locations are counted over the text

A cursor is moved over a text character by character. `Cursor.behind` counts line and
column over all characters in front of a place at once, and the two agree. So a scanner
always stands in its text (`Scanner.StandsIn`), whatever it was asked and however reading
has left it, and every location in an answer or a fault is determined by its offset
(`Location.LiesIn`).
-/

namespace TypeProse

namespace Cursor

/-- The cursor behind some characters: one line more than there are line feeds among them, and
one column more than there are characters behind the last line feed. -/
def behind (passed : List Char) : Cursor :=
  ⟨passed.length, 1 + passed.count '\n', 1 + (passed.rtakeWhile (· ≠ '\n')).length⟩

/-- The place of a cursor in the text of that name. -/
def location (cursor : Cursor) (source : String) : Location :=
  ⟨source, cursor.line, cursor.column, cursor.offset⟩

/-- Passing characters one by one counts them. -/
theorem start_past (passed : List Char) : start.past passed = behind passed := by
  -- The column is counted back to the last line feed, so the last character comes first.
  induction passed using List.reverseRecOn with
  | nil => rfl
  | append_singleton passed char ih =>
      rw [past_append, ih, past_cons, past_nil, step]
      by_cases feed : char = '\n' <;> simp [behind, feed, Nat.add_assoc]

end Cursor

/-- The line and the column of a place in a text are counted over what is in front of it. -/
def Location.LiesIn (text source : String) (location : Location) : Prop :=
  ∃ offset ≤ text.length, location = (Cursor.behind (text.toList.take offset)).location source

namespace Scanner

/-- A scanner stands in a text: its cursor is counted over what is in front of it, and all that
is behind is unread. -/
structure StandsIn (text source : String) (scanner : Scanner) : Prop where
  source : scanner.source = source
  within : scanner.cursor.offset ≤ text.length
  counted : scanner.cursor = .behind (text.toList.take scanner.cursor.offset)
  unread : scanner.rest = text.toList.drop scanner.cursor.offset

/-- A scanner stands in a text exactly when it has passed a front part of it. -/
theorem standsIn_iff {text source : String} {scanner : Scanner} :
    scanner.StandsIn text source ↔
      ∃ front, text.toList = front ++ scanner.rest ∧ scanner.source = source ∧
        scanner.cursor = Cursor.start.past front := by
  constructor
  · rintro ⟨same, within, counted, unread⟩
    refine ⟨text.toList.take scanner.cursor.offset, ?_, same, ?_⟩
    · rw [unread, List.take_append_drop]
    · rw [Cursor.start_past]
      exact counted
  · rintro ⟨front, whole, same, place⟩
    rw [Cursor.start_past] at place
    have offset : scanner.cursor.offset = front.length := by rw [place]; rfl
    refine ⟨same, ?_, ?_, ?_⟩
    · rw [offset, ← String.length_toList, whole, List.length_append]
      exact Nat.le_add_right _ _
    · rw [offset, whole, List.take_left]
      exact place
    · rw [offset, whole, List.drop_left]

/-- At the front of a text, a scanner stands in it. -/
theorem standsIn_start (text source : String) : (start text source).StandsIn text source :=
  standsIn_iff.2 ⟨[], rfl, rfl, rfl⟩

section Standing

variable {text source : String} {scanner after : Scanner}

/-- The place of a scanner lies in the text that it stands in. -/
theorem StandsIn.liesIn (stands : scanner.StandsIn text source) :
    scanner.location.LiesIn text source := by
  refine ⟨scanner.cursor.offset, stands.within, ?_⟩
  rw [← stands.counted, ← stands.source]
  rfl

/-- At the end of a text, all of its characters were passed. -/
theorem StandsIn.offset_eq (stands : scanner.StandsIn text source) (ended : scanner.rest = []) :
    scanner.cursor.offset = text.length := by
  have unread := stands.unread
  rw [ended, eq_comm, List.drop_eq_nil_iff, String.length_toList] at unread
  exact Nat.le_antisymm stands.within unread

/-- On its way over tokens and blanks, a scanner stays in its text. -/
theorem Yields.standsIn {tokens : List Token} (yields : scanner.Yields tokens after)
    (stands : scanner.StandsIn text source) : after.StandsIn text source := by
  obtain ⟨front, whole, same, place⟩ := standsIn_iff.1 stands
  obtain ⟨passed, rest, onward⟩ := yields.split
  refine standsIn_iff.2 ⟨front ++ passed, ?_, ?_, ?_⟩
  · rw [whole, rest, List.append_assoc]
  · rw [onward]
    exact same
  · rw [onward, Cursor.past_append, ← place]

/-- The tokens on that way lie in the text. -/
theorem Yields.liesIn {tokens : List Token} (yields : scanner.Yields tokens after)
    (stands : scanner.StandsIn text source) :
    ∀ token ∈ tokens, token.location.LiesIn text source := by
  induction yields with
  | here => simp
  | blank blank _ ih => exact ih ((Yields.blank blank (.here _)).standsIn stands)
  | token found shown more _ ih =>
      exact List.forall_mem_cons.2
        ⟨stands.liesIn, ih ((Yields.token found shown more (.here _)).standsIn stands)⟩

/-- The end of input stands where the scanner does. -/
theorem Settled.location_eq_of_ok {last : Token} (settled : scanner.Settled (.ok last)) :
    last.location = scanner.location := by
  cases settled
  rfl

end Standing

/-- The locations in an answer. -/
def Answer.locations : Answer → List Location
  | .token one => [one.location]
  | .tokens several => several.map Token.location
  | .atEnd _ => []
  | .location place => [place]
  | .fault cause => [cause.location]

section Session

variable {text source : String} {scanner after : Scanner} {request : Request} {answer : Answer}

/-- A request leaves the scanner in its text, and the locations in the answer lie in it. -/
theorem Serves.standsIn (serves : scanner.Serves request answer after)
    (stands : scanner.StandsIn text source) :
    after.StandsIn text source ∧
      ∀ location ∈ answer.locations, location.LiesIn text source := by
  cases serves with
  | atEnd => exact ⟨stands, by simp [Answer.locations]⟩
  | location => exact ⟨stands, by simpa [Answer.locations] using stands.liesIn⟩
  | token one =>
      refine ⟨one.standsIn stands, ?_⟩
      simpa [Answer.locations] using one.liesIn stands
  | @ending ending _ blanks settled =>
      have stands' := blanks.standsIn stands
      refine ⟨stands', ?_⟩
      cases ending with
      | ok last =>
          simpa [Answer.ofNext, Answer.locations, settled.location_eq_of_ok] using stands'.liesIn
      | error fault =>
          simpa [Answer.ofNext, Answer.locations, settled.location_eq] using stands'.liesIn
  | @all tokens ending _ yields settled =>
      have stands' := yields.standsIn stands
      refine ⟨stands', ?_⟩
      cases ending with
      | error fault =>
          simpa [Except.map, Answer.ofAll, Answer.locations, settled.location_eq]
            using stands'.liesIn
      | ok last =>
          simp only [Except.map, Answer.ofAll, Answer.locations, List.forall_mem_map,
            List.forall_mem_append, List.forall_mem_singleton, settled.location_eq_of_ok]
          exact ⟨yields.liesIn stands, stands'.liesIn⟩

/-- However a scanner is driven, it stays in its text, and so do the locations in its
answers. -/
theorem StandsIn.performAll (stands : scanner.StandsIn text source) (requests : List Request) :
    ∀ step ∈ scanner.performAll requests, step.2.StandsIn text source ∧
      ∀ location ∈ step.1.locations, location.LiesIn text source := by
  induction requests generalizing scanner with
  | nil => simp [Scanner.performAll]
  | cons request requests ih =>
      have first := (scanner.serves_perform request).standsIn stands
      exact List.forall_mem_cons.2 ⟨first, ih first.1⟩

end Session

section Reading

variable {text source : String} {scanner left : Scanner} {pulled : List Token}
  {result : Except Fault (List TypeExpr)}

/-- The tokens that reading has taken lie in the text. -/
theorem Leaves.liesIn (leaves : scanner.Leaves pulled left result)
    (stands : scanner.StandsIn text source) :
    ∀ token ∈ pulled, token.location.LiesIn text source := by
  cases leaves with
  | stuck yields _ => exact yields.liesIn stands
  | ended yields settled _ =>
      refine List.forall_mem_append.2 ⟨yields.liesIn stands, ?_⟩
      rw [List.forall_mem_singleton, settled.location_eq_of_ok]
      exact (yields.standsIn stands).liesIn
  | rejected yields one => exact (yields.trans one).liesIn stands

/-- A fault lies in the text, and one that says that the text ended too early lies at its
end. -/
theorem Leaves.liesIn_of_error {fault : Fault} (leaves : scanner.Leaves pulled left (.error fault))
    (stands : scanner.StandsIn text source) :
    fault.location.LiesIn text source ∧
      (fault.IsAtEnd → fault.location.offset = text.length) := by
  cases leaves with
  | stuck yields settled =>
      refine ⟨settled.location_eq ▸ (yields.standsIn stands).liesIn, fun ends => ?_⟩
      cases settled
      cases ends
  | ended yields settled atEnd =>
      have stands' := yields.standsIn stands
      have place := (atEnd fault rfl).2.trans settled.location_eq_of_ok
      refine ⟨place ▸ stands'.liesIn, fun _ => ?_⟩
      cases settled
      rw [place]
      exact congrArg _ (stands'.offset_eq rfl)
  | @rejected _ _ token _ _ _ yields one place _ rejects =>
      have stands' := yields.standsIn stands
      refine ⟨(rejects.location_eq.trans place) ▸ stands'.liesIn, fun ends => ?_⟩
      have more := (one.kind_ne _ (List.mem_singleton_self token)).2
      exact absurd (rejects.kind_eq_of_isAtEnd ends) more

end Reading

end Scanner

/-- A scanner of a text and the scanner that reading of the text leaves behind stand in the
text, and stay in it whatever they are asked. Their line and column are counted over what
is in front of them, and so are the line and column of every location in an answer, of every
token that reading takes, and of the fault with which it fails. An unclosed bracket is
noticed at the end of the text. -/
theorem locations_are_counted (text source : String) :
    (∀ scanner ∈ [Scanner.start text source, (readText text source).scanner],
      scanner.StandsIn text source ∧
      ∀ requests, ∀ step ∈ scanner.performAll requests, step.2.StandsIn text source ∧
        ∀ location ∈ step.1.locations, location.LiesIn text source) ∧
    (∀ token ∈ (readText text source).pulled, token.location.LiesIn text source) ∧
    ∀ fault, parse text source = .error fault →
      fault.location.LiesIn text source ∧
      (fault.code = .unclosed → fault.location.offset = text.length) := by
  have stands := Scanner.standsIn_start text source
  have leaves := leaves_readText text source
  have stands' := leaves.yields.standsIn stands
  refine ⟨?_, leaves.liesIn stands, ?_⟩
  · intro scanner either
    rcases List.mem_pair.1 either with rfl | rfl
    · exact ⟨stands, stands.performAll⟩
    · exact ⟨stands', stands'.performAll⟩
  · intro fault failed
    rw [failed] at leaves
    obtain ⟨lies, atEnd⟩ := leaves.liesIn_of_error stands
    refine ⟨lies, fun unclosed => atEnd ?_⟩
    cases fault with
    | unclosed => trivial
    | invalidCharacter | duplicateName | missingName | mismatched | duplicateSuffix | tooDeep =>
        cases unclosed

/-- A bracket that is not closed in a text whose first line ends with a carriage return and a
line feed, and a scanner that has passed two line feeds before a fault. -/
theorem locations_in_several_lines :
    Location.LiesIn "A<\r\n b" "t" ⟨"t", 2, 3, 6⟩ ∧
    Scanner.StandsIn "\r\n\n :" "t" ⟨"t", ⟨4, 3, 2⟩, [':']⟩ := by
  have failed : parse "A<\r\n b" "t" = .error (.unclosed [.closeCollection]
      ⟨.endOfInput, "", ⟨"t", 2, 3, 6⟩⟩) := by
    decide +kernel
  have asked : (.fault (.invalidCharacter ":" ⟨"t", 3, 2, 4⟩), ⟨"t", ⟨4, 3, 2⟩, [':']⟩) ∈
      (Scanner.start "\r\n\n :" "t").performAll [.next] := by
    decide +kernel
  constructor
  · exact ((locations_are_counted _ _).2.2 _ failed).1
  · obtain ⟨-, answers⟩ := (locations_are_counted "\r\n\n :" "t").1 _ List.mem_cons_self
    exact (answers _ _ asked).1

end TypeProse
