import TypeProse.Proofs.Locating
import TypeProse.Reading.Session

/-!
# Reading again and again

A reader can be asked to read its text, to exchange it, and to drive the scanner of its
last reading, in any order. Reading depends on nothing but the text that is held at the
moment, and what the scanner answers depends on nothing but the last reading. That leaves
the scanner at the end of the text, behind the token that was rejected, or at the
character at which no token starts (`Scanner.IsLeftBy`), so that the tokens which were
not yet taken are the ones that it hands out next.
-/

namespace TypeProse

/-- The token that a fault is about. -/
def Fault.found? : Fault → Option Token
  | .duplicateName _ found => some found
  | .missingName found => some found
  | .mismatched _ found => some found
  | .unclosed _ found => some found
  | .duplicateSuffix _ found => some found
  | .invalidCharacter _ _ => none
  | .tooDeep _ => none

/-- A fault at a token is about the token that is rejected. -/
theorem Draft.Rejects.found?_eq {draft : Draft} {token : Token} {fault : Fault}
    (rejects : draft.Rejects token fault) (stands : fault.IsAtToken) :
    fault.found? = some token := by
  cases rejects with
  | named | missing | suffixed | mismatched => rfl
  | full | unclosed => cases stands

/-- A fault at the end is not at a token before it. -/
theorem Fault.IsAtEnd.not_isAtToken {fault : Fault} (ends : fault.IsAtEnd) :
    ¬ fault.IsAtToken := by
  intro stands
  cases fault with
  | missingName found => exact stands ends
  | unclosed => cases stands
  | invalidCharacter | duplicateName | mismatched | duplicateSuffix | tooDeep => cases ends

namespace Scanner

/-- A scanner as the reading of a text leaves it: how far it has come, and which tokens it will
hand out, one by one, all at once, or however it is driven. -/
structure IsLeftBy (text source : String) (scanner : Scanner) : Prop where
  stands : scanner.StandsIn text source
  atEnd : ∀ types, parse text source = .ok types → scanner.cursor.offset = text.length
  tooEarly : ∀ fault, parse text source = .error fault → fault.IsAtEnd →
    scanner.cursor.offset = text.length
  behindToken : ∀ fault, parse text source = .error fault → fault.IsAtToken →
    ∃ found, fault.found? = some found ∧
      scanner.cursor.offset = fault.location.offset + found.lexeme.length
  atCharacter : ∀ fault, parse text source = .error fault → fault.code = .invalidCharacter →
    scanner.cursor.offset = fault.location.offset
  next : ∀ count, (start text source).nextAnswers ((readText text source).taken.length + count) =
    (readText text source).taken.map .token ++ scanner.nextAnswers count
  all : TypeProse.tokenize text source =
    scanner.tokenize.1.map fun tokens => (readText text source).taken ++ tokens
  onward : ∀ requests, ∃ count, (readText text source).taken ++ scanner.handedOut requests <+:
    (start text source).outlook.extended count

section Leaving

variable {text source : String} {scanner left : Scanner} {pulled : List Token}

/-- Where reading ends with types, the whole text was passed. -/
theorem Leaves.offset_eq_of_ok {types : List TypeExpr}
    (leaves : scanner.Leaves pulled left (.ok types)) (stands : scanner.StandsIn text source) :
    left.cursor.offset = text.length := by
  cases leaves with
  | ended yields settled _ =>
      have stands' := yields.standsIn stands
      cases settled
      exact stands'.offset_eq rfl

/-- How far a scanner has come where reading ends with a fault. -/
theorem Leaves.offset_eq_of_error {fault : Fault}
    (leaves : scanner.Leaves pulled left (.error fault)) (stands : scanner.StandsIn text source) :
    (fault.IsAtEnd → left.cursor.offset = text.length) ∧
    (fault.IsAtToken → ∃ found, fault.found? = some found ∧
      left.cursor.offset = fault.location.offset + found.lexeme.length) ∧
    (fault.code = .invalidCharacter → left.cursor.offset = fault.location.offset) := by
  cases leaves with
  | stuck yields settled =>
      cases settled
      exact ⟨nofun, nofun, fun _ => rfl⟩
  | ended yields settled atEnd =>
      have ends := (atEnd fault rfl).1
      have stands' := yields.standsIn stands
      refine ⟨fun _ => ?_, fun atToken => absurd atToken ends.not_isAtToken, fun invalid => ?_⟩
      · cases settled
        exact stands'.offset_eq rfl
      · have code := ends.code_mem
        simp [invalid] at code
  | @rejected _ _ token here _ _ yields one place length rejects =>
      refine ⟨fun ends => ?_, fun atToken => ⟨token, rejects.found?_eq atToken, ?_⟩, ?_⟩
      · have more := (one.kind_ne _ (List.mem_singleton_self token)).2
        exact absurd (rejects.kind_eq_of_isAtEnd ends) more
      · rw [rejects.location_eq, place, length]
        rfl
      · intro invalid
        cases rejects <;> cases invalid

end Leaving

/-- Reading a text leaves its scanner so. -/
theorem isLeftBy_readText (text source : String) :
    (readText text source).scanner.IsLeftBy text source := by
  have stands := standsIn_start text source
  have leaves := leaves_readText text source
  have yields : (start text source).Yields (readText text source).taken _ := leaves.yields
  have failing : ∀ fault, parse text source = .error fault → _ := fun fault failed =>
    (failed ▸ leaves : Leaves _ _ _ (.error fault)).offset_eq_of_error stands
  exact {
    stands := yields.standsIn stands
    atEnd := fun types read => (read ▸ leaves : Leaves _ _ _ (.ok types)).offset_eq_of_ok stands
    tooEarly := fun fault failed => (failing fault failed).1
    behindToken := fun fault failed => (failing fault failed).2.1
    atCharacter := fun fault failed => (failing fault failed).2.2
    next := yields.nextAnswers_eq
    all := congrArg Prod.fst yields.tokenize_eq
    onward := yields.handedOut_isPrefix }

end Scanner

namespace Reader

/-- The answer to a request to read. -/
def Answer.ofResult : Except Fault (List TypeExpr) → Answer
  | .ok listed => .types listed
  | .error cause => .fault cause

/-- The text and the name of its source that are held after a request. -/
def Request.assigned (held : String × String) : Request → String × String
  | .assign text source => (text.getD held.1, source.getD held.2)
  | .parse => held
  | .scan _ => held

/-- The request to the scanner in a request, if there is one. -/
def Request.scan? : Request → Option Scanner.Request
  | .scan inner => some inner
  | .parse => none
  | .assign _ _ => none

/-- The answer of the scanner in an answer, if there is one. -/
def Answer.scanned? : Answer → Option Scanner.Answer
  | .scanned inner => some inner
  | .types _ => none
  | .fault _ => none
  | .assigned => none

/-- The reader after several requests in turn. -/
def driven (reader : Reader) (requests : List Request) : Reader :=
  requests.foldl (fun reader request => (reader.perform request).2) reader

/-- Requests are answered one after the other, each by the reader that the ones before it
leave behind. -/
theorem performAll_append (reader : Reader) (before behind : List Request) :
    reader.performAll (before ++ behind) =
      reader.performAll before ++ (reader.driven before).performAll behind := by
  induction before generalizing reader with
  | nil => rfl
  | cons request before ih => simp [performAll, ih, driven]

/-- A request to read is answered by what the text lists, and the scanner is the one that
reading leaves behind. -/
theorem perform_parse (reader : Reader) :
    reader.perform .parse = (.ofResult (parse reader.text reader.source),
      { reader with scanner := (readText reader.text reader.source).scanner }) := by
  simp only [perform, parse]
  cases (readText reader.text reader.source).result <;> rfl

/-- A request changes the text and its name by assignment only. -/
theorem held_perform (reader : Reader) (request : Request) :
    ((reader.perform request).2.text, (reader.perform request).2.source) =
      request.assigned (reader.text, reader.source) := by
  cases request with
  | parse => rw [perform_parse]; rfl
  | scan inner => rfl
  | assign text source => rfl

/-- What a reader holds after several requests is what was assigned last. -/
theorem held_driven (reader : Reader) (requests : List Request) :
    ((reader.driven requests).text, (reader.driven requests).source) =
      requests.foldl Request.assigned (reader.text, reader.source) := by
  induction requests generalizing reader with
  | nil => rfl
  | cons request requests ih =>
      rw [List.foldl_cons, ← held_perform]
      exact ih (reader.perform request).2

/-- Between two readings the scanner answers as if it were asked alone. -/
theorem scanned_performAll (reader : Reader) {requests : List Request}
    (unread : .parse ∉ requests) :
    (reader.performAll requests).filterMap (fun step => step.1.scanned?) =
      (reader.scanner.performAll (requests.filterMap Request.scan?)).map Prod.fst := by
  induction requests generalizing reader with
  | nil => rfl
  | cons request requests ih =>
      obtain ⟨first, others⟩ := not_or.1 (mt List.mem_cons.2 unread)
      have behind := ih (reader.perform request).2 others
      cases request with
      | parse => exact absurd rfl first
      | scan inner =>
          simp only [performAll, perform, List.filterMap_cons, Answer.scanned?, Request.scan?,
            Scanner.performAll, List.map_cons, List.cons.injEq, true_and]
          exact behind
      | assign text source =>
          simp only [performAll, perform, List.filterMap_cons, Answer.scanned?, Request.scan?]
          exact behind

end Reader

/-- A reader keeps no history. Whatever it was asked before, a request to read is answered by
what the text lists that was assigned last, and leaves the scanner where the reading of that
text stopped. And whatever is assigned then, up to the next reading the scanner answers as
if it were asked alone. -/
theorem reader_keeps_no_history (text source : String) :
    (∀ before behind, ∃ reader : Reader,
      (reader.text, reader.source) = before.foldl Reader.Request.assigned (text, source) ∧
      (Reader.start text source).performAll (before ++ .parse :: behind) =
        (Reader.start text source).performAll before ++
          (.ofResult (parse reader.text reader.source), reader) :: reader.performAll behind ∧
      reader.scanner.IsLeftBy reader.text reader.source) ∧
    ∀ (reader : Reader) (requests : List Reader.Request), .parse ∉ requests →
      (reader.performAll requests).filterMap (fun step => step.1.scanned?) =
        (reader.scanner.performAll (requests.filterMap Reader.Request.scan?)).map Prod.fst := by
  refine ⟨fun before behind => ?_, fun reader requests => reader.scanned_performAll⟩
  have held := (Reader.start text source).held_driven before
  have split := (Reader.start text source).performAll_append before (.parse :: behind)
  generalize (Reader.start text source).driven before = reader at held split
  refine ⟨{ reader with scanner := (readText reader.text reader.source).scanner }, held, ?_,
    Scanner.isLeftBy_readText reader.text reader.source⟩
  rw [split, Reader.performAll, reader.perform_parse]

/-- A text that is assigned after a reading, where reading then stops behind a bracket; and
assignments between two requests to the scanner. -/
theorem reader_of_two_texts :
    (∃ reader : Reader, reader.text = "B) C" ∧ reader.scanner.cursor.offset = 2 ∧
      (Reader.start "A" "t").performAll
          [.parse, .assign (some "B) C") none, .parse, .scan .next] =
        (Reader.start "A" "t").performAll [.parse, .assign (some "B) C") none] ++
          (.fault (.mismatched [.endOfInput] ⟨.closeFixed, ")", ⟨"t", 1, 2, 1⟩⟩), reader) ::
            reader.performAll [.scan .next]) ∧
    ((Reader.start "A" "t").performAll
        [.scan .next, .assign (some "B") none, .scan .atEnd]).filterMap (fun step =>
          step.1.scanned?) =
      ((Scanner.start "A" "t").performAll [.next, .atEnd]).map Prod.fst := by
  have failed : parse "B) C" "t" =
      .error (.mismatched [.endOfInput] ⟨.closeFixed, ")", ⟨"t", 1, 2, 1⟩⟩) := by
    decide +kernel
  constructor
  · obtain ⟨⟨_, _, scanner⟩, held, answers, left⟩ :=
      (reader_keeps_no_history "A" "t").1 [.parse, .assign (some "B) C") none] [.scan .next]
    cases held
    rw [failed] at answers
    obtain ⟨found, same, place⟩ := left.behindToken _ failed trivial
    cases same
    exact ⟨_, rfl, Int.ofNat.inj place, answers⟩
  · exact (reader_keeps_no_history "A" "t").2 (.start "A" "t") _ (by decide)

end TypeProse
