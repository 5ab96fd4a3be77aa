import TypeProse.Proofs.Depth
import TypeProse.Proofs.Locating

/-!
# What a suggestion makes of a text

A fault suggests an edit of the text at the place where it stands: a comma before a token that
follows a type, the terminator that is due in place of another one or behind the text, or a name
where a type is missing. After the edit, reading comes to the same draft at that place, because
the edit belongs to no token in front of it, and goes on past it.
-/

namespace TypeProse

open Text

/-- The text with other characters in place of some of its own, from an offset on. -/
def splice (text : String) (offset count : Nat) (inserted : String) : String :=
  String.ofList (text.toList.take offset ++ (inserted.toList ++ text.toList.drop (offset + count)))

/-- Reading gets past an offset: if it fails, then behind it. -/
def ReadsPast (text source : String) (offset : Nat) : Prop :=
  ∀ fault, parse text source = .error fault → offset < fault.location.offset

/-- The tokens of a whole text are without a fault, and these terminators are due behind them,
innermost first. -/
def LeavesDue (text source : String) (due : List TokenKind) : Prop :=
  ∃ tokens cursor lookback, (Scanner.start text source).Yields tokens ⟨source, cursor, []⟩ ∧
    Lookback.start.past tokens = .ok lookback ∧ lookback.stack.map Prod.fst = due

/-- A text lacks nothing but terminators: it lists types if none is missing, and otherwise it is
refused at its end for the first of them. -/
def Lacks (text source : String) : List TokenKind → Prop
  | [] => ∃ types, parse text source = .ok types
  | due :: _ => ∃ found, parse text source = .error (.unclosed [due] found) ∧
      found.location.offset = text.length

/-- The words of a fault make a suggestion. -/
def Fault.Suggests (fault : Fault) (suggestion : String) : Prop :=
  ∃ words, fault.wording = .ok words ∧ suggestion ∈ words.suggestions

/-- What becomes of a text if the suggestion of its fault is followed. -/
def Fault.IsRepaired (text source : String) (offset : Nat) : Fault → Prop
  | .duplicateName pending found =>
      (Fault.duplicateName pending found).Suggests
        ("Separate the types with a comma: " ++ quoted (pending ++ ", " ++ found.lexeme)) ∧
      ReadsPast (splice text offset 0 ",") source (offset + 1)
  | .duplicateSuffix name found =>
      (Fault.duplicateSuffix name found).Suggests "Separate the types with a comma" ∧
      ReadsPast (splice text offset 0 ",") source (offset + 1)
  | .mismatched expected found =>
      (expected = [.endOfInput] ∧
        ∃ types, parse (String.ofList (text.toList.take offset)) source = .ok types) ∨
      ∃ due spelled, expected = [due] ∧ due ≠ .endOfInput ∧ due.text? = some spelled ∧
        (Fault.mismatched expected found).Suggests
          ("Replace " ++ quoted found.lexeme ++ " with " ++ quoted spelled) ∧
        ReadsPast (splice text offset found.lexeme.length spelled) source offset
  | .unclosed expected found =>
      ∃ due outer spelled, expected = [due] ∧ LeavesDue text source (due :: outer) ∧
        due.text? = some spelled ∧
        (Fault.unclosed expected found).Suggests ("Add the missing " ++ quoted spelled) ∧
        if due = .arrow then
          ∃ found', parse (text ++ spelled) source = .error (.missingName found') ∧
            found'.kind = .endOfInput ∧ found'.location.offset = (text ++ spelled).length
        else Lacks (text ++ spelled) source outer
  | .missingName found =>
      (Fault.missingName found).Suggests "Add the missing type name" ∧
      ∀ name, IsName name.toList →
        ∀ fault, parse (splice text offset 0 name) source = .error fault →
          fault.code ∈ [.mismatched, .unclosed] ∧ fault.location.offset = offset + name.length ∨
            offset + name.length < fault.location.offset
  | .invalidCharacter _ _ => True
  | .tooDeep _ => True

/-- Every bracket is closed by a mark that has a spelling. -/
theorem Bracket.exists_spelling (bracket : Bracket) :
    ∃ spelled, bracket.closer.text? = some spelled ∧ (bracket.closer, spelled.toList) ∈ marks := by
  cases bracket <;> exact ⟨_, rfl, by simp [Bracket.closer, marks]⟩

/-- The terminator of a bracket is asked for by its spelling. -/
theorem Bracket.spellings_closer {bracket : Bracket} {spelled : String}
    (text : bracket.closer.text? = some spelled) :
    spellings [bracket.closer] = .ok (quoted spelled) := by
  cases bracket <;> cases text <;> rfl

/-- A terminator that is not due is to be exchanged for the one that is. -/
theorem Fault.suggests_exchange {bracket : Bracket} {spelled : String} {found : Token}
    (spelling : bracket.closer.text? = some spelled) (more : found.kind ≠ .endOfInput) :
    (Fault.mismatched [bracket.closer] found).Suggests
      ("Replace " ++ quoted found.lexeme ++ " with " ++ quoted spelled) := by
  simp only [Suggests, wording, Bracket.spellings_closer spelling]
  refine ⟨_, rfl, ?_⟩
  simp [Token.describe, more]

/-- A terminator that is missing is to be added. -/
theorem Fault.suggests_closer {bracket : Bracket} {spelled : String}
    (spelling : bracket.closer.text? = some spelled) (found : Token) :
    (Fault.unclosed [bracket.closer] found).Suggests ("Add the missing " ++ quoted spelled) := by
  simp only [Suggests, wording, Bracket.spellings_closer spelling]
  exact ⟨_, rfl, List.mem_singleton_self _⟩

namespace Scanner

/-- Where no token is handed out, blanks are passed. -/
theorem Yields.exists_blanks {scanner after : Scanner} (yields : scanner.Yields [] after) :
    ∃ blanks, AreBlanks blanks ∧ scanner.rest = blanks ++ after.rest ∧
      after = ⟨scanner.source, scanner.cursor.past blanks, after.rest⟩ := by
  obtain ⟨front, whole, place, covers⟩ := yields.covers
  cases covers with
  | none blank => exact ⟨front, blank, whole, place⟩

/-- The last token on the way to a place has a lexeme in front of that place, and no more than
blanks come behind it. -/
theorem Yields.exists_last {scanner after : Scanner} {tokens : List Token} {token : Token}
    (yields : scanner.Yields (tokens ++ [token]) after) :
    ∃ cursor lexeme rest, scanner.Yields tokens ⟨scanner.source, cursor, lexeme ++ rest⟩ ∧
      token.kind.lexeme? (lexeme ++ rest) = some lexeme ∧ token.kind ≠ .blank ∧
      token.kind ≠ .endOfInput ∧
      token = ⟨token.kind, String.ofList lexeme,
        ⟨scanner.source, cursor.line, cursor.column, cursor.offset⟩⟩ ∧
      Yields ⟨scanner.source, cursor.past lexeme, rest⟩ [] after := by
  generalize whole : tokens ++ [token] = all at yields
  induction yields generalizing tokens with
  | here => simp at whole
  | blank blank _ ih =>
      obtain ⟨cursor, lexeme, rest, before, last⟩ := ih whole
      exact ⟨cursor, lexeme, rest, .blank blank before, last⟩
  | @token source cursor kind lexeme rest behind after found shown more onward ih =>
      cases tokens with
      | nil =>
          obtain ⟨rfl, rfl⟩ := List.cons.inj whole
          exact ⟨cursor, lexeme, rest, .here _, found, shown, more, rfl, onward⟩
      | cons first tokens =>
          obtain ⟨rfl, others⟩ := List.cons.inj whole
          obtain ⟨cursor', lexeme', rest', before, last⟩ := ih others
          exact ⟨cursor', lexeme', rest', .token found shown more before, last⟩

/-- Behind a mark and the blanks that follow it, the unread text may be exchanged for any other. -/
theorem Yields.exchange_behind_mark {source : String} {cursor cursor' : Cursor}
    {front back : List Char} {tokens : List Token} {token : Token}
    (yields : Yields ⟨source, cursor, front ++ back⟩ (tokens ++ [token]) ⟨source, cursor', back⟩)
    (unnamed : token.kind ≠ .name) (back' : List Char) :
    Yields ⟨source, cursor, front ++ back'⟩ (tokens ++ [token]) ⟨source, cursor', back'⟩ := by
  obtain ⟨middle, lexeme, rest, ahead, found, shown, more, same, onward⟩ := yields.exists_last
  have mark := mem_marks_of_lexeme? found unnamed shown more
  obtain ⟨blanks, blank, between, place⟩ := onward.exists_blanks
  obtain rfl : rest = blanks ++ back := between
  obtain rfl : cursor' = (middle.past lexeme).past blanks := congrArg Scanner.cursor place
  obtain ⟨passed, whole, -⟩ := ahead.split
  obtain rfl : front = passed ++ (lexeme ++ blanks) := by
    refine List.append_cancel_right (?_ : front ++ back = _)
    simpa using whole
  have again := (ahead.exchange (keepsNames_mark mark _ (blanks ++ back')) whole).trans
    (.token (lexeme?_of_mem_marks mark _) shown more (.of_blanks blank back'))
  rw [same]
  simpa using again

end Scanner

namespace Draft

/-- The last of the tokens that a draft takes moves a draft on the way. -/
theorem Takes.exists_last {draft after : Draft} {tokens : List Token} {token : Token}
    (takes : draft.Takes (tokens ++ [token]) after) :
    ∃ middle, draft.Takes tokens middle ∧ middle.Moves token after := by
  induction tokens generalizing draft with
  | nil =>
      cases takes with
      | token move behind =>
          cases behind
          exact ⟨draft, .none draft, move⟩
  | cons first tokens ih =>
      cases takes with
      | token move behind =>
          obtain ⟨middle, takes, last⟩ := ih behind
          exact ⟨middle, .token move takes, last⟩

/-- A name leaves a type pending. -/
theorem Moves.kind_ne_name {draft next : Draft} {token : Token} (move : draft.Moves token next)
    (free : next.pending = .empty) : token.kind ≠ .name := by
  intro named
  cases move with
  | name => cases free
  | separate kind => cases named.symm.trans kind
  | enter kind => simp [named, TokenKind.opens?] at kind
  | @leave frame _ _ _ kind =>
      have ends := frame.bracket.isTerminator_closer
      rw [← kind, named] at ends
      cases ends

end Draft

namespace ReadsTo

variable {source : String} {front back : List Char} {draft : Draft}

/-- Where no type is pending, the unread text may be exchanged for any other, because the token
before it is a mark. -/
theorem exchange_of_empty (reads : ReadsTo source front back draft)
    (free : draft.pending = .empty) (back' : List Char) : ReadsTo source front back' draft := by
  obtain ⟨tokens, yields, takes⟩ := reads
  rcases tokens.eq_nil_or_concat with rfl | ⟨before, last, rfl⟩
  · obtain ⟨blanks, blank, whole, -⟩ := yields.exists_blanks
    obtain rfl : front = blanks := List.append_cancel_right whole
    exact ⟨[], .of_blanks blank back', takes⟩
  · rw [List.concat_eq_append] at yields takes
    obtain ⟨middle, -, move⟩ := takes.exists_last
    exact ⟨before ++ [last], yields.exchange_behind_mark (move.kind_ne_name free) back', takes⟩

/-- Reading goes on over a token. -/
theorem append_token {kind : TokenKind} {lexeme : List Char} {next : Draft}
    (reads : ReadsTo source front (lexeme ++ back) draft)
    (found : kind.lexeme? (lexeme ++ back) = some lexeme) (shown : kind ≠ .blank)
    (more : kind ≠ .endOfInput)
    (move : draft.Moves
      ⟨kind, String.ofList lexeme, (Cursor.start.past front).location source⟩ next) :
    ReadsTo source (front ++ lexeme) back next := by
  obtain ⟨tokens, yields, takes⟩ := reads
  have one : Scanner.Yields ⟨source, Cursor.start.past front, lexeme ++ back⟩
      [⟨kind, String.ofList lexeme, (Cursor.start.past front).location source⟩]
      ⟨source, (Cursor.start.past front).past lexeme, back⟩ := .token found shown more (.here _)
  rw [← Cursor.past_append] at one
  exact ⟨_, by simpa using yields.trans one, takes.trans move.takes⟩

/-- Reading gets past every offset in front of which it has come. -/
theorem readsPast {offset : Nat} (reads : ReadsTo source front back draft)
    (passed : offset < front.length) : ReadsPast (String.ofList (front ++ back)) source offset := by
  intro fault failed
  rw [reads.parse_eq] at failed
  obtain ⟨tokens, next, here, yields, -, halts⟩ := Draft.result_eq_iff.1 failed
  have forward := yields.offset_le
  rw [Cursor.offset_past] at forward
  rw [halts.location_eq, Scanner.location]
  simp only [Cursor.start] at forward ⊢
  omega

/-- A comma in front of a token separates it from the pending type, and reading gets past the
token if it can begin a type. -/
theorem readsPast_comma {kind : TokenKind} {lexeme : List Char} {type : TypeExpr} {next : Draft}
    (reads : ReadsTo source front (lexeme ++ back) draft)
    (found : kind.lexeme? (lexeme ++ back) = some lexeme) (shown : kind ≠ .blank)
    (more : kind ≠ .endOfInput) (pending : draft.pending.type? = some type)
    (move : Draft.Moves ⟨draft.frames, type :: draft.finished, .empty⟩
      ⟨kind, String.ofList lexeme, (Cursor.start.past (front ++ [','])).location source⟩ next) :
    ReadsPast (String.ofList (front ++ ([','] ++ (lexeme ++ back)))) source (front.length + 1) := by
  have comma : (TokenKind.separator, [',']) ∈ marks := by decide
  have separated : ReadsTo source (front ++ [',']) (lexeme ++ back)
      ⟨draft.frames, type :: draft.finished, .empty⟩ :=
    (reads.exchange (keepsNames_mark comma _ _)).append_mark comma
      fun _ kind => .separate kind pending
  have behind := separated.append_token found shown more move
  have filled : 0 < lexeme.length :=
    List.length_pos_iff.2 fun empty => more ((TokenKind.lexeme?_eq_some found).2.1 empty)
  have passed : front.length + 1 < (front ++ [','] ++ lexeme).length := by
    simp only [List.length_append, List.length_singleton]
    omega
  simpa using behind.readsPast passed

/-- Where a bracket is open and a type is pending, reading gets past what closes the bracket. -/
theorem append_closer {frame : Frame} {frames : List Frame} {type : TypeExpr} {spelled : String}
    (reads : ReadsTo source front back draft) (stack : draft.frames = frame :: frames)
    (pending : draft.pending.type? = some type)
    (mark : (frame.bracket.closer, spelled.toList) ∈ marks) (rest : List Char) :
    ReadsTo source (front ++ spelled.toList) rest
      (Draft.leave frame frames (type :: draft.finished).reverse) :=
  (reads.exchange (keepsNames_mark mark back rest)).append_mark mark
    fun _ kind => .leave stack kind pending

/-- Where no type is pending, a name may come next. -/
theorem append_name {name : String} (reads : ReadsTo source front back draft)
    (free : draft.pending = .empty) (isName : IsName name.toList)
    (stops : qualifiedWords back = []) :
    ReadsTo source (front ++ name.toList) back { draft with pending := .name name } := by
  have found : TokenKind.name.lexeme? (name.toList ++ back) = some name.toList :=
    isName.name?_append stops
  refine (reads.exchange_of_empty free (name.toList ++ back)).append_token found (by decide)
    (by decide) ?_
  rw [String.ofList_toList]
  exact .name rfl free

end ReadsTo

/-- A separator or a terminator behind a type is rejected only for another terminator that is
due. -/
theorem Draft.Rejects.code_mem_of_type {draft : Draft} {token : Token} {fault : Fault}
    {type : TypeExpr} (rejects : draft.Rejects token fault)
    (kind : token.kind = .separator ∨ token.kind.isTerminator = true)
    (whole : draft.pending.type? = some type) : fault.code ∈ [.mismatched, .unclosed] := by
  cases rejects with
  | mismatched | unclosed => simp [Fault.code]
  | missing _ absent => cases absent.symm.trans whole
  | named names => simp [names, TokenKind.isTerminator] at kind
  | suffixed opens | full opens =>
      rcases kind with separates | ends
      · simp [separates, TokenKind.opens?] at opens
      · cases same : token.kind <;>
          simp [same, TokenKind.opens?, TokenKind.isTerminator] at opens ends

/-- No qualified words begin with a separator or a terminator. -/
theorem qualifiedWords_of_lexeme? {kind : TokenKind} {chars lexeme : List Char}
    (kindOf : kind = .separator ∨ kind.isTerminator = true)
    (found : kind.lexeme? chars = some lexeme) : qualifiedWords chars = [] := by
  by_cases last : kind = .endOfInput
  · subst last
    rw [chars_eq_nil_of_endOfInput found]
    rfl
  · have mark : (kind, lexeme) ∈ marks := by
      refine mem_marks_of_lexeme? found ?_ ?_ last <;> rintro rfl <;>
        simp [TokenKind.isTerminator] at kindOf
    obtain ⟨back, rfl⟩ := (TokenKind.lexeme?_eq_some found).1
    exact qualifiedWords_mark_append mark back

section Repairing

variable {text source : String} {front lexeme rest : List Char} {draft : Draft} {kind : TokenKind}

/-- A splice at the end of what was read, as characters. -/
theorem splice_eq_ofList {back : List Char} (whole : text.toList = front ++ back) (count : Nat)
    (inserted : String) :
    splice text front.length count inserted =
      String.ofList (front ++ (inserted.toList ++ back.drop count)) := by
  simp [splice, whole]

/-- A name in front of a separator or a terminator makes a type before it. So reading gets past
it, or another terminator is due. -/
theorem ReadsTo.parse_name {name : String} {fault : Fault}
    (reads : ReadsTo source front (lexeme ++ rest) draft) (free : draft.pending = .empty)
    (found : kind.lexeme? (lexeme ++ rest) = some lexeme) (shown : kind ≠ .blank)
    (kindOf : kind = .separator ∨ kind.isTerminator = true) (isName : IsName name.toList)
    (failed : parse (String.ofList (front ++ (name.toList ++ (lexeme ++ rest)))) source =
      .error fault) :
    fault.code ∈ [.mismatched, .unclosed] ∧
        fault.location.offset = front.length + name.length ∨
      front.length + name.length < fault.location.offset := by
  have named := reads.append_name free isName (qualifiedWords_of_lexeme? kindOf found)
  have length : (front ++ name.toList).length = front.length + name.length := by
    rw [List.length_append, String.length_toList]
  rw [← List.append_assoc] at failed
  cases progress : Draft.step { draft with pending := .name name } ⟨kind, String.ofList lexeme,
      (Cursor.start.past (front ++ name.toList)).location source⟩ with
  | reading next =>
      have more : kind ≠ .endOfInput := Draft.kind_ne_endOfInput_of_reading progress
      have filled : 0 < lexeme.length :=
        List.length_pos_iff.2 fun empty => more ((TokenKind.lexeme?_eq_some found).2.1 empty)
      have behind := named.append_token found shown more
        ((Draft.step_eq_reading_iff shown).1 progress)
      have passed : front.length + name.length < (front ++ name.toList ++ lexeme).length := by
        rw [List.length_append, length]
        omega
      rw [← List.append_assoc] at failed
      exact .inr (behind.readsPast passed fault failed)
  | complete types =>
      have read := named.parse_eq.trans (congrArg Reading.result
        (Draft.read_of_complete (Scanner.next_lexeme found shown) progress))
      cases failed.symm.trans read
  | rejected fault' =>
      have rejects := Draft.step_eq_rejected_iff.1 progress
      have halts := Draft.Halts.rejected shown found rejects
      cases failed.symm.trans (named.parse_eq_of_halts halts)
      refine .inl ⟨rejects.code_mem_of_type kindOf rfl, ?_⟩
      rw [halts.offset_eq, length]
      rfl

/-- What is missing at the end of a text is due for the brackets that it leaves open. -/
theorem ReadsTo.leavesDue (reads : ReadsTo source front [] draft)
    (whole : text.toList = front) :
    LeavesDue text source (draft.frames.map fun frame => frame.bracket.closer) := by
  obtain ⟨tokens, yields, takes⟩ := reads
  obtain ⟨lookback, passed, mirrors⟩ := Lookback.mirrors_empty.past_of_takes takes
  refine ⟨tokens, Cursor.start.past front, lookback, ?_, passed, ?_⟩
  · rw [List.append_nil] at yields
    rwa [Scanner.start, whole]
  · rw [mirrors.stack, List.map_map]
    rfl

/-- Where a collection is pending at the end of a text, the text lacks what closes the open
brackets. -/
theorem ReadsTo.lacks {frames : List Frame} {finished : List TypeExpr} {type : TypeExpr}
    (reads : ReadsTo source front [] ⟨frames, finished, .type type⟩)
    (whole : text.toList = front) :
    Lacks text source (frames.map fun frame => frame.bracket.closer) := by
  obtain rfl : text = String.ofList (front ++ []) := by
    rw [List.append_nil, ← whole, String.ofList_toList]
  cases frames with
  | nil => exact ⟨_, reads.parse_eq_of_halts (.complete rfl rfl)⟩
  | cons frame frames =>
      have due : TokenKind.endOfInput ≠ frame.bracket.closer :=
        frame.bracket.closer_ne_endOfInput.symm
      have halts : Draft.Halts ⟨frame :: frames, finished, .type type⟩
          ⟨source, Cursor.start.past front, [] ++ []⟩
          (.error (.unclosed [frame.bracket.closer] _)) :=
        .rejected (by decide) rfl (.unclosed rfl due rfl)
      refine ⟨_, reads.parse_eq_of_halts halts, ?_⟩
      simp [Cursor.offset_past, Cursor.start]

/-- Where no type is pending at the end of a text, a type is missing there. -/
theorem ReadsTo.lacks_type (reads : ReadsTo source front [] draft)
    (free : draft.pending = .empty) (whole : text.toList = front) :
    ∃ found, parse text source = .error (.missingName found) ∧ found.kind = .endOfInput ∧
      found.location.offset = text.length := by
  obtain rfl : text = String.ofList (front ++ []) := by
    rw [List.append_nil, ← whole, String.ofList_toList]
  have absent : draft.pending.type? = none := by rw [free]; rfl
  have halts : draft.Halts ⟨source, Cursor.start.past front, [] ++ []⟩
      (.error (.missingName ⟨.endOfInput, _, _⟩)) :=
    .rejected (by decide) rfl (.missing (.inr rfl) absent)
  refine ⟨_, reads.parse_eq_of_halts halts, rfl, ?_⟩
  simp [Cursor.offset_past, Cursor.start]

/-- In a text that keeps within a limit, there is room for a bracket that comes next. -/
theorem ReadsTo.length_frames_lt {limit : Nat} {bracket : Bracket}
    (reads : ReadsTo source front (lexeme ++ rest) draft)
    (nested : Scanner.NestsWithin limit ⟨source, .start, front ++ (lexeme ++ rest)⟩)
    (found : kind.lexeme? (lexeme ++ rest) = some lexeme) (shown : kind ≠ .blank)
    (more : kind ≠ .endOfInput) (opens : kind.opens? = some bracket) :
    draft.frames.length < limit := by
  obtain ⟨tokens, yields, takes⟩ := reads
  have within := nested _ _ (yields.trans (.token found shown more (.here _)))
  have frames := takes.length_frames
  simp only [openBrackets_append, openBrackets_cons, openBrackets_nil,
    TokenKind.nesting_of_opens opens] at within
  simp only [Draft.empty, List.length_nil] at frames
  omega

/-- In place of a terminator that is not due, the one that is due is read; and where the end of
input is due, what is in front of the terminator lists types. -/
theorem ReadsTo.isRepaired_mismatched {type : TypeExpr} {place : Location}
    (reads : ReadsTo source front (lexeme ++ rest) draft)
    (whole : text.toList = front ++ (lexeme ++ rest)) (pending : draft.pending.type? = some type)
    (more : kind ≠ .endOfInput) :
    Fault.IsRepaired text source front.length
      (.mismatched [draft.closer] ⟨kind, String.ofList lexeme, place⟩) := by
  cases stack : draft.frames with
  | nil =>
      have cut := reads.exchange (keepsNames_of_isPrefix List.nil_prefix)
      have read := cut.parse_eq_of_halts (.complete stack pending)
      rw [List.append_nil] at read
      refine .inl ⟨by rw [Draft.closer, stack], ?_⟩
      rw [whole, List.take_left]
      exact ⟨_, read⟩
  | cons frame frames =>
      have closer : draft.closer = frame.bracket.closer := by rw [Draft.closer, stack]
      obtain ⟨spelled, spelling, mark⟩ := frame.bracket.exists_spelling
      rw [closer]
      refine .inr ⟨_, spelled, rfl, frame.bracket.closer_ne_endOfInput, spelling, ?_, ?_⟩
      · exact Fault.suggests_exchange spelling more
      · obtain ⟨char, chars, begins, -⟩ := exists_cons_of_mem_marks mark
        have behind := reads.append_closer stack pending mark rest
        have passed : front.length < (front ++ spelled.toList).length := by simp [begins]
        rw [splice_eq_ofList whole, String.length_ofList, List.drop_left, ← List.append_assoc]
        exact behind.readsPast passed

/-- Behind the terminator that was missing, the next one is missing, or a type behind an arrow. -/
theorem ReadsTo.isRepaired_unclosed {type : TypeExpr} {found : Token}
    (reads : ReadsTo source front [] draft) (whole : text.toList = front)
    (pending : draft.pending.type? = some type) (due : draft.closer ≠ .endOfInput) :
    Fault.IsRepaired text source front.length (.unclosed [draft.closer] found) := by
  cases stack : draft.frames with
  | nil => exact absurd (by rw [Draft.closer, stack]) due
  | cons frame frames =>
      have closer : draft.closer = frame.bracket.closer := by rw [Draft.closer, stack]
      obtain ⟨spelled, spelling, mark⟩ := frame.bracket.exists_spelling
      have behind := reads.append_closer stack pending mark []
      have text' : (text ++ spelled).toList = front ++ spelled.toList := by
        rw [String.toList_append, whole]
      rw [closer]
      refine ⟨_, frames.map fun frame => frame.bracket.closer, spelled, rfl, ?_, spelling, ?_, ?_⟩
      · simpa [stack] using reads.leavesDue whole
      · exact Fault.suggests_closer spelling found
      · cases bracket : frame.bracket <;> simp only [Draft.leave, bracket] at behind
        case hashKeys => exact behind.lacks_type rfl text'
        all_goals exact behind.lacks text'

end Repairing

/-- What a fault suggests repairs the text at the place of the fault, if the text keeps within
the nesting limit. With a comma before it, a name or a bracket that followed a type is read. A
terminator that is exchanged for the one that is due is read as well, and where the end of
input is due, the text in front of the terminator lists types. The terminator that is missing
at the end closes the innermost bracket, and then the next one is missing; behind an arrow it is
a type. And where a type is missing, any name supplies it, so that at most another terminator
is due behind it. -/
theorem suggestion_repairs_text (text source : String) (fault : Fault)
    (failed : parse text source = .error fault)
    (nested : (Scanner.start text source).NestsWithin Draft.nestingLimit) :
    ∃ offset : Nat, fault.location.offset = offset ∧ fault.IsRepaired text source offset := by
  obtain ⟨front, back, draft, whole, reads, halts⟩ := exists_readsTo failed
  refine ⟨front.length, halts.offset_eq, ?_⟩
  rw [Scanner.start, whole] at nested
  cases halts with
  | stuck => trivial
  | @rejected _ _ kind lexeme rest _ shown found rejects =>
      cases rejects with
      | full => trivial
      | named names pending =>
          have more : kind ≠ .endOfInput := by
            rintro rfl
            cases names
          refine ⟨⟨_, rfl, List.mem_singleton_self _⟩, ?_⟩
          rw [splice_eq_ofList whole]
          exact reads.readsPast_comma found shown more pending (.name names rfl)
      | @suffixed bracket type opens pending =>
          have more : kind ≠ .endOfInput := by
            rintro rfl
            cases opens
          have room := reads.length_frames_lt nested found shown more opens
          refine ⟨⟨_, rfl, List.mem_singleton_self _⟩, ?_⟩
          rw [splice_eq_ofList whole]
          have whole' : draft.pending.type? = some type := by rw [pending]; rfl
          exact reads.readsPast_comma found shown more whole' (.enter opens rfl room)
      | mismatched ends pending due more => exact reads.isRepaired_mismatched whole pending more
      | unclosed pending due last =>
          obtain rfl : kind = .endOfInput := last
          obtain ⟨rfl, rfl⟩ := List.append_eq_nil_iff.1 (chars_eq_nil_of_endOfInput found)
          exact reads.isRepaired_unclosed (by simpa using whole) pending due.symm
      | missing kindOf absent =>
          have free : draft.pending = .empty := by
            cases pending : draft.pending <;> simp [pending, Pending.type?] at absent ⊢
          refine ⟨⟨_, rfl, by simp⟩, fun name isName fault' failed' => ?_⟩
          rw [splice_eq_ofList whole] at failed'
          exact reads.parse_name free found shown kindOf isName failed'

/-- The keys of a hash leave a list open when a parenthesis comes. With what closes the list in
its place, reading gets past it. -/
theorem wrong_terminator_in_hash_repaired :
    parse "\x7bA<B) => C" unnamedSource =
        .error (.mismatched [.closeCollection] ⟨.closeFixed, ")", ⟨unnamedSource, 1, 5, 4⟩⟩) ∧
      ReadsPast "\x7bA<B> => C" unnamedSource 4 := by
  have failed : parse "\x7bA<B) => C" unnamedSource =
      .error (.mismatched [.closeCollection] ⟨.closeFixed, ")", ⟨unnamedSource, 1, 5, 4⟩⟩) := by
    decide +kernel
  obtain ⟨offset, place, repaired⟩ := suggestion_repairs_text "\x7bA<B) => C" unnamedSource _ failed
    (Scanner.nestsWithin_of_length_le (by decide))
  obtain rfl : 4 = offset := Int.ofNat.inj place
  obtain ⟨last, -⟩ | ⟨due, spelled, kinds, -, spelling, -, past⟩ := repaired
  · cases last
  · cases kinds
    cases spelling
    exact ⟨failed, past⟩

end TypeProse
