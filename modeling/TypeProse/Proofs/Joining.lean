import Mathlib.Data.List.Forall2
import TypeProse.Description
import TypeProse.Proofs.Continuation
import TypeProse.Proofs.Writing

/-!
# Joining texts

Two texts with a separator between them are read like each of them alone, one after the
other, and so is a text in brackets. What a scanner hands out does not depend on where in
a text it stands, apart from the places of the tokens (`Scanner.Yields.relocate`). What a
draft does with tokens depends neither on their places nor on the types that were
finished before in the outermost list (`Draft.Takes.behind`). And a separator or a bracket
belongs to no token of the text before it.
-/

namespace TypeProse

open Text TypeExpr

/-- Tokens of the same kind with the same characters, wherever they stand. -/
structure Token.Alike (token token' : Token) : Prop where
  kind : token'.kind = token.kind
  lexeme : token'.lexeme = token.lexeme

namespace Scanner

/-- From any other place the same text is cut into like tokens. -/
theorem Yields.relocate {scanner after : Scanner} {tokens : List Token}
    (yields : scanner.Yields tokens after) (source : String) (cursor : Cursor) :
    ∃ tokens' cursor', Yields ⟨source, cursor, scanner.rest⟩ tokens' ⟨source, cursor', after.rest⟩ ∧
      List.Forall₂ Token.Alike tokens tokens' := by
  induction yields generalizing cursor with
  | here => exact ⟨[], cursor, .here _, .nil⟩
  | @blank _ _ char _ _ _ blank _ ih =>
      obtain ⟨tokens', cursor', yields, alike⟩ := ih (cursor.step char)
      exact ⟨tokens', cursor', .blank blank yields, alike⟩
  | @token _ _ _ lexeme _ _ _ found shown more _ ih =>
      obtain ⟨tokens', cursor', yields, alike⟩ := ih (cursor.past lexeme)
      exact ⟨_, cursor', .token found shown more yields, .cons ⟨rfl, rfl⟩ alike⟩

end Scanner

/-- Open brackets and finished types, with types finished before them in the outermost
list. -/
def listsBehind (before : List TypeExpr) :
    List Frame → List TypeExpr → List Frame × List TypeExpr
  | [], finished => ([], finished ++ before)
  | frame :: frames, finished =>
      let outer := listsBehind before frames frame.before
      (⟨frame.name, frame.bracket, outer.2⟩ :: outer.1, finished)

namespace Draft

/-- A draft that had finished types before it began, latest first. -/
def behind (before : List TypeExpr) (draft : Draft) : Draft :=
  ⟨(listsBehind before draft.frames draft.finished).1,
    (listsBehind before draft.frames draft.finished).2, draft.pending⟩

@[simp] theorem pending_behind (before : List TypeExpr) (draft : Draft) :
    (draft.behind before).pending = draft.pending :=
  rfl

/-- Behind no types a draft is as it is. -/
@[simp] theorem behind_nil (draft : Draft) : draft.behind [] = draft := by
  have lists : ∀ frames finished, listsBehind [] frames finished = (frames, finished) := by
    intro frames
    induction frames with
    | nil => simp [listsBehind]
    | cons frame frames ih => simp [listsBehind, ih]
  simp [behind, lists]

/-- The types before leave the number of open brackets as it is. -/
@[simp] theorem length_frames_behind (before : List TypeExpr) (draft : Draft) :
    (draft.behind before).frames.length = draft.frames.length := by
  obtain ⟨frames, finished, pending⟩ := draft
  induction frames generalizing finished with
  | nil => rfl
  | cons frame frames ih => simpa [behind, listsBehind] using ih frame.before

/-- The types before do not change the terminator that is due. -/
@[simp] theorem closer_behind (before : List TypeExpr) (draft : Draft) :
    (draft.behind before).closer = draft.closer := by
  obtain ⟨frames, finished, pending⟩ := draft
  cases frames <;> rfl

/-- A type that is finished comes behind the types before. -/
theorem behind_finish (before : List TypeExpr) (draft : Draft) (type : TypeExpr) :
    behind before ⟨draft.frames, type :: draft.finished, .empty⟩ =
      ⟨(draft.behind before).frames, type :: (draft.behind before).finished, .empty⟩ := by
  obtain ⟨frames, finished, pending⟩ := draft
  cases frames <;> rfl

/-- The list inside a bracket does not change with the types before, only what is around it. -/
theorem behind_leave (before : List TypeExpr) (frame : Frame) (frames : List Frame)
    (types : List TypeExpr) :
    behind before (leave frame frames types) =
      leave ⟨frame.name, frame.bracket, (listsBehind before frames frame.before).2⟩
        (listsBehind before frames frame.before).1 types := by
  obtain ⟨name, bracket, finished⟩ := frame
  cases bracket <;> rfl

/-- A like token moves a draft in the same way, whatever types were finished before it. -/
theorem Moves.behind {draft next : Draft} {token token' : Token} (move : draft.Moves token next)
    (alike : token.Alike token') (before : List TypeExpr) :
    (draft.behind before).Moves token' (next.behind before) := by
  cases move with
  | name kind free =>
      rw [← alike.lexeme]
      exact .name (alike.kind.trans kind) free
  | separate kind pending =>
      rw [behind_finish]
      exact .separate (alike.kind.trans kind) pending
  | enter kind head room =>
      have limit : (draft.behind before).frames.length < nestingLimit := by simpa using room
      exact .enter (by rw [alike.kind, kind]) head limit
  | @leave frame frames type stack kind pending =>
      obtain ⟨_, finished, _⟩ := draft
      obtain rfl : _ = frame :: frames := stack
      rw [behind_leave]
      exact .leave rfl (alike.kind.trans kind) pending

/-- Like tokens are taken in the same way, whatever types were finished before them. -/
theorem Takes.behind {draft next : Draft} {tokens tokens' : List Token}
    (takes : draft.Takes tokens next) (alike : List.Forall₂ Token.Alike tokens tokens')
    (before : List TypeExpr) : (draft.behind before).Takes tokens' (next.behind before) := by
  induction takes generalizing tokens' with
  | none =>
      cases alike
      exact .none _
  | token move _ ih =>
      cases alike with
      | cons first others => exact .token (move.behind first before) (ih others)

/-- Where reading ends with types, it ends with the types before and these. -/
theorem Halts.behind_ok {draft : Draft} {scanner : Scanner} {types : List TypeExpr}
    (halts : draft.Halts scanner (.ok types)) (before : List TypeExpr) (source : String)
    (cursor : Cursor) :
    (draft.behind before).Halts ⟨source, cursor, scanner.rest⟩ (.ok (before.reverse ++ types)) := by
  obtain ⟨frames, finished, pending⟩ := draft
  cases halts with
  | @complete _ _ type closed whole =>
      obtain rfl : frames = [] := closed
      have ends : (behind before ⟨[], finished, pending⟩).Halts ⟨source, cursor, []⟩
          (.ok (type :: (finished ++ before)).reverse) := .complete rfl whole
      simpa using ends

/-- Where reading ends with a fault, it ends with a fault of the same sort, whatever types
were finished before. -/
theorem Halts.behind_error {draft : Draft} {scanner : Scanner} {fault : Fault}
    (halts : draft.Halts scanner (.error fault)) (before : List TypeExpr) (source : String)
    (cursor : Cursor) :
    ∃ fault', (draft.behind before).Halts ⟨source, cursor, scanner.rest⟩ (.error fault') ∧
      fault'.code = fault.code := by
  cases halts with
  | stuck stuck =>
      have ends : (draft.behind before).Halts ⟨source, cursor, scanner.rest⟩ _ := .stuck stuck
      exact ⟨_, ends, rfl⟩
  | @rejected _ _ kind lexeme _ _ shown found rejects =>
      obtain ⟨fault', rejects', code⟩ := rejects.transfer (pending_behind before draft)
        (closer_behind before draft) (length_frames_behind before draft)
        ⟨kind, String.ofList lexeme, ⟨source, cursor.line, cursor.column, cursor.offset⟩⟩ rfl
      exact ⟨fault', .rejected shown found rejects', code⟩

end Draft

namespace ReadsTo

variable {source : String} {front back : List Char} {draft : Draft}

/-- Reading goes on over a mark. -/
theorem append_mark {next : Draft} {kind : TokenKind} {lexeme : List Char}
    (reads : ReadsTo source front (lexeme ++ back) draft) (mark : (kind, lexeme) ∈ marks)
    (moves : ∀ token : Token, token.kind = kind → draft.Moves token next) :
    ReadsTo source (front ++ lexeme) back next := by
  obtain ⟨tokens, yields, takes⟩ := reads
  obtain ⟨token, same, one⟩ := Scanner.Yields.of_mark source (Cursor.start.past front) mark back
  rw [← Cursor.past_append] at one
  exact ⟨tokens ++ [token], by simpa using yields.trans one,
    takes.trans (moves token same).takes⟩

/-- Reading goes on over what can be read alone, where no bracket is open and no type is
pending. -/
theorem append {front' : List Char} {draft' : Draft} {before : List TypeExpr}
    (reads : ReadsTo source front (front' ++ back) ⟨[], before, .empty⟩)
    (reads' : ReadsTo source front' back draft') :
    ReadsTo source (front ++ front') back (draft'.behind before) := by
  obtain ⟨tokens, yields, takes⟩ := reads
  obtain ⟨tokens', yields', takes'⟩ := reads'
  obtain ⟨moved, cursor, again, alike⟩ := yields'.relocate source (Cursor.start.past front)
  obtain ⟨passed, whole, place⟩ := again.split
  obtain rfl : front' = passed := List.append_cancel_right whole
  rw [place, ← Cursor.past_append] at again
  exact ⟨tokens ++ moved, by simpa using yields.trans again,
    takes.trans (takes'.behind alike before)⟩

end ReadsTo

/-- Where reading comes to a draft and ends there, the text is read with that result. -/
theorem ReadsTo.parse_eq_of_halts {source : String} {front back : List Char} {draft : Draft}
    {result : Except Fault (List TypeExpr)} (reads : ReadsTo source front back draft)
    (halts : draft.Halts ⟨source, Cursor.start.past front, back⟩ result) :
    parse (String.ofList (front ++ back)) source = result :=
  reads.parse_eq.trans halts.result_eq

/-- A fault stands behind what was read. -/
theorem Draft.Halts.offset_eq {source : String} {front back : List Char} {draft : Draft}
    {fault : Fault}
    (halts : draft.Halts ⟨source, Cursor.start.past front, back⟩ (.error fault)) :
    fault.location.offset = front.length := by
  rw [halts.location_eq]
  simp [Scanner.location, Cursor.offset_past, Cursor.start]

/-- Either separator is a mark. -/
theorem separator_mem_marks {separator : Char} (separates : separator = ',' ∨ separator = ';') :
    (TokenKind.separator, [separator]) ∈ marks := by
  rcases separates with rfl | rfl <;> decide

/-- Two texts with a character between them, as characters. -/
theorem join_eq_ofList (first second : String) (between : Char) :
    first ++ String.singleton between ++ second =
      String.ofList (first.toList ++ [between] ++ second.toList) := by
  rw [← String.toList_inj]
  simp

section Seam

variable {first second source : String} {separator : Char}

/-- Behind a text that lists types and a separator, these types are finished. -/
theorem readsTo_of_parse_eq_ok {types : List TypeExpr} (read : parse first source = .ok types)
    (separates : separator = ',' ∨ separator = ';') (back : List Char) :
    ReadsTo source (first.toList ++ [separator]) back ⟨[], types.reverse, .empty⟩ := by
  have mark := separator_mem_marks separates
  obtain ⟨front, rest, draft, whole, reads, halts⟩ := exists_readsTo read
  cases halts with
  | complete closed pending =>
      rw [List.append_nil] at whole
      rw [whole, List.reverse_reverse, ← closed]
      have reads' : ReadsTo source front ([separator] ++ back) _ :=
        reads.exchange (keepsNames_append_mark mark [] back)
      exact reads'.append_mark mark fun token kind => .separate kind pending

/-- Reading the second text goes on from the types of the first. -/
theorem ReadsTo.behind_first {front back : List Char} {draft : Draft} {types : List TypeExpr}
    (reads : ReadsTo source front back draft) (whole : second.toList = front ++ back)
    (read : parse first source = .ok types) (separates : separator = ',' ∨ separator = ';') :
    ReadsTo source (first.toList ++ [separator] ++ front) back (draft.behind types.reverse) ∧
      first ++ String.singleton separator ++ second =
        String.ofList (first.toList ++ [separator] ++ front ++ back) := by
  refine ⟨(readsTo_of_parse_eq_ok read separates _).append reads, ?_⟩
  rw [join_eq_ofList, whole, List.append_assoc _ front back]

/-- Two texts that list types list the types of both when they are joined. -/
theorem parse_join_eq_ok {types types' : List TypeExpr} (read : parse first source = .ok types)
    (read' : parse second source = .ok types') (separates : separator = ',' ∨ separator = ';') :
    parse (first ++ String.singleton separator ++ second) source = .ok (types ++ types') := by
  obtain ⟨front, back, draft, whole, reads, halts⟩ := exists_readsTo read'
  obtain ⟨joined, text⟩ := reads.behind_first whole read separates
  have ends := halts.behind_ok types.reverse source
    (Cursor.start.past (first.toList ++ [separator] ++ front))
  rw [List.reverse_reverse] at ends
  rw [text, joined.parse_eq_of_halts ends]

/-- A fault in the second text remains when the first one lists types. It stands where it
stood, counted from the end of the separator. -/
theorem parse_join_eq_error {types : List TypeExpr} {fault : Fault}
    (read : parse first source = .ok types) (failed : parse second source = .error fault)
    (separates : separator = ',' ∨ separator = ';') :
    ∃ fault', parse (first ++ String.singleton separator ++ second) source = .error fault' ∧
      fault'.code = fault.code ∧
      fault'.location.offset = first.length + 1 + fault.location.offset := by
  obtain ⟨front, back, draft, whole, reads, halts⟩ := exists_readsTo failed
  obtain ⟨joined, text⟩ := reads.behind_first whole read separates
  obtain ⟨fault', ends, code⟩ := halts.behind_error types.reverse source
    (Cursor.start.past (first.toList ++ [separator] ++ front))
  refine ⟨fault', by rw [text, joined.parse_eq_of_halts ends], code, ?_⟩
  rw [ends.offset_eq, halts.offset_eq]
  simp only [List.length_append, String.length_toList, List.length_singleton]
  omega

/-- Where no token starts, none starts when a separator comes behind the text. -/
theorem lexemeAt?_append_separator {chars : List Char} (stuck : lexemeAt? chars = none)
    (separates : separator = ',' ∨ separator = ';') (back : List Char) :
    lexemeAt? (chars ++ ([separator] ++ back)) = none := by
  rcases separates with rfl | rfl <;>
    exact lexemeAt?_append_cons stuck (by decide) (by decide) (by decide) back

/-- Where reading ends with a fault before the end of the text, it ends there with a fault of the
same sort when the text goes on, if still no token starts where none did. -/
theorem Draft.Halts.append {draft : Draft} {cursor : Cursor} {back : List Char} {fault : Fault}
    (halts : draft.Halts ⟨source, cursor, back⟩ (.error fault)) (filled : back ≠ [])
    {more : List Char} (stays : lexemeAt? back = none → lexemeAt? (back ++ more) = none) :
    ∃ fault', draft.Halts ⟨source, cursor, back ++ more⟩ (.error fault') ∧
      fault'.code = fault.code := by
  cases halts with
  | stuck stuck =>
      have ends : draft.Halts ⟨source, cursor, back ++ more⟩ _ := .stuck (stays stuck)
      exact ⟨_, ends, rfl⟩
  | @rejected _ _ kind lexeme rest _ shown found rejects =>
      have last : kind ≠ .endOfInput := by
        rintro rfl
        exact filled (chars_eq_nil_of_endOfInput found)
      obtain ⟨lexeme', found'⟩ := lexeme?_append shown last found more
      obtain ⟨rest', whole⟩ := (TokenKind.lexeme?_eq_some found').1
      rw [← whole] at found' ⊢
      obtain ⟨fault', rejects', code, -⟩ :=
        rejects.exchange ⟨kind, String.ofList lexeme', _⟩ rfl rfl
      exact ⟨fault', .rejected shown found' rejects', code⟩

/-- Where reading ends with a fault, it ends there with a fault of the same sort when a
separator comes behind the text, unless only a closing bracket was missing. -/
theorem Draft.Halts.append_separator {draft : Draft} {cursor : Cursor} {back : List Char}
    {fault : Fault} (halts : draft.Halts ⟨source, cursor, back⟩ (.error fault))
    (closed : fault.code ≠ .unclosed) (separates : separator = ',' ∨ separator = ';')
    (more : List Char) :
    ∃ fault', draft.Halts ⟨source, cursor, back ++ ([separator] ++ more)⟩ (.error fault') ∧
      fault'.code = fault.code := by
  by_cases filled : back = []
  · -- The end of input was rejected because a type is missing, and so is the separator.
    have pending : draft.pending.type? = none ∧ fault.code = .missingName := by
      cases halts with
      | stuck stuck =>
          rw [filled] at stuck
          cases stuck
      | @rejected _ _ kind lexeme rest _ _ found rejects =>
          obtain rfl : kind = .endOfInput :=
            (TokenKind.lexeme?_eq_some found).2.1 (List.append_eq_nil_iff.1 filled).1
          cases rejects with
          | missing _ pending => exact ⟨pending, rfl⟩
          | unclosed => exact absurd rfl closed
          | named kind | suffixed kind | full kind => cases kind
          | mismatched _ _ _ more => exact absurd rfl more
    rw [filled, List.nil_append]
    exact ⟨_, .rejected (by decide) (lexeme?_of_mem_marks (separator_mem_marks separates) more)
      (.missing (.inl rfl) pending.1), pending.2.symm⟩
  · exact halts.append filled fun stuck => lexemeAt?_append_separator stuck separates more

/-- A fault in the first text remains when another text is joined to it, unless only a closing
bracket was missing. -/
theorem parse_join_of_eq_error {fault : Fault} (failed : parse first source = .error fault)
    (closed : fault.code ≠ .unclosed) (separates : separator = ',' ∨ separator = ';') :
    ∃ fault', parse (first ++ String.singleton separator ++ second) source = .error fault' ∧
      fault'.code = fault.code ∧ fault'.location = fault.location := by
  obtain ⟨front, back, draft, whole, reads, halts⟩ := exists_readsTo failed
  obtain ⟨fault', ends, code⟩ := halts.append_separator closed separates second.toList
  have reads' := reads.exchange
    (keepsNames_append_mark (separator_mem_marks separates) back second.toList)
  refine ⟨fault', ?_, code, by rw [ends.location_eq, halts.location_eq]; rfl⟩
  rw [join_eq_ofList, whole, List.append_assoc, List.append_assoc, reads'.parse_eq_of_halts ends]

end Seam

open Scanner

/-- A text that lists types is cut into tokens that derive them, wherever it stands, if a mark
comes behind it. -/
theorem comes_of_parse_eq_ok {text source : String} {types : List TypeExpr} {kind : TokenKind}
    {lexeme : List Char} (read : parse text source = .ok types) (mark : (kind, lexeme) ∈ marks)
    (cursor : Cursor) (back : List Char) :
    Comes ⟨source, cursor, text.toList ++ (lexeme ++ back)⟩ (lexeme ++ back)
      (IsTypeList · types) := by
  obtain ⟨tokens, _, yields, list, fits⟩ := parse_eq_ok_iff.1 read
  have onward := yields.exchange (keepsNames_append_mark mark [] back) (List.append_nil _).symm
  obtain ⟨tokens', cursor', yields', alike⟩ := onward.relocate source cursor
  refine ⟨tokens', cursor', yields', ?_⟩
  -- The derivation moves with its tokens, because the draft takes like tokens alike.
  obtain ⟨next, type, takes, closed, whole, listed⟩ := Draft.empty_takes_of_isTypeList list fits
  have takes' := takes.behind alike []
  rw [Draft.behind_nil, Draft.behind_nil] at takes'
  exact listed ▸ Draft.isTypeList_of_empty_takes takes' closed whole

/-- The name of a collection before whose bracket this text is written. -/
def Bracket.nameOf (bracket : Bracket) (written : String) : String :=
  if written = "" then bracket.defaultName else written

/-- A name or nothing may be written before a bracket. -/
theorem writesHead_nameOf (bracket : Bracket) {written : String}
    (named : written = "" ∨ IsName written.toList) :
    WritesHead bracket (bracket.nameOf written) written.toList ∧
      IsName (bracket.nameOf written).toList := by
  unfold Bracket.nameOf
  have none : AreBlanks [] := by decide
  split
  · rename_i empty
    subst empty
    exact ⟨.omitted none, bracket.isName_defaultName⟩
  · rename_i some
    have isName := named.resolve_left some
    exact ⟨by simpa using WritesHead.written none none, isName⟩

/-- A text that is a suffix, with a name or nothing before it, lists one collection. -/
theorem parse_suffixed {source written : String} {chars : List Char} (suffix : Suffix)
    (named : written = "" ∨ IsName written.toList) (stops : qualifiedWords chars = [])
    (suffixed : ∀ cursor, Comes ⟨source, cursor, chars⟩ [] (IsSuffix · suffix))
    (fits : (suffix.named (suffix.bracket.nameOf written)).depth ≤ Draft.nestingLimit) :
    parse (String.ofList (written.toList ++ chars)) source =
      .ok [suffix.named (suffix.bracket.nameOf written)] := by
  obtain ⟨heads, isName⟩ := writesHead_nameOf suffix.bracket named
  have none : AreBlanks [] := by decide
  obtain ⟨tokens, cursor, yields, spec⟩ :=
    WritesHead.yields_suffix suffix source .start heads isName stops none suffixed
  rw [parse_eq_ok_iff, Scanner.start, String.toList_ofList]
  exact ⟨tokens, cursor, yields, .last spec, by simpa [depthAll] using fits⟩

section Brackets

variable {source written first second : String} {types types' : List TypeExpr}

/-- A text that lists types lists one collection of them between brackets. -/
theorem parse_enclosed {opening closing : String} {kind kind' : TokenKind} (suffix : Suffix)
    (opens : (kind, opening.toList) ∈ marks) (closes : (kind', closing.toList) ∈ marks)
    (derives : ∀ {opener closer : Token} {list : List Token}, opener.kind = kind →
      IsTypeList list types → closer.kind = kind' → IsSuffix (opener :: (list ++ [closer])) suffix)
    (named : written = "" ∨ IsName written.toList) (read : parse first source = .ok types)
    (fits : (suffix.named (suffix.bracket.nameOf written)).depth ≤ Draft.nestingLimit) :
    parse (written ++ opening ++ first ++ closing) source =
      .ok [suffix.named (suffix.bracket.nameOf written)] := by
  have suffixed : ∀ cursor, Comes ⟨source, cursor,
      opening.toList ++ (first.toList ++ (closing.toList ++ []))⟩ [] (IsSuffix · suffix) := by
    intro cursor
    obtain ⟨_, cursor', yields, opener, list, closer, rfl, opened, isList, closed⟩ :=
      Comes.enclosed cursor opens closes fun cursor => comes_of_parse_eq_ok read closes cursor []
    exact ⟨_, cursor', yields, derives opened isList closed⟩
  have text : written ++ opening ++ first ++ closing = String.ofList
      (written.toList ++ (opening.toList ++ (first.toList ++ (closing.toList ++ [])))) := by
    rw [← String.toList_inj]
    simp
  rw [text]
  exact parse_suffixed suffix named (qualifiedWords_mark_append opens _) suffixed fits

/-- Two texts that list types list one hash between curly brackets, the keys before the arrow
and the values behind it. -/
theorem parse_hashCollection (named : written = "" ∨ IsName written.toList)
    (read : parse first source = .ok types) (read' : parse second source = .ok types')
    (fits : max (depthAll types) (depthAll types') < Draft.nestingLimit) :
    parse (written ++ "\x7b" ++ first ++ "=>" ++ second ++ "\x7d") source =
      .ok [.hashCollection (Bracket.hashKeys.nameOf written) types types'] := by
  have opening : (TokenKind.openHash, ['\x7b']) ∈ marks := by decide
  have pointing : (TokenKind.arrow, ['=', '>']) ∈ marks := by decide
  have closing : (TokenKind.closeHash, ['\x7d']) ∈ marks := by decide
  have suffixed : ∀ cursor, Comes ⟨source, cursor, ['\x7b'] ++ (first.toList ++ (['=', '>'] ++
      (second.toList ++ (['\x7d'] ++ []))))⟩ [] (IsSuffix · (.hash types types')) := by
    intro cursor
    obtain ⟨opener, opens, opened⟩ := Yields.of_mark source cursor opening
      (first.toList ++ (['=', '>'] ++ (second.toList ++ (['\x7d'] ++ []))))
    obtain ⟨keyTokens, arrow, cursor', isKeys, points, pointed⟩ :=
      Comes.closed pointing (comes_of_parse_eq_ok read pointing (cursor.past ['\x7b']) _)
    obtain ⟨valueTokens, closer, cursor'', isValues, closes, closed⟩ :=
      Comes.closed closing (comes_of_parse_eq_ok read' closing cursor' [])
    have yields := opened.trans (pointed.trans closed)
    exact ⟨_, cursor'', by simpa using yields, .hash opens isKeys points isValues closes⟩
  have text : written ++ "\x7b" ++ first ++ "=>" ++ second ++ "\x7d" =
      String.ofList (written.toList ++ (['\x7b'] ++ (first.toList ++ (['=', '>'] ++
        (second.toList ++ (['\x7d'] ++ [])))))) := by
    rw [← String.toList_inj]
    simp
  rw [text]
  exact parse_suffixed (.hash types types') named (qualifiedWords_mark_append opening _) suffixed
    fits

end Brackets

/-- A text is described exactly when it lists types, by what is said of them. -/
theorem describe_eq_ok_iff {text separator said : String} {number : Prose.Number} :
    describe text separator number = .ok said ↔
      ∃ types, parse text unnamedSource = .ok types ∧
        Prose.describeAll types separator number = said := by
  unfold describe
  cases parse text unnamedSource <;> simp [Except.map]

/-- What is said of two lists of types together is what is said of each, with the separator
between. -/
theorem Prose.describeAll_append {types types' : List TypeExpr} (filled : types ≠ [])
    (filled' : types' ≠ []) (separator : String) (number : Number) :
    describeAll (types ++ types') separator number =
      describeAll types separator number ++ separator ++ describeAll types' separator number := by
  simp only [describeAll, phrases_eq_map, List.map_append]
  exact String.intercalate_append_of_ne_nil (by simpa using filled) (by simpa using filled')

end TypeProse
