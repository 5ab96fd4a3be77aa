import Mathlib.Control.Monad.Basic
import TypeProse.Proofs.Drafting

/-!
# How a refused text can go on

A fault that is noticed at the end of a text says that something is missing, and some
text supplies it: a name where none is pending, and then what closes each open bracket.
A token that is rejected before the end is rejected whatever follows. Either way the
text in front of the fault is the beginning of a list of types, so no fault could have
been noticed earlier.
-/

namespace TypeProse

open Text

namespace Fault

/-- The text ended too early. -/
def IsAtEnd : Fault → Prop
  | .unclosed _ _ => True
  | .missingName found => found.kind = .endOfInput
  | _ => False

/-- A token cannot stand where it does. -/
def IsAtToken : Fault → Prop
  | .duplicateName _ _ => True
  | .mismatched _ _ => True
  | .duplicateSuffix _ _ => True
  | .missingName found => found.kind ≠ .endOfInput
  | _ => False

end Fault

/-- Some mark closes each bracket. -/
theorem Bracket.exists_mark (bracket : Bracket) : ∃ lexeme, (bracket.closer, lexeme) ∈ marks := by
  cases bracket <;> simp [Bracket.closer, marks]

namespace Draft

/-- A fault stands where the token that is rejected stands. -/
theorem Rejects.location_eq {draft : Draft} {token : Token} {fault : Fault}
    (rejects : draft.Rejects token fault) : fault.location = token.location := by
  cases rejects <;> rfl

/-- The end of input is rejected with a fault at the end. -/
theorem Rejects.isAtEnd {draft : Draft} {token : Token} {fault : Fault}
    (rejects : draft.Rejects token fault) (last : token.kind = .endOfInput) : fault.IsAtEnd := by
  cases rejects with
  | missing => exact last
  | unclosed => trivial
  | named kind => cases last.symm.trans kind
  | suffixed kind => simp [last, TokenKind.opens?] at kind
  | full kind => simp [last, TokenKind.opens?] at kind
  | mismatched _ _ _ more => exact more last

/-- No other token is rejected with a fault at the end. -/
theorem Rejects.kind_eq_of_isAtEnd {draft : Draft} {token : Token} {fault : Fault}
    (rejects : draft.Rejects token fault) (ends : fault.IsAtEnd) : token.kind = .endOfInput := by
  cases rejects with
  | missing => exact ends
  | unclosed _ _ last => exact last
  | named | suffixed | full | mismatched => cases ends

/-- The end of input is not rejected with a fault at a token. -/
theorem Rejects.kind_ne_of_isAtToken {draft : Draft} {token : Token} {fault : Fault}
    (rejects : draft.Rejects token fault) (stands : fault.IsAtToken) :
    token.kind ≠ .endOfInput := by
  cases rejects with
  | missing => exact stands
  | mismatched _ _ _ more => exact more
  | named kind => simp [kind]
  | suffixed kind =>
      intro last
      simp [last, TokenKind.opens?] at kind
  | full | unclosed => cases stands

/-- Whether and why a token is rejected depends on its kind, and of the draft on the pending
type, the terminator that is due and the number of open brackets. -/
theorem Rejects.transfer {draft draft' : Draft} {token : Token} {fault : Fault}
    (rejects : draft.Rejects token fault) (pending : draft'.pending = draft.pending)
    (closer : draft'.closer = draft.closer)
    (length : draft'.frames.length = draft.frames.length) (token' : Token)
    (kind : token'.kind = token.kind) :
    ∃ fault', draft'.Rejects token' fault' ∧ fault'.code = fault.code := by
  cases rejects with
  | named names whole => exact ⟨_, .named (kind.trans names) (by rwa [pending]), rfl⟩
  | missing ends absent => exact ⟨_, .missing (by rwa [kind]) (by rwa [pending]), rfl⟩
  | suffixed opens whole => exact ⟨_, .suffixed (by rwa [kind]) (pending.trans whole), rfl⟩
  | full opens head full =>
      exact ⟨_, .full (by rwa [kind]) (by rwa [pending]) (by rwa [length]), rfl⟩
  | mismatched ends whole due more =>
      exact ⟨_, .mismatched (by rwa [kind]) (by rwa [pending]) (by rwa [kind, closer])
        (by rwa [kind]), rfl⟩
  | unclosed whole due last =>
      exact ⟨_, .unclosed (by rwa [pending]) (by rwa [kind, closer]) (by rwa [kind]), rfl⟩

/-- Another token of the same kind at the same place is rejected there as well, for the same
reason. -/
theorem Rejects.exchange {draft : Draft} {token : Token} {fault : Fault}
    (rejects : draft.Rejects token fault) (token' : Token) (kind : token'.kind = token.kind)
    (place : token'.location = token.location) :
    ∃ fault', draft.Rejects token' fault' ∧ fault'.code = fault.code ∧
      fault'.location = fault.location := by
  obtain ⟨fault', rejects', code⟩ := rejects.transfer rfl rfl rfl token' kind
  exact ⟨fault', rejects', code, by rw [rejects'.location_eq, rejects.location_eq, place]⟩

/-- At the end of the text, reading succeeds or fails at the end. -/
theorem result_at_end (draft : Draft) (source : String) (cursor : Cursor) :
    (∃ types, (draft.read ⟨source, cursor, []⟩).result = .ok types) ∨
      ∃ fault, (draft.read ⟨source, cursor, []⟩).result = .error fault ∧ fault.IsAtEnd := by
  have next := Scanner.next_end source cursor
  cases progress : draft.step
      ⟨.endOfInput, "", ⟨source, cursor.line, cursor.column, cursor.offset⟩⟩ with
  | reading following => exact absurd rfl (kind_ne_endOfInput_of_reading progress)
  | complete types =>
      rw [read_of_complete next progress]
      exact .inl ⟨types, rfl⟩
  | rejected fault =>
      rw [read_of_rejected next progress]
      exact .inr ⟨fault, rfl, (step_eq_rejected_iff.1 progress).isAtEnd rfl⟩

/-- Wherever the text stands, reading goes on from the draft with it to a list of types. -/
def Completes (draft : Draft) (chars : List Char) : Prop :=
  ∀ source cursor, ∃ types, (draft.read ⟨source, cursor, chars⟩).result = .ok types

/-- Nothing is missing if no bracket is open and a type is pending. -/
theorem completes_nil {finished : List TypeExpr} {pending : Pending} {type : TypeExpr}
    (whole : pending.type? = some type) : Completes ⟨[], finished, pending⟩ [] := by
  intro source cursor
  have halts : Halts ⟨[], finished, pending⟩ ⟨source, cursor, []⟩ _ := .complete rfl whole
  exact ⟨_, halts.result_eq⟩

/-- A blank may come first. -/
theorem Completes.of_blank {draft : Draft} {chars : List Char} (completes : draft.Completes chars)
    {char : Char} (blank : isBlank char = true) : draft.Completes (char :: chars) := by
  intro source cursor
  rw [read_congr (Scanner.next_blank blank chars)]
  exact completes source _

/-- A mark may come first that leads to a draft which the rest completes. -/
theorem Completes.of_mark {draft next : Draft} {chars lexeme : List Char} {kind : TokenKind}
    (completes : next.Completes chars) (mark : (kind, lexeme) ∈ marks)
    (moves : ∀ token : Token, token.kind = kind → draft.Moves token next) :
    draft.Completes (lexeme ++ chars) := by
  intro source cursor
  obtain ⟨token, same, yields⟩ := Scanner.Yields.of_mark source cursor mark chars
  rw [(moves token same).takes.result_eq yields]
  exact completes source _

/-- A name may come first where no type is pending. -/
theorem Completes.of_name {draft : Draft} {chars : List Char} {name : String}
    (completes : Completes { draft with pending := .name name } chars)
    (free : draft.pending = .empty) (isName : IsName name.toList)
    (stops : qualifiedWords chars = []) : draft.Completes (name.toList ++ chars) := by
  intro source cursor
  obtain ⟨token, kind, rfl, yields⟩ := Scanner.Yields.of_name source cursor isName stops
  rw [(Moves.name kind free).takes.result_eq yields]
  exact completes source _

/-- Behind the list inside a bracket come the values of a hash, or the collection is
pending. -/
theorem leave_cases (frame : Frame) (frames : List Frame) (types : List TypeExpr) :
    leave frame frames types =
        ⟨{ frame with bracket := .hashValues types } :: frames, [], .empty⟩ ∨
      ∃ whole, leave frame frames types = ⟨frames, frame.before, .type whole⟩ := by
  obtain ⟨name, bracket, before⟩ := frame
  cases bracket with
  | hashKeys => exact .inl rfl
  | collection | fixed | hashValues => exact .inr ⟨_, rfl⟩

/-- What closes the innermost bracket may come first where a type is pending. -/
theorem Completes.of_leave {frame : Frame} {frames : List Frame} {finished : List TypeExpr}
    {pending : Pending} {type : TypeExpr} {chars : List Char}
    (completes : (leave frame frames (type :: finished).reverse).Completes chars)
    (whole : pending.type? = some type) :
    ∃ lexeme, Completes ⟨frame :: frames, finished, pending⟩ (lexeme ++ chars) := by
  obtain ⟨lexeme, mark⟩ := frame.bracket.exists_mark
  exact ⟨lexeme, completes.of_mark mark fun token kind => .leave rfl kind whole⟩

/-- A name and a blank behind it may come first where no type is pending. -/
theorem Completes.of_some_name {frames : List Frame} {finished : List TypeExpr} {chars : List Char}
    (completes : Completes ⟨frames, finished, .name "T"⟩ (' ' :: chars)) :
    Completes ⟨frames, finished, .empty⟩ ('T' :: ' ' :: chars) := by
  have isName : IsName "T".toList := .path (.word (by decide))
  have stops : qualifiedWords (' ' :: chars) = [] :=
    qualifiedWords_cons_eq_nil (by decide) (by decide) chars
  exact completes.of_name rfl isName stops

/-- Where a type is pending, some text closes every open bracket. For a hash of which only the
keys were read, it has to supply a value. -/
theorem exists_completes_of_type (frames : List Frame) {finished : List TypeExpr}
    {pending : Pending} {type : TypeExpr} (whole : pending.type? = some type) :
    ∃ chars, Completes ⟨frames, finished, pending⟩ (' ' :: chars) := by
  have space : isBlank ' ' = true := by decide
  induction frames generalizing finished pending type with
  | nil => exact ⟨[], (completes_nil whole).of_blank space⟩
  | cons frame frames ih =>
      rcases leave_cases frame frames (type :: finished).reverse with values | ⟨collection, closed⟩
      · -- The keys end with the pending type. An arrow, a value and a closing bracket are missing.
        obtain ⟨chars, completes⟩ : ∃ chars, Completes ⟨frames, frame.before,
            .type (.hashCollection frame.name (type :: finished).reverse [.simple "T"])⟩
            (' ' :: chars) := ih rfl
        obtain ⟨lexeme, closing⟩ : ∃ lexeme, Completes
            ⟨{ frame with bracket := .hashValues (type :: finished).reverse } :: frames, [],
              .name "T"⟩ (lexeme ++ ' ' :: chars) := Completes.of_leave completes rfl
        have named := (closing.of_blank space).of_some_name
        rw [← values] at named
        obtain ⟨arrow, pointing⟩ := named.of_leave whole
        exact ⟨_, pointing.of_blank space⟩
      · obtain ⟨chars, completes⟩ : ∃ chars,
            Completes ⟨frames, frame.before, .type collection⟩ (' ' :: chars) := ih rfl
        rw [← closed] at completes
        obtain ⟨lexeme, closing⟩ := completes.of_leave whole
        exact ⟨_, closing.of_blank space⟩

/-- Every draft is the beginning of some list of types. -/
theorem exists_completes (draft : Draft) : ∃ chars, draft.Completes (' ' :: chars) := by
  obtain ⟨frames, finished, pending⟩ := draft
  cases pending with
  | name text => exact exists_completes_of_type frames rfl
  | type whole => exact exists_completes_of_type frames rfl
  | empty =>
      obtain ⟨chars, completes⟩ : ∃ chars, Completes ⟨frames, finished, .name "T"⟩ (' ' :: chars) :=
        exists_completes_of_type frames rfl
      exact ⟨_, completes.of_some_name.of_blank (by decide)⟩

/-- Reading ends with a fault where it stands. -/
theorem Halts.location_eq {draft : Draft} {scanner : Scanner} {fault : Fault}
    (halts : draft.Halts scanner (.error fault)) : fault.location = scanner.location := by
  cases halts with
  | stuck => rfl
  | rejected shown found rejects => exact rejects.location_eq

/-- Reading ends with a fault at the end only at the end. -/
theorem Halts.rest_eq_nil {draft : Draft} {scanner : Scanner} {fault : Fault}
    (halts : draft.Halts scanner (.error fault)) (ends : fault.IsAtEnd) : scanner.rest = [] := by
  cases halts with
  | stuck => cases ends
  | rejected shown found rejects =>
      obtain rfl : _ = TokenKind.endOfInput := rejects.kind_eq_of_isAtEnd ends
      exact chars_eq_nil_of_endOfInput found

end Draft

/-- Reading a text comes to a draft behind the characters in front. -/
def ReadsTo (source : String) (front back : List Char) (draft : Draft) : Prop :=
  ∃ tokens, Scanner.Yields ⟨source, .start, front ++ back⟩ tokens
      ⟨source, Cursor.start.past front, back⟩ ∧
    Draft.empty.Takes tokens draft

namespace ReadsTo

variable {source : String} {front back : List Char} {draft : Draft}

/-- Reading goes on from the draft. -/
theorem parse_eq (reads : ReadsTo source front back draft) :
    parse (String.ofList (front ++ back)) source =
      (draft.read ⟨source, Cursor.start.past front, back⟩).result := by
  obtain ⟨tokens, yields, takes⟩ := reads
  rw [parse, readText, Scanner.start, String.toList_ofList]
  exact takes.result_eq yields

/-- The unread text may be exchanged for one that keeps names. -/
theorem exchange {back' : List Char} (reads : ReadsTo source front back draft)
    (keeps : KeepsNames back back') : ReadsTo source front back' draft := by
  obtain ⟨tokens, yields, takes⟩ := reads
  exact ⟨tokens, yields.exchange keeps rfl, takes⟩

/-- The characters in front are the beginning of a text that lists types. -/
theorem exists_parse_eq_ok (reads : ReadsTo source front back draft) :
    ∃ more types, parse (String.ofList front ++ more) source = .ok types := by
  obtain ⟨chars, completes⟩ := draft.exists_completes
  have keeps := keepsNames_cons back (show isWord ' ' = false by decide) (by decide) chars
  obtain ⟨types, read⟩ := completes source (Cursor.start.past front)
  refine ⟨String.ofList (' ' :: chars), types, ?_⟩
  rw [← String.ofList_append, (reads.exchange keeps).parse_eq, read]

/-- The characters in front list types, or more text is missing behind them. -/
theorem parse_front (reads : ReadsTo source front back draft) :
    (∃ types, parse (String.ofList front) source = .ok types) ∨
      ∃ fault, parse (String.ofList front) source = .error fault ∧ fault.IsAtEnd := by
  have cut := (reads.exchange (keepsNames_of_isPrefix List.nil_prefix)).parse_eq
  rw [List.append_nil] at cut
  rw [cut]
  exact draft.result_at_end source _

/-- A token that is rejected is rejected for the same reason if the text goes on. -/
theorem parse_append_of_isAtToken {fault : Fault} (reads : ReadsTo source front back draft)
    (halts : draft.Halts ⟨source, Cursor.start.past front, back⟩ (.error fault))
    (stands : fault.IsAtToken) (more : List Char) :
    ∃ fault', parse (String.ofList (front ++ (back ++ more))) source = .error fault' ∧
      fault'.code = fault.code ∧ fault'.location = fault.location := by
  cases halts with
  | stuck => cases stands
  | @rejected _ _ kind lexeme rest _ shown found rejects =>
      have last : kind ≠ .endOfInput := rejects.kind_ne_of_isAtToken stands
      have starts : lexemeAt? (lexeme ++ rest) ≠ none := by
        simp [lexemeAt?_eq_some_iff.2 found]
      have filled : lexeme ++ rest ≠ [] := fun empty =>
        last ((TokenKind.lexeme?_eq_some found).2.1 (List.append_eq_nil_iff.1 empty).1)
      have colon : lexeme ++ rest ≠ [':'] := fun equal => starts (by rw [equal]; decide)
      have colons : lexeme ++ rest ≠ [':', ':'] := fun equal => starts (by rw [equal]; decide)
      -- The lexeme may become longer, but it stays where it is and keeps its kind.
      obtain ⟨lexeme', found'⟩ := lexeme?_append shown last found more
      obtain ⟨rest', whole⟩ := (TokenKind.lexeme?_eq_some found').1
      rw [← whole] at found'
      obtain ⟨fault', rejects', code, place⟩ :=
        rejects.exchange ⟨kind, String.ofList lexeme', _⟩ rfl rfl
      have halts' := Draft.Halts.rejected shown found' rejects'
      refine ⟨fault', ?_, code, place⟩
      rw [(reads.exchange (keepsNames_append filled colon colons more)).parse_eq, ← whole]
      exact halts'.result_eq

/-- Where no token starts, none starts if the text goes on, unless all that is left is the
beginning of a lexeme. -/
theorem parse_append_of_stuck {fault : Fault} (reads : ReadsTo source front back draft)
    (halts : draft.Halts ⟨source, Cursor.start.past front, back⟩ (.error fault))
    (invalid : fault.code = .invalidCharacter) (settled : back ∉ lexemeBeginnings)
    (more : List Char) :
    parse (String.ofList (front ++ (back ++ more))) source = .error fault := by
  cases halts with
  | rejected shown found rejects => cases rejects <;> cases invalid
  | stuck stuck =>
      have filled : back ≠ [] := by
        rintro rfl
        cases stuck
      have colon : back ≠ [':'] := by
        rintro rfl
        exact settled (by decide)
      have colons : back ≠ [':', ':'] := by
        rintro rfl
        exact settled (by decide)
      have stuck' := lexemeAt?_append_eq_none stuck settled more
      have halts' : draft.Halts ⟨source, Cursor.start.past front, back ++ more⟩ _ := .stuck stuck'
      rw [(reads.exchange (keepsNames_append filled colon colons more)).parse_eq,
        halts'.result_eq]
      obtain ⟨char, rest, rfl⟩ := List.exists_cons_of_ne_nil filled
      rfl

end ReadsTo

/-- A text that is refused was read to a draft behind some of its characters, and there
reading ended. -/
theorem exists_readsTo {text source : String} {result : Except Fault (List TypeExpr)}
    (read : parse text source = result) :
    ∃ front back draft, text.toList = front ++ back ∧ ReadsTo source front back draft ∧
      draft.Halts ⟨source, Cursor.start.past front, back⟩ result := by
  obtain ⟨tokens, draft, here, yields, takes, halts⟩ := Draft.result_eq_iff.1 read
  obtain ⟨front, whole, place⟩ := yields.split
  rw [Scanner.start] at yields whole place
  rw [place] at yields halts
  refine ⟨front, here.rest, draft, whole, ⟨tokens, ?_, takes⟩, halts⟩
  rwa [← whole]

/-- A fault stands at some offset. If it says that the text ended too early, the text can go
on to a list of types. If it says that a token cannot stand where it does, the text fails in
the same way however it goes on; so does a text that fails where no token starts, unless all
that is left of it is the beginning of a lexeme. What stands before the offset always lacks at
most its end, and can go on to a list of types. -/
theorem parse_eq_error_at_earliest (text source : String) (fault : Fault)
    (failed : parse text source = .error fault) :
    ∃ offset : Nat, fault.location.offset = offset ∧ offset ≤ text.length ∧
      (fault.IsAtEnd → ∃ more types, parse (text ++ more) source = .ok types) ∧
      (fault.IsAtToken → ∀ more, ∃ fault', parse (text ++ more) source = .error fault' ∧
        fault'.code = fault.code ∧ fault'.location = fault.location) ∧
      (fault.code = .invalidCharacter → text.toList.drop offset ∉ lexemeBeginnings →
        ∀ more, parse (text ++ more) source = .error fault) ∧
      ((∃ types, parse (String.ofList (text.toList.take offset)) source = .ok types) ∨
        ∃ fault', parse (String.ofList (text.toList.take offset)) source = .error fault' ∧
          fault'.IsAtEnd) ∧
      ∃ more types,
        parse (String.ofList (text.toList.take offset) ++ more) source = .ok types := by
  obtain ⟨front, back, draft, whole, reads, halts⟩ := exists_readsTo failed
  have place : fault.location.offset = front.length := by
    rw [halts.location_eq]
    simp [Scanner.location, Cursor.offset_past, Cursor.start]
  have before : text.toList.take front.length = front := by simp [whole]
  have behind : text.toList.drop front.length = back := by simp [whole]
  have goesOn : ∀ more : String,
      text ++ more = String.ofList (front ++ (back ++ more.toList)) := by
    intro more
    rw [← List.append_assoc, ← whole, ← String.toList_append, String.ofList_toList]
  have within : front.length ≤ text.length := by
    rw [← String.length_toList, whole, List.length_append]
    omega
  refine ⟨front.length, place, within, ?_, ?_, ?_, ?_, ?_⟩
  · intro ends
    obtain rfl : back = [] := halts.rest_eq_nil ends
    obtain rfl : text = String.ofList front := by
      rw [← String.ofList_toList (s := text), whole, List.append_nil]
    exact reads.exists_parse_eq_ok
  · intro stands more
    rw [goesOn]
    exact reads.parse_append_of_isAtToken halts stands more.toList
  · intro invalid settled more
    rw [behind] at settled
    rw [goesOn]
    exact reads.parse_append_of_stuck halts invalid settled more.toList
  · rw [before]
    exact reads.parse_front
  · rw [before]
    exact reads.exists_parse_eq_ok

/-- An arrow cannot stand behind an unclosed collection among the keys of a hash, but the text
before it can go on. -/
theorem parse_arrow_behind_unclosed :
    (∀ more, ∃ fault, parse ("\x7bA<B => C" ++ more) unnamedSource = .error fault ∧
      fault.code = .mismatched ∧ fault.location.offset = 5) ∧
    ∃ more types, parse ("\x7bA<B " ++ more) unnamedSource = .ok types := by
  have failed : parse "\x7bA<B => C" unnamedSource =
      .error (.mismatched [.closeCollection] ⟨.arrow, "=>", ⟨unnamedSource, 1, 6, 5⟩⟩) := by
    decide +kernel
  obtain ⟨offset, place, -, -, stands, -, -, completes⟩ :=
    parse_eq_error_at_earliest _ _ _ failed
  obtain rfl : offset = 5 := Int.ofNat.inj place.symm
  refine ⟨fun more => ?_, completes⟩
  obtain ⟨fault, read, code, same⟩ := stands trivial more
  exact ⟨fault, read, code, by rw [same]; rfl⟩

end TypeProse
