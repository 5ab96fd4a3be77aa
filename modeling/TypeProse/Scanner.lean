import TypeProse.Fault
import TypeProse.Token.Lexeme

/-!
# Scanning

A scanner hands out the tokens of a text one after the other. It keeps the part of
the text that it has not read and a cursor that says how much it has read. Blanks
before a token are passed over. Where no token starts, the scanner reports the
fault and stays in front of the offending character.
-/

namespace TypeProse

open Text

/-- How far a text has been read: characters passed, and the line and column reached. -/
structure Cursor where
  offset : Nat
  line : Nat
  column : Nat
  deriving DecidableEq, Repr

namespace Cursor

/-- The cursor at the front of a text. -/
def start : Cursor :=
  ⟨0, 1, 1⟩

/-- Pass one character. Only a line feed begins a new line. -/
def step (cursor : Cursor) (char : Char) : Cursor :=
  if char = '\n' then ⟨cursor.offset + 1, cursor.line + 1, 1⟩
  else ⟨cursor.offset + 1, cursor.line, cursor.column + 1⟩

/-- Pass several characters. -/
def past (cursor : Cursor) (chars : List Char) : Cursor :=
  chars.foldl step cursor

end Cursor

/-- A text that is being read: the name of its source, how far it has been read, and the
rest. -/
structure Scanner where
  source : String
  cursor : Cursor
  rest : List Char
  deriving DecidableEq, Repr

namespace Scanner

/-- A scanner at the front of a text. -/
def start (text source : String) : Scanner :=
  ⟨source, .start, text.toList⟩

/-- Where the scanner stands. -/
def location (scanner : Scanner) : Location :=
  ⟨scanner.source, scanner.cursor.line, scanner.cursor.column, scanner.cursor.offset⟩

/-- Whether every character has been read. Blanks that are left count as unread. -/
def atEnd (scanner : Scanner) : Bool :=
  scanner.rest.isEmpty

/-- Pass the given number of characters. -/
def advance (scanner : Scanner) (count : Nat) : Scanner :=
  ⟨scanner.source, scanner.cursor.past (scanner.rest.take count), scanner.rest.drop count⟩

/-- Pass the blanks in front. -/
def skipBlanks (scanner : Scanner) : Scanner :=
  scanner.advance (leadingBlanks scanner.rest).length

/-- The token in front, where no blank stands in front. -/
def nextHere (scanner : Scanner) : Except Fault Token × Scanner :=
  match lexemeAt? scanner.rest with
  | some (kind, lexeme) =>
      (.ok ⟨kind, String.ofList lexeme, scanner.location⟩, scanner.advance lexeme.length)
  | none =>
      (.error (.invalidCharacter (String.ofList (scanner.rest.take 1)) scanner.location), scanner)

/-- The next token. At the end of the text it is the end of input, however often it is
asked for. -/
def next (scanner : Scanner) : Except Fault Token × Scanner :=
  scanner.skipBlanks.nextHere

@[simp] theorem rest_advance (scanner : Scanner) (count : Nat) :
    (scanner.advance count).rest = scanner.rest.drop count :=
  rfl

/-- Every token but the end of input takes characters off the rest. -/
theorem length_rest_next_lt {scanner after : Scanner} {token : Token}
    (read : scanner.next = (.ok token, after)) (more : token.kind ≠ .endOfInput) :
    after.rest.length < scanner.rest.length := by
  unfold next nextHere at read
  split at read
  · rename_i kind lexeme found
    cases read
    obtain ⟨front, empty⟩ := TokenKind.lexeme?_eq_some (lexemeAt?_eq_some found)
    have some : 0 < lexeme.length :=
      List.length_pos_iff.2 fun none => more (empty.1 none)
    have fits := front.length_le
    simp only [skipBlanks, rest_advance, List.length_drop] at fits ⊢
    omega
  · cases read

/-- The tokens from here on, up to and including the end of input. -/
def tokenize (scanner : Scanner) : Except Fault (List Token) × Scanner :=
  match read : scanner.next with
  | (.error fault, after) => (.error fault, after)
  | (.ok token, after) =>
      if last : token.kind = .endOfInput then
        (.ok [token], after)
      else
        have _shorter := length_rest_next_lt read last
        match after.tokenize with
        | (.error fault, stopped) => (.error fault, stopped)
        | (.ok tokens, stopped) => (.ok (token :: tokens), stopped)
termination_by scanner.rest.length

end Scanner

/-- The tokens of a text, of which the last is the end of input. -/
def tokenize (text source : String) : Except Fault (List Token) :=
  (Scanner.start text source).tokenize.1

end TypeProse
