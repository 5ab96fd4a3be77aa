import TypeProse.Text.Blank
import TypeProse.Token

/-!
# Lexemes

Which characters at the front of a text make up a token, and of which kind. Names
are as long as possible. The kinds are tried in the order of `TokenKind.all`, and
the first that applies is taken.
-/

namespace TypeProse

open Text

/-- The characters that words are made of: letters and digits of ASCII and the
underscore. -/
def isWord (char : Char) : Bool :=
  char.isAlphanum || char == '_'

/-- The longest run at the front of words joined by double colons. It may begin with a
double colon, and each double colon in it stands before a word. -/
def qualifiedWords : List Char → List Char
  | ':' :: ':' :: char :: rest =>
      if isWord char then ':' :: ':' :: char :: qualifiedWords rest else []
  | char :: rest => if isWord char then char :: qualifiedWords rest else []
  | [] => []

/-- The characters, unless there are none. -/
def nonempty? : List Char → Option (List Char)
  | [] => none
  | chars => some chars

/-- The name at the front: a number sign with one word, or words joined by double
colons. -/
def name? : List Char → Option (List Char)
  | '#' :: rest => (nonempty? (rest.takeWhile isWord)).map ('#' :: ·)
  | chars => nonempty? (qualifiedWords chars)

/-- The lexeme of one kind at the front of a text. The end of input is found only where
no character is left. -/
def TokenKind.lexeme? : TokenKind → List Char → Option (List Char)
  | .openCollection, '<' :: _ => some ['<']
  | .closeCollection, '>' :: _ => some ['>']
  | .openFixed, '(' :: _ => some ['(']
  | .closeFixed, ')' :: _ => some [')']
  | .name, chars => name? chars
  | .separator, ',' :: _ => some [',']
  | .separator, ';' :: _ => some [';']
  | .blank, chars => nonempty? (leadingBlanks chars)
  | .openHash, '\x7b' :: _ => some ['\x7b']
  | .arrow, '=' :: '>' :: _ => some ['=', '>']
  | .closeHash, '\x7d' :: _ => some ['\x7d']
  | .endOfInput, [] => some []
  | _, _ => none

/-- The first kind that has a lexeme at the front, with that lexeme. -/
def lexemeAt? (chars : List Char) : Option (TokenKind × List Char) :=
  TokenKind.all.findSome? fun kind => (kind.lexeme? chars).map fun lexeme => (kind, lexeme)

theorem nonempty?_eq_some_iff {chars found : List Char} :
    nonempty? chars = some found ↔ chars = found ∧ found ≠ [] := by
  cases chars <;> grind [nonempty?]

/-- The qualified words are a front part of the text. -/
theorem qualifiedWords_isPrefix (chars : List Char) :
    (qualifiedWords chars).IsPrefix chars := by
  fun_induction qualifiedWords chars with
  | case1 char rest word ih => simpa using ih
  | case2 char rest word => exact List.nil_prefix
  | case3 char rest _ word ih => simpa using ih
  | case4 char rest _ word => exact List.nil_prefix
  | case5 => exact List.nil_prefix

/-- A name is a front part of the text, and has a character. -/
theorem name?_eq_some {chars lexeme : List Char} (found : name? chars = some lexeme) :
    lexeme.IsPrefix chars ∧ lexeme ≠ [] := by
  unfold name? at found
  split at found
  · rename_i rest
    obtain ⟨word, wordFound, rfl⟩ := Option.map_eq_some_iff.1 found
    obtain ⟨rfl, _⟩ := nonempty?_eq_some_iff.1 wordFound
    simpa using List.takeWhile_prefix (l := rest) isWord
  · obtain ⟨rfl, some⟩ := nonempty?_eq_some_iff.1 found
    exact ⟨qualifiedWords_isPrefix _, some⟩

/-- A lexeme is a front part of the text, and only the end of input has no character. -/
theorem TokenKind.lexeme?_eq_some {kind : TokenKind} {chars lexeme : List Char}
    (found : kind.lexeme? chars = some lexeme) :
    lexeme.IsPrefix chars ∧ (lexeme = [] ↔ kind = .endOfInput) := by
  unfold lexeme? at found
  split at found
  case h_5 => simpa using name?_eq_some found
  case h_8 =>
    obtain ⟨rfl, some⟩ := nonempty?_eq_some_iff.1 found
    exact ⟨List.takeWhile_prefix _, by simpa using some⟩
  all_goals cases found <;> simp

/-- A kind that is found has its own lexeme at the front. -/
theorem lexemeAt?_eq_some {chars lexeme : List Char} {kind : TokenKind}
    (found : lexemeAt? chars = some (kind, lexeme)) : kind.lexeme? chars = some lexeme := by
  obtain ⟨tried, _, hit⟩ := List.exists_of_findSome?_eq_some found
  obtain ⟨matched, isLexeme, equal⟩ := Option.map_eq_some_iff.1 hit
  cases equal
  exact isLexeme

end TypeProse
