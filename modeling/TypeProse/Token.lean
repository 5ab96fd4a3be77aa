import TypeProse.Location

/-!
# Tokens

A token is a piece of a text together with its kind and its place. The kinds are
listed in `TokenKind.all` in the order in which they are tried when a text is cut
into tokens.
-/

namespace TypeProse

/-- What a piece of text can be. `blank` is recognised but never handed out as a token. -/
inductive TokenKind where
  | openCollection
  | closeCollection
  | openFixed
  | closeFixed
  | name
  | separator
  | blank
  | openHash
  | arrow
  | closeHash
  | endOfInput
  deriving DecidableEq, Repr

namespace TokenKind

/-- Every kind, in the order in which they are tried. -/
def all : List TokenKind :=
  [.openCollection, .closeCollection, .openFixed, .closeFixed, .name, .separator, .blank,
    .openHash, .arrow, .closeHash, .endOfInput]

/-- The name of the kind in traces and listings. -/
def label : TokenKind → String
  | .openCollection => "COLLECTION_START"
  | .closeCollection => "COLLECTION_END"
  | .openFixed => "FIXED_COLLECTION_START"
  | .closeFixed => "FIXED_COLLECTION_END"
  | .name => "TYPE_NAME"
  | .separator => "TYPE_NEXT"
  | .blank => "WHITESPACE"
  | .openHash => "HASH_COLLECTION_START"
  | .arrow => "HASH_COLLECTION_NEXT"
  | .closeHash => "HASH_COLLECTION_END"
  | .endOfInput => "EOF"

/-- The kind that a label names. -/
def ofLabel? (text : String) : Option TokenKind :=
  all.find? fun kind => kind.label == text

/-- The position of the kind in `all`, counted from one. -/
def ordinal (kind : TokenKind) : Nat :=
  all.idxOf kind + 1

/-- How a kind is written where one is asked for. Names and blanks have no one
spelling, and the comma stands for both separators. -/
def text? : TokenKind → Option String
  | .openCollection => some "<"
  | .closeCollection => some ">"
  | .openFixed => some "("
  | .closeFixed => some ")"
  | .separator => some ","
  | .openHash => some "\x7b"
  | .arrow => some "=>"
  | .closeHash => some "\x7d"
  | .endOfInput => some "end of input"
  | .name => none
  | .blank => none

/-- Whether a token of this kind ends a list of types. -/
def isTerminator : TokenKind → Bool
  | .closeCollection => true
  | .closeFixed => true
  | .arrow => true
  | .closeHash => true
  | .endOfInput => true
  | _ => false

/-- The list of all kinds leaves none out. -/
theorem mem_all (kind : TokenKind) : kind ∈ all := by
  cases kind <;> decide

/-- A label names its kind and no other. -/
theorem ofLabel?_label (kind : TokenKind) : ofLabel? kind.label = some kind := by
  cases kind <;> decide

end TokenKind

/-- A text between single quotes. -/
def quoted (text : String) : String :=
  "'" ++ text ++ "'"

/-- A piece of a text: its kind, its characters and where it starts. -/
structure Token where
  kind : TokenKind
  lexeme : String
  location : Location
  deriving DecidableEq, Repr

namespace Token

/-- How a token is named in a message. -/
def describe (token : Token) : String :=
  if token.kind = .endOfInput then "end of input" else quoted token.lexeme

/-- Whether the token ends a list of types. -/
def isTerminator (token : Token) : Bool :=
  token.kind.isTerminator

end Token

end TypeProse
