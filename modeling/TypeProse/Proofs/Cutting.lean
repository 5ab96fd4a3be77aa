import TypeProse.Proofs.Covering

/-!
# Texts that can be cut into tokens

A piece is one blank, one mark or one name. A scanner takes the longest name that it
finds, but whether a text can be cut into tokens does not depend on that: every text
that is made of pieces in any way is cut, and where a text is not, the scanner stops
behind the longest front part that is made of pieces.

The argument goes through atoms, which are the pieces with at most one word character.
Every piece is made of atoms, and how long an atom is can be seen from its first
character, so a text is made of atoms in one way only.
-/

namespace TypeProse

open Text

/-- What tokens and the text between them are made of: one blank, one mark, or one name. -/
inductive IsPiece : List Char → Prop where
  | blank {char : Char} (blank : isBlank char = true) : IsPiece [char]
  | mark {kind : TokenKind} {lexeme : List Char} (mark : (kind, lexeme) ∈ marks) : IsPiece lexeme
  | name {lexeme : List Char} (isName : IsName lexeme) : IsPiece lexeme

/-- The characters are zero or more parts of one sort in a row. -/
def IsMadeOf (sort : List Char → Prop) (chars : List Char) : Prop :=
  ∃ parts : List (List Char), (∀ part ∈ parts, sort part) ∧ parts.flatten = chars

namespace IsMadeOf

variable {sort sort' : List Char → Prop} {chars : List Char}

theorem nil : IsMadeOf sort [] :=
  ⟨[], by simp, rfl⟩

theorem of_part (part : sort chars) : IsMadeOf sort chars :=
  ⟨[chars], by simpa using part, by simp⟩

theorem append {front back : List Char} (first : IsMadeOf sort front)
    (second : IsMadeOf sort back) : IsMadeOf sort (front ++ back) := by
  obtain ⟨parts, areParts, rfl⟩ := first
  obtain ⟨parts', areParts', rfl⟩ := second
  exact ⟨parts ++ parts', List.forall_mem_append.2 ⟨areParts, areParts'⟩, by simp⟩

/-- Parts may be divided further. -/
theorem refine (divided : ∀ part, sort part → IsMadeOf sort' part)
    (made : IsMadeOf sort chars) : IsMadeOf sort' chars := by
  obtain ⟨parts, areParts, rfl⟩ := made
  induction parts with
  | nil => exact nil
  | cons part parts ih =>
      obtain ⟨first, others⟩ := List.forall_mem_cons.1 areParts
      exact (divided part first).append (ih others)

/-- Parts may be taken one by one. -/
theorem of_forall (single : ∀ char ∈ chars, sort [char]) : IsMadeOf sort chars := by
  induction chars with
  | nil => exact nil
  | cons char chars ih =>
      obtain ⟨first, others⟩ := List.forall_mem_cons.1 single
      exact (of_part first).append (ih others)

end IsMadeOf

/-- The least pieces: a blank, a mark, and a word character alone, behind a number sign or
behind a double colon. -/
inductive IsAtom : List Char → Prop where
  | blank {char : Char} (blank : isBlank char = true) : IsAtom [char]
  | mark {kind : TokenKind} {lexeme : List Char} (mark : (kind, lexeme) ∈ marks) : IsAtom lexeme
  | word {char : Char} (word : isWord char = true) : IsAtom [char]
  | method {char : Char} (word : isWord char = true) : IsAtom ['#', char]
  | qualified {char : Char} (word : isWord char = true) : IsAtom [':', ':', char]

/-- A run of word characters begins with one, and made of atoms is what follows it. -/
theorem IsWordRun.exists_cons {run : List Char} (words : IsWordRun run) :
    ∃ char rest, run = char :: rest ∧ isWord char = true ∧ IsMadeOf IsAtom rest := by
  obtain ⟨filled, all⟩ := words
  obtain ⟨char, rest, rfl⟩ := List.exists_cons_of_ne_nil filled
  obtain ⟨first, others⟩ := List.forall_mem_cons.1 all
  exact ⟨char, rest, rfl, first, .of_forall fun other inside => .word (others other inside)⟩

/-- A path begins with a word character, and made of atoms is what follows it. -/
theorem IsPath.exists_cons {path : List Char} (words : IsPath path) :
    ∃ char rest, path = char :: rest ∧ isWord char = true ∧ IsMadeOf IsAtom rest := by
  induction words with
  | word words => exact words.exists_cons
  | joined words _ ih =>
      obtain ⟨char, rest, rfl, first, made⟩ := words.exists_cons
      obtain ⟨char', rest', rfl, second, made'⟩ := ih
      have colons := (IsMadeOf.of_part (IsAtom.qualified second)).append made'
      exact ⟨char, _, rfl, first, made.append colons⟩

/-- Every piece is made of atoms. -/
theorem IsPiece.isMadeOf_isAtom {chars : List Char} (piece : IsPiece chars) :
    IsMadeOf IsAtom chars := by
  cases piece with
  | blank blank => exact .of_part (.blank blank)
  | mark mark => exact .of_part (.mark mark)
  | name isName =>
      cases isName with
      | method words =>
          obtain ⟨char, rest, rfl, word, made⟩ := words.exists_cons
          exact (IsMadeOf.of_part (IsAtom.method word)).append made
      | path words =>
          obtain ⟨char, rest, rfl, word, made⟩ := words.exists_cons
          exact (IsMadeOf.of_part (IsAtom.word word)).append made
      | rooted words =>
          obtain ⟨char, rest, rfl, word, made⟩ := words.exists_cons
          exact (IsMadeOf.of_part (IsAtom.qualified word)).append made

/-- How long an atom is that begins like the text. -/
def atomLength : List Char → Nat
  | '#' :: _ => 2
  | '=' :: _ => 2
  | ':' :: _ => 3
  | _ => 1

/-- A character that is none of the three that begin a longer atom is an atom alone. -/
theorem atomLength_cons {char : Char} (sign : char ≠ '#') (equals : char ≠ '=')
    (colon : char ≠ ':') (rest : List Char) : atomLength (char :: rest) = 1 := by
  unfold atomLength
  split <;> simp_all

/-- The first character of an atom says how long it is. -/
theorem IsAtom.atomLength_append {atom : List Char} (isAtom : IsAtom atom) (back : List Char) :
    atomLength (atom ++ back) = atom.length := by
  have single : ∀ {char : Char}, isBlank char = true ∨ isWord char = true →
      atomLength (char :: back) = 1 := by
    intro char plain
    refine atomLength_cons ?_ ?_ ?_ back <;> rintro rfl <;> revert plain <;> decide
  cases isAtom with
  | blank blank => exact single (.inl blank)
  | word word => exact single (.inr word)
  | method | qualified => rfl
  | mark mark =>
      simp only [marks, List.mem_cons, Prod.mk.injEq, List.not_mem_nil, or_false] at mark
      rcases mark with ⟨rfl, rfl⟩ | ⟨rfl, rfl⟩ | ⟨rfl, rfl⟩ | ⟨rfl, rfl⟩ | ⟨rfl, rfl⟩ | ⟨rfl, rfl⟩ |
        ⟨rfl, rfl⟩ | ⟨rfl, rfl⟩ | ⟨rfl, rfl⟩ <;> rfl

/-- Of two atoms at the front of the same text, both are the same. -/
theorem IsAtom.unique {atom atom' back back' : List Char} (isAtom : IsAtom atom)
    (isAtom' : IsAtom atom') (same : atom ++ back = atom' ++ back') : atom = atom' := by
  have length : atom.length = atom'.length := by
    rw [← isAtom.atomLength_append back, ← isAtom'.atomLength_append back', same]
  exact (List.append_inj same length).1

/-- A token starts where an atom does. -/
theorem IsAtom.lexemeAt?_ne_none {atom : List Char} (isAtom : IsAtom atom) (back : List Char) :
    lexemeAt? (atom ++ back) ≠ none := by
  intro stuck
  rw [lexemeAt?_eq_none_iff] at stuck
  obtain ⟨sign, stops⟩ := name?_eq_none_iff.1 (stuck .name)
  obtain ⟨first, colons⟩ := qualifiedWords_eq_nil_iff.1 stops
  cases isAtom with
  | blank blank => cases blank.symm.trans (lexeme?_blank_eq_none_iff.1 (stuck .blank))
  | mark mark => cases (lexeme?_of_mem_marks mark back).symm.trans (stuck _)
  | word word => cases word.symm.trans first
  | method word => cases word.symm.trans (sign _ rfl)
  | qualified word => cases word.symm.trans (colons _ rfl)

/-- Behind a text that is made of atoms and before one at which none starts, no longer text
that is made of atoms ends. -/
theorem IsMadeOf.length_le {front back front' back' : List Char} (made : IsMadeOf IsAtom front)
    (stuck : lexemeAt? back = none) (made' : IsMadeOf IsAtom front')
    (same : front ++ back = front' ++ back') : front'.length ≤ front.length := by
  obtain ⟨atoms, areAtoms, rfl⟩ := made
  obtain ⟨atoms', areAtoms', rfl⟩ := made'
  induction atoms generalizing atoms' with
  | nil =>
      cases atoms' with
      | nil => exact Nat.le_refl _
      | cons atom' atoms' =>
          have first := (List.forall_mem_cons.1 areAtoms').1
          rw [List.flatten_nil, List.nil_append, List.flatten_cons, List.append_assoc] at same
          exact absurd (same ▸ stuck) (first.lexemeAt?_ne_none _)
  | cons atom atoms ih =>
      cases atoms' with
      | nil => exact Nat.zero_le _
      | cons atom' atoms' =>
          obtain ⟨first, others⟩ := List.forall_mem_cons.1 areAtoms
          obtain ⟨first', others'⟩ := List.forall_mem_cons.1 areAtoms'
          simp only [List.flatten_cons, List.append_assoc] at same ⊢
          obtain rfl := first.unique first' same
          have behind := ih others atoms' others' (List.append_cancel_left same)
          simp only [List.length_append]
          omega

/-- A lexeme is a piece. -/
theorem TokenKind.Matches.isPiece {kind : TokenKind} {lexeme : List Char}
    (fits : kind.Matches lexeme) : IsPiece lexeme := by
  cases fits with
  | mark mark => exact .mark mark
  | name isName => exact .name isName

/-- A text that tokens cover is made of pieces. -/
theorem Covers.isMadeOf_isPiece {offset : Nat} {tokens : List Token} {chars : List Char}
    (covers : Covers offset tokens chars)
    (fitting : ∀ token ∈ tokens, token.kind.Matches token.lexeme.toList) :
    IsMadeOf IsPiece chars := by
  have blanks : ∀ {gap : List Char}, (∀ char ∈ gap, isBlank char = true) →
      IsMadeOf IsPiece gap :=
    fun blank => .of_forall fun char inside => .blank (blank char inside)
  induction covers with
  | none blank => exact blanks blank
  | token blank _ _ ih =>
      obtain ⟨first, others⟩ := List.forall_mem_cons.1 fitting
      exact (blanks blank).append ((IsMadeOf.of_part first.isPiece).append (ih others))

/-- What a scanner passes on its way is made of pieces. -/
theorem Scanner.Yields.isMadeOf_isPiece {text source : String} {tokens : List Token}
    {after : Scanner} (yields : (Scanner.start text source).Yields tokens after) :
    ∃ front, text.toList = front ++ after.rest ∧ after.cursor.offset = front.length ∧
      IsMadeOf IsPiece front := by
  obtain ⟨front, whole, place, areCut⟩ := yields.areCutFrom
  exact ⟨front, whole, place,
    areCut.covers.isMadeOf_isPiece fun token inside => (areCut.fitting token inside).2⟩

/-- Where a text cannot be cut, the fault names a character at which no token starts, and the
text in front of it is made of pieces. -/
theorem exists_split_of_tokenize_eq_error {text source : String} {fault : Fault}
    (failed : tokenize text source = .error fault) :
    ∃ front char rest location, text.toList = front ++ char :: rest ∧
      fault = .invalidCharacter (String.singleton char) location ∧
      location.offset = (front.length : Nat) ∧ IsMadeOf IsPiece front ∧
      lexemeAt? (char :: rest) = none := by
  obtain ⟨tokens, stopped, yields, stuck, rfl⟩ := tokenize_eq_error_iff.1 failed
  obtain ⟨front, whole, place, made⟩ := yields.isMadeOf_isPiece
  have filled : stopped.rest ≠ [] := by
    intro ended
    rw [ended] at stuck
    cases stuck
  obtain ⟨char, rest, shape⟩ := List.exists_cons_of_ne_nil filled
  rw [shape] at whole stuck ⊢
  exact ⟨front, char, rest, _, whole, rfl, congrArg _ place, made, stuck⟩

/-- No longer front part of a text is made of pieces than one behind which no token starts. -/
theorem IsMadeOf.length_le_of_isPrefix {front back front' : List Char}
    (made : IsMadeOf IsPiece front) (stuck : lexemeAt? back = none)
    (made' : IsMadeOf IsPiece front') (ahead : front' <+: front ++ back) :
    front'.length ≤ front.length := by
  have divided : ∀ part, IsPiece part → IsMadeOf IsAtom part := fun _ => IsPiece.isMadeOf_isAtom
  obtain ⟨back', whole⟩ := ahead
  exact (made.refine divided).length_le stuck (made'.refine divided) whole.symm

/-- A text can be cut into tokens exactly when it is made of pieces, in whatever way. If it
cannot, the fault names the character behind the longest front part that is made of
pieces, and stands at its offset. -/
theorem tokenize_isOk_iff_isMadeOf_isPiece (text source : String) :
    ((∃ tokens, tokenize text source = .ok tokens) ↔ IsMadeOf IsPiece text.toList) ∧
    ∀ fault, tokenize text source = .error fault →
      ∃ (offset : Nat) (char : Char) (location : Location),
        fault = .invalidCharacter (String.singleton char) location ∧
        location.offset = offset ∧ text.toList[offset]? = some char ∧
        IsMadeOf IsPiece (text.toList.take offset) ∧
        ∀ front, front <+: text.toList → IsMadeOf IsPiece front → front.length ≤ offset := by
  refine ⟨⟨?_, ?_⟩, ?_⟩
  · rintro ⟨all, cut⟩
    obtain ⟨tokens, cursor, yields, -⟩ := tokenize_eq_ok_iff.1 cut
    obtain ⟨front, whole, -, made⟩ := yields.isMadeOf_isPiece
    rw [List.append_nil] at whole
    exact whole ▸ made
  · intro made
    cases result : tokenize text source with
    | ok tokens => exact ⟨tokens, rfl⟩
    | error fault =>
        obtain ⟨front, char, rest, -, whole, -, -, made', stuck⟩ :=
          exists_split_of_tokenize_eq_error result
        have short := made'.length_le_of_isPrefix stuck made (whole ▸ List.prefix_refl _)
        rw [whole, List.length_append, List.length_cons] at short
        omega
  · intro fault failed
    obtain ⟨front, char, rest, location, whole, named, place, made, stuck⟩ :=
      exists_split_of_tokenize_eq_error failed
    refine ⟨front.length, char, location, named, place, by simp [whole], by simpa [whole], ?_⟩
    intro front' ahead made'
    exact made.length_le_of_isPrefix stuck made' (whole ▸ ahead)

/-- Names may touch, and a double colon may begin one behind a method; but the last colon
begins nothing. -/
theorem longest_pieces_before_colon :
    (∃ tokens, tokenize "#ab::c=>;" "t" = .ok tokens) ∧
    ∀ front, front <+: "#a::b:".toList → IsMadeOf IsPiece front → front.length ≤ 5 := by
  have joined : IsPath (['b'] ++ ':' :: ':' :: ['c']) := .joined (by decide) (.word (by decide))
  have arrow : (TokenKind.arrow, ['=', '>']) ∈ marks := by decide
  have separator : (TokenKind.separator, [';']) ∈ marks := by decide
  -- Not the cut that a scanner makes, which takes the whole word behind the number sign.
  have made : IsMadeOf IsPiece "#ab::c=>;".toList :=
    ⟨[['#', 'a'], ['b', ':', ':', 'c'], ['=', '>'], [';']], by
      simp only [List.forall_mem_cons]
      exact ⟨.name (.method (by decide)), .name (.path joined), .mark arrow, .mark separator,
        by simp⟩, rfl⟩
  have failed : tokenize "#a::b:" "t" = .error (.invalidCharacter ":" ⟨"t", 1, 6, 5⟩) := by
    decide +kernel
  obtain ⟨offset, char, location, named, place, -, -, longest⟩ :=
    (tokenize_isOk_iff_isMadeOf_isPiece _ _).2 _ failed
  obtain ⟨-, rfl⟩ := Fault.invalidCharacter.inj named
  obtain rfl : offset = 5 := Int.ofNat.inj place.symm
  exact ⟨(tokenize_isOk_iff_isMadeOf_isPiece _ _).1.2 made, longest⟩

end TypeProse
