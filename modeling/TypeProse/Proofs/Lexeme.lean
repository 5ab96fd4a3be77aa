import Mathlib.Tactic.ByContra
import TypeProse.Proofs.Name

/-!
# One lexeme at the front of a text

At most one kind of token has a lexeme at the front of a text, so the order in which
the kinds are tried never decides between two of them. A lexeme that is found there
is found again when what follows it is exchanged for a text that keeps names, and a
place where no token starts remains one when the text goes on, unless the text ends
there in the beginning of a longer lexeme.
-/

namespace TypeProse

open Text

/-- The lexemes of fixed spelling with their kinds. The separator has two of them. -/
def marks : List (TokenKind × List Char) :=
  [(.openCollection, ['<']), (.closeCollection, ['>']), (.openFixed, ['(']), (.closeFixed, [')']),
    (.separator, [',']), (.separator, [';']), (.openHash, ['\x7b']), (.arrow, ['=', '>']),
    (.closeHash, ['\x7d'])]

/-- A mark is found in front of every text. -/
theorem lexeme?_of_mem_marks {kind : TokenKind} {lexeme : List Char}
    (mark : (kind, lexeme) ∈ marks) (back : List Char) :
    kind.lexeme? (lexeme ++ back) = some lexeme := by
  simp only [marks, List.mem_cons, Prod.mk.injEq, List.not_mem_nil, or_false] at mark
  rcases mark with ⟨rfl, rfl⟩ | ⟨rfl, rfl⟩ | ⟨rfl, rfl⟩ | ⟨rfl, rfl⟩ | ⟨rfl, rfl⟩ | ⟨rfl, rfl⟩ |
    ⟨rfl, rfl⟩ | ⟨rfl, rfl⟩ | ⟨rfl, rfl⟩ <;> rfl

/-- A mark begins neither with a word character nor with a colon. -/
theorem exists_cons_of_mem_marks {kind : TokenKind} {lexeme : List Char}
    (mark : (kind, lexeme) ∈ marks) :
    ∃ char rest, lexeme = char :: rest ∧ isWord char = false ∧ char ≠ ':' := by
  have first : ∀ pair ∈ marks, ∃ char rest, pair.2 = char :: rest ∧ isWord char = false ∧
      char ≠ ':' := by
    simp [marks]
    decide
  exact first _ mark

/-- No qualified words begin with a mark. -/
theorem qualifiedWords_mark_append {kind : TokenKind} {lexeme : List Char}
    (mark : (kind, lexeme) ∈ marks) (back : List Char) : qualifiedWords (lexeme ++ back) = [] := by
  obtain ⟨char, rest, rfl, word, colon⟩ := exists_cons_of_mem_marks mark
  exact qualifiedWords_cons_eq_nil word colon _

/-- A mark may come behind a text, and names before that text are kept. -/
theorem keepsNames_append_mark {kind : TokenKind} {lexeme : List Char}
    (mark : (kind, lexeme) ∈ marks) (front back : List Char) :
    KeepsNames front (front ++ (lexeme ++ back)) := by
  obtain ⟨char, rest, rfl, word, colon⟩ := exists_cons_of_mem_marks mark
  exact keepsNames_append_cons front word colon (rest ++ back)

/-- A text may be exchanged for one that begins with a mark. -/
theorem keepsNames_mark {kind : TokenKind} {lexeme : List Char} (mark : (kind, lexeme) ∈ marks)
    (back rest : List Char) : KeepsNames back (lexeme ++ rest) := by
  obtain ⟨char, chars, rfl, word, colon⟩ := exists_cons_of_mem_marks mark
  exact keepsNames_cons back word colon (chars ++ rest)

/-- What is found at the front is a mark, a name, a run of blanks, or the end of input. -/
theorem lexeme?_cases {kind : TokenKind} {chars lexeme : List Char}
    (found : kind.lexeme? chars = some lexeme) :
    (kind, lexeme) ∈ marks ∨ (kind = .name ∧ name? chars = some lexeme) ∨
      (kind = .blank ∧ leadingBlanks chars = lexeme ∧ lexeme ≠ []) ∨
      (kind = .endOfInput ∧ chars = [] ∧ lexeme = []) := by
  unfold TokenKind.lexeme? at found
  split at found
  case h_5 => exact .inr (.inl ⟨rfl, found⟩)
  case h_8 => exact .inr (.inr (.inl ⟨rfl, nonempty?_eq_some_iff.1 found⟩))
  case h_12 =>
    cases found
    exact .inr (.inr (.inr ⟨rfl, rfl, rfl⟩))
  all_goals
    cases found <;> exact .inl (by decide)

/-- What is found at the front is a mark, unless it is a name, a blank or the end of input. -/
theorem mem_marks_of_lexeme? {kind : TokenKind} {chars lexeme : List Char}
    (found : kind.lexeme? chars = some lexeme) (unnamed : kind ≠ .name) (shown : kind ≠ .blank)
    (more : kind ≠ .endOfInput) : (kind, lexeme) ∈ marks := by
  rcases lexeme?_cases found with mark | ⟨named, _⟩ | ⟨blank, _⟩ | ⟨last, _⟩
  · exact mark
  · exact absurd named unnamed
  · exact absurd blank shown
  · exact absurd last more

/-- The end of input is found only where no character is left. -/
theorem chars_eq_nil_of_endOfInput {chars lexeme : List Char}
    (found : TokenKind.endOfInput.lexeme? chars = some lexeme) : chars = [] := by
  rcases lexeme?_cases found with mark | ⟨kind, _⟩ | ⟨kind, _⟩ | ⟨_, empty, _⟩
  · simp [marks] at mark
  · cases kind
  · cases kind
  · exact empty

/-- No word character is blank. -/
theorem isBlank_of_isWord {char : Char} (word : isWord char = true) : isBlank char = false := by
  rw [Bool.eq_false_iff]
  intro blank
  simp only [isBlank, CodeRange.containedIn_iff, blankRanges, CodeRange.single, List.mem_cons,
    List.not_mem_nil, or_false, exists_eq_or_imp, exists_eq_left] at blank
  -- Capital letters, small letters, digits and the underscore, spelled out by code point.
  change (decide ('A'.val ≤ char.val ∧ char.val ≤ 'Z'.val) ||
    (decide ('a'.val ≤ char.val) && decide (char.val ≤ 'z'.val)) ||
    (decide ('0'.val ≤ char.val) && decide (char.val ≤ '9'.val)) || char == '_') = true at word
  simp only [Bool.or_eq_true, Bool.and_eq_true, decide_eq_true_eq, beq_iff_eq,
    UInt32.le_iff_toNat_le] at word
  have value : char.val.toNat = char.toNat := rfl
  rcases word with letter | rfl
  · simp at letter
    omega
  · simp at blank

/-- A blank goes on with neither a name nor an arrow. -/
theorem isWord_of_isBlank {char : Char} (blank : isBlank char = true) :
    isWord char = false ∧ char ≠ ':' ∧ char ≠ '>' := by
  refine ⟨?_, ?_, ?_⟩
  · rw [Bool.eq_false_iff]
    intro word
    cases blank.symm.trans (isBlank_of_isWord word)
  · rintro rfl
    exact absurd blank (by decide)
  · rintro rfl
    exact absurd blank (by decide)

/-- A run of blanks is found exactly where the first character is blank. -/
theorem lexeme?_blank_eq_none_iff {char : Char} {rest : List Char} :
    TokenKind.blank.lexeme? (char :: rest) = none ↔ isBlank char = false := by
  cases blank : isBlank char <;> simp [TokenKind.lexeme?, leadingBlanks, blank, nonempty?]

/-- The kind of token that can begin with a character. -/
def leadingKind? (char : Char) : Option TokenKind :=
  match char with
  | '<' => some .openCollection
  | '>' => some .closeCollection
  | '(' => some .openFixed
  | ')' => some .closeFixed
  | ',' => some .separator
  | ';' => some .separator
  | '\x7b' => some .openHash
  | '=' => some .arrow
  | '\x7d' => some .closeHash
  | '#' => some .name
  | ':' => some .name
  | char => if isWord char then some .name else if isBlank char then some .blank else none

theorem leadingKind?_of_isWord {char : Char} (word : isWord char = true) :
    leadingKind? char = some .name := by
  unfold leadingKind?
  split
  case h_10 => rfl
  case h_11 => rfl
  case h_12 => rw [if_pos word]
  all_goals exact absurd word (by decide)

theorem leadingKind?_of_isBlank {char : Char} (blank : isBlank char = true) :
    leadingKind? char = some .blank := by
  have word : isWord char ≠ true := fun word => by simp [isBlank_of_isWord word] at blank
  unfold leadingKind?
  split
  case h_12 => rw [if_neg word, if_pos blank]
  all_goals exact absurd blank (by decide)

/-- The first character decides the kind of what is found. -/
theorem leadingKind?_of_lexeme? {kind : TokenKind} {char : Char} {rest lexeme : List Char}
    (found : kind.lexeme? (char :: rest) = some lexeme) : leadingKind? char = some kind := by
  have front := (TokenKind.lexeme?_eq_some found).1
  rcases lexeme?_cases found with mark | ⟨rfl, name⟩ | ⟨rfl, _⟩ | ⟨_, empty, _⟩
  · simp only [marks, List.mem_cons, Prod.mk.injEq, List.not_mem_nil, or_false] at mark
    rcases mark with ⟨rfl, rfl⟩ | ⟨rfl, rfl⟩ | ⟨rfl, rfl⟩ | ⟨rfl, rfl⟩ | ⟨rfl, rfl⟩ | ⟨rfl, rfl⟩ |
      ⟨rfl, rfl⟩ | ⟨rfl, rfl⟩ | ⟨rfl, rfl⟩ <;>
      obtain ⟨rfl, -⟩ := List.cons_prefix_cons.1 front <;> rfl
  · by_cases sign : char = '#' ∨ char = ':'
    · rcases sign with rfl | rfl <;> rfl
    · obtain ⟨number, colon⟩ := not_or.1 sign
      refine leadingKind?_of_isWord ?_
      by_contra word
      have none : name? (char :: rest) = none :=
        name?_eq_none_iff.2 ⟨by simp [number],
          qualifiedWords_cons_eq_nil (Bool.eq_false_iff.2 word) colon rest⟩
      cases none.symm.trans name
  · refine leadingKind?_of_isBlank ?_
    by_contra blank
    cases (lexeme?_blank_eq_none_iff.2 (Bool.eq_false_iff.2 blank)).symm.trans found
  · cases empty

/-- At most one kind of token has a lexeme at the front of a text. -/
theorem lexeme?_unique {kind kind' : TokenKind} {chars lexeme lexeme' : List Char}
    (found : kind.lexeme? chars = some lexeme) (found' : kind'.lexeme? chars = some lexeme') :
    kind = kind' := by
  cases chars with
  | nil =>
      have last : ∀ {kind : TokenKind} {lexeme : List Char}, kind.lexeme? [] = some lexeme →
          kind = .endOfInput := by
        intro kind lexeme found
        obtain ⟨front, empty⟩ := TokenKind.lexeme?_eq_some found
        exact empty.1 (List.prefix_nil.1 front)
      rw [last found, last found']
  | cons char rest =>
      exact Option.some.inj ((leadingKind?_of_lexeme? found).symm.trans
        (leadingKind?_of_lexeme? found'))

/-- The kind that is found first is the only one that can be found. -/
theorem lexemeAt?_eq_some_iff {chars lexeme : List Char} {kind : TokenKind} :
    lexemeAt? chars = some (kind, lexeme) ↔ kind.lexeme? chars = some lexeme := by
  refine ⟨lexemeAt?_eq_some, fun found => ?_⟩
  cases first : lexemeAt? chars with
  | none =>
      have missed := List.findSome?_eq_none_iff.1 first kind (TokenKind.mem_all kind)
      simp [found] at missed
  | some pair =>
      obtain ⟨kind', lexeme'⟩ := pair
      have found' := lexemeAt?_eq_some first
      obtain rfl := lexeme?_unique found found'
      rw [Option.some.inj (found.symm.trans found')]

/-- No token starts where no kind has a lexeme. -/
theorem lexemeAt?_eq_none_iff {chars : List Char} :
    lexemeAt? chars = none ↔ ∀ kind : TokenKind, kind.lexeme? chars = none := by
  simp [lexemeAt?, List.findSome?_eq_none_iff, TokenKind.mem_all]

/-- A lexeme is found again when the text behind it is exchanged for one that keeps names. -/
theorem lexeme?_exchange {kind : TokenKind} {lexeme between back back' : List Char}
    (shown : kind ≠ .blank) (more : kind ≠ .endOfInput) (keeps : KeepsNames back back')
    (found : kind.lexeme? (lexeme ++ (between ++ back)) = some lexeme) :
    kind.lexeme? (lexeme ++ (between ++ back')) = some lexeme := by
  rcases lexeme?_cases found with mark | ⟨rfl, name⟩ | ⟨rfl, _⟩ | ⟨rfl, _⟩
  · exact lexeme?_of_mem_marks mark _
  · exact keeps lexeme between name
  · exact absurd rfl shown
  · exact absurd rfl more

/-- A kind that is found at the front of a text is found when the text goes on, perhaps with
a longer lexeme. -/
theorem lexeme?_append {kind : TokenKind} {chars lexeme : List Char} (shown : kind ≠ .blank)
    (more : kind ≠ .endOfInput) (found : kind.lexeme? chars = some lexeme) (back : List Char) :
    ∃ lexeme', kind.lexeme? (chars ++ back) = some lexeme' := by
  rcases lexeme?_cases found with mark | ⟨rfl, name⟩ | ⟨rfl, _⟩ | ⟨rfl, _⟩
  · obtain ⟨rest, rfl⟩ := (TokenKind.lexeme?_eq_some found).1
    rw [List.append_assoc]
    exact ⟨lexeme, lexeme?_of_mem_marks mark _⟩
  · refine Option.ne_none_iff_exists'.1 fun missed => ?_
    obtain ⟨words, stops⟩ := name?_eq_none_iff.1 missed
    have before : name? chars = none := by
      refine name?_eq_none_iff.2 ⟨fun rest equal => ?_,
        qualifiedWords_eq_nil_of_isPrefix (List.prefix_append chars back) stops⟩
      exact beginsWord_of_isPrefix (List.prefix_append rest back)
        (words (rest ++ back) (by simp [equal]))
    cases before.symm.trans name
  · exact absurd rfl shown
  · exact absurd rfl more

/-- The texts that start no token and yet may start one when they go on. -/
def lexemeBeginnings : List (List Char) :=
  [['#'], [':'], [':', ':'], ['=']]

/-- Where no token starts, none starts when the text goes on, unless the whole text is the
beginning of a lexeme. -/
theorem lexemeAt?_append_eq_none {chars : List Char} (stuck : lexemeAt? chars = none)
    (settled : chars ∉ lexemeBeginnings) (more : List Char) : lexemeAt? (chars ++ more) = none := by
  rw [lexemeAt?_eq_none_iff] at stuck ⊢
  simp only [lexemeBeginnings, List.mem_cons, List.not_mem_nil, or_false, not_or] at settled
  obtain ⟨sign, colon, colons, equals⟩ := settled
  have filled : chars ≠ [] := by
    rintro rfl
    cases stuck .endOfInput
  intro kind
  by_contra some
  obtain ⟨lexeme, found⟩ := Option.ne_none_iff_exists'.1 some
  rcases lexeme?_cases found with mark | ⟨rfl, name⟩ | ⟨rfl, _⟩ | ⟨_, empty, _⟩
  · -- A mark that does not lie within the text is an arrow, of which the text is the first half.
    have front := (TokenKind.lexeme?_eq_some found).1
    rcases List.prefix_or_prefix_of_prefix front (List.prefix_append chars more) with
      ⟨back, rfl⟩ | shorter
    · cases (lexeme?_of_mem_marks mark back).symm.trans (stuck kind)
    · have whole : chars ≠ lexeme := by
        rintro rfl
        cases (lexeme?_of_mem_marks mark []).symm.trans (by simpa using stuck kind)
      simp only [marks, List.mem_cons, Prod.mk.injEq, List.not_mem_nil, or_false] at mark
      rcases mark with ⟨rfl, rfl⟩ | ⟨rfl, rfl⟩ | ⟨rfl, rfl⟩ | ⟨rfl, rfl⟩ | ⟨rfl, rfl⟩ |
        ⟨rfl, rfl⟩ | ⟨rfl, rfl⟩ | ⟨rfl, rfl⟩ | ⟨rfl, rfl⟩ <;>
        grind [List.prefix_cons_iff]
  · obtain ⟨words, stops⟩ := name?_eq_none_iff.1 (stuck .name)
    have none : name? (chars ++ more) = none := by
      refine name?_eq_none_iff.2
        ⟨fun rest equal => ?_, qualifiedWords_append_eq_nil filled colon colons stops more⟩
      cases chars with
      | nil => exact absurd rfl filled
      | cons char chars =>
          obtain ⟨rfl, rfl⟩ : char = '#' ∧ chars ++ more = rest := by simpa using equal
          have behind : chars ≠ [] := by simpa using sign
          rw [beginsWord_append behind]
          exact words chars rfl
    cases none.symm.trans name
  · cases chars with
    | nil => exact absurd rfl filled
    | cons char chars =>
        have blank := lexeme?_blank_eq_none_iff.1 (stuck .blank)
        cases (lexeme?_blank_eq_none_iff.2 blank).symm.trans found
  · exact filled (List.append_eq_nil_iff.1 empty).1

/-- Where no token starts, none starts when the text goes on with a character that goes on with
neither a name nor an arrow. -/
theorem lexemeAt?_append_cons {chars : List Char} {char : Char} (stuck : lexemeAt? chars = none)
    (word : isWord char = false) (colon : char ≠ ':') (angle : char ≠ '>') (more : List Char) :
    lexemeAt? (chars ++ char :: more) = none := by
  by_cases begun : chars ∈ lexemeBeginnings
  · simp only [lexemeBeginnings, List.mem_cons, List.not_mem_nil, or_false] at begun
    have colonWord : isWord ':' = false := by decide
    have equalsWord : isWord '=' = false := by decide
    refine lexemeAt?_eq_none_iff.2 fun kind => ?_
    cases kind
    case name =>
      rcases begun with rfl | rfl | rfl | rfl <;>
        simp [TokenKind.lexeme?, name?, qualifiedWords, nonempty?, word, colon, colonWord,
          equalsWord]
    case blank => rcases begun with rfl | rfl | rfl | rfl <;> rfl
    all_goals rcases begun with rfl | rfl | rfl | rfl <;> simp [TokenKind.lexeme?, angle]
  · exact lexemeAt?_append_eq_none stuck begun _

end TypeProse
