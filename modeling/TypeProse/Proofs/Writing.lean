import TypeProse.Proofs.Recognition

/-!
# Writing types as text

`WritesList` relates a list of types to every text in which it can be written: with
any blanks between, before and after the tokens, with either separator, and with or
without the name of a collection that has its default name. Each such text of
well-formed types is read back as these types, and only well-formed types are ever
read.
-/

namespace TypeProse

open Text TypeExpr

/-- Zero or more blanks. -/
def AreBlanks (chars : List Char) : Prop :=
  ∀ char ∈ chars, isBlank char = true

instance (chars : List Char) : Decidable (AreBlanks chars) :=
  decidable_of_iff (chars.all isBlank = true) List.all_eq_true

/-- What may stand before a bracket: the name, or nothing for the default name. -/
inductive WritesHead (bracket : Bracket) : String → List Char → Prop where
  | written {name : String} {before after : List Char} (ahead : AreBlanks before)
      (behind : AreBlanks after) : WritesHead bracket name (before ++ (name.toList ++ after))
  | omitted {blanks : List Char} (ahead : AreBlanks blanks) :
      WritesHead bracket bracket.defaultName blanks

mutual

/-- The texts of one or more types with a separator between any two. -/
inductive WritesList : List TypeExpr → List Char → Prop where
  | last {type : TypeExpr} {chars : List Char} (first : Writes type chars) :
      WritesList [type] chars
  | next {type : TypeExpr} {types : List TypeExpr} {front back : List Char} {separator : Char}
      (first : Writes type front) (separates : separator = ',' ∨ separator = ';')
      (rest : WritesList types back) : WritesList (type :: types) (front ++ separator :: back)

/-- The texts of a type, with the blanks around it. -/
inductive Writes : TypeExpr → List Char → Prop where
  | simple {name : String} {before after : List Char} (ahead : AreBlanks before)
      (behind : AreBlanks after) : Writes (.simple name) (before ++ (name.toList ++ after))
  | collection {name : String} {types : List TypeExpr} {head inside after : List Char}
      (heads : WritesHead .collection name head) (list : WritesList types inside)
      (behind : AreBlanks after) :
      Writes (.collection name types) (head ++ '<' :: (inside ++ '>' :: after))
  | fixedCollection {name : String} {types : List TypeExpr} {head inside after : List Char}
      (heads : WritesHead .fixed name head) (list : WritesList types inside)
      (behind : AreBlanks after) :
      Writes (.fixedCollection name types) (head ++ '(' :: (inside ++ ')' :: after))
  | hashCollection {name : String} {keys values : List TypeExpr}
      {head first second after : List Char} (heads : WritesHead .hashKeys name head)
      (keyList : WritesList keys first) (valueList : WritesList values second)
      (behind : AreBlanks after) :
      Writes (.hashCollection name keys values)
        (head ++ '\x7b' :: (first ++ '=' :: '>' :: (second ++ '\x7d' :: after)))

end

/-- The lists of types directly inside a type. -/
def TypeExpr.memberLists : TypeExpr → List (List TypeExpr)
  | .simple _ => []
  | .collection _ types => [types]
  | .fixedCollection _ types => [types]
  | .hashCollection _ keys values => [keys, values]

/-- Types that can be written: there is at least one in every list of them, every name in
them is one, and they fit under the nesting limit. -/
structure WellFormed (types : List TypeExpr) : Prop where
  filled : types ≠ []
  named : ∀ type ∈ walkAll types, IsName type.name.toList
  peopled : ∀ type ∈ walkAll types, ∀ list ∈ type.memberLists, list ≠ []
  fits : depthAll types ≤ Draft.nestingLimit

/-- No qualified words begin with a blank, or behind blanks where none begin. -/
theorem qualifiedWords_blanks_append {blanks back : List Char} (blank : AreBlanks blanks)
    (stops : qualifiedWords back = []) : qualifiedWords (blanks ++ back) = [] := by
  cases blanks with
  | nil => exact stops
  | cons char blanks =>
      obtain ⟨word, colon, -⟩ := isWord_of_isBlank (blank char (by simp))
      exact qualifiedWords_cons_eq_nil word colon _

namespace Scanner

/-- Blanks are passed. -/
theorem Yields.of_blanks {source : String} {cursor : Cursor} {blanks : List Char}
    (blank : AreBlanks blanks) (back : List Char) :
    Yields ⟨source, cursor, blanks ++ back⟩ [] ⟨source, cursor.past blanks, back⟩ := by
  induction blanks generalizing cursor with
  | nil => exact .here _
  | cons char blanks ih =>
      obtain ⟨first, others⟩ := List.forall_mem_cons.1 blank
      exact .blank first (ih others)

/-- From here the scanner comes to the given unread text with tokens of a certain sort. -/
def Comes (scanner : Scanner) (back : List Char) (sort : List Token → Prop) : Prop :=
  ∃ tokens cursor, scanner.Yields tokens ⟨scanner.source, cursor, back⟩ ∧ sort tokens

end Scanner

open Scanner

/-- What stands before a bracket is cut into the tokens of a pending type that can be its
head. -/
theorem WritesHead.yields {bracket : Bracket} {name : String} {head back : List Char}
    (source : String) (cursor : Cursor) (heads : WritesHead bracket name head)
    (isName : IsName name.toList) (stops : qualifiedWords back = []) :
    Comes ⟨source, cursor, head ++ back⟩ back fun tokens =>
      ∃ pending : Pending, pending.Spells tokens ∧ pending.head? bracket = some name := by
  cases heads with
  | @written _ before after ahead behind =>
      obtain ⟨token, kind, rfl, named⟩ := Yields.of_name source (cursor.past before) isName
        (qualifiedWords_blanks_append behind stops)
      have yields := (Yields.of_blanks ahead _).trans (named.trans (Yields.of_blanks behind back))
      exact ⟨_, _, by simpa using yields, .name token.lexeme, .name kind, rfl⟩
  | omitted ahead => exact ⟨[], _, Yields.of_blanks ahead back, .empty, .empty, rfl⟩

/-- A head, the brackets behind it and the blanks behind them are cut into the tokens of a
type. -/
theorem WritesHead.yields_suffix {name : String} {head rest after back : List Char}
    (suffix : Suffix) (source : String) (cursor : Cursor)
    (heads : WritesHead suffix.bracket name head) (isName : IsName name.toList)
    (stops : qualifiedWords rest = []) (behind : AreBlanks after)
    (suffixed : ∀ cursor, Comes ⟨source, cursor, rest⟩ (after ++ back) (IsSuffix · suffix)) :
    Comes ⟨source, cursor, head ++ rest⟩ back (IsTypeSpec · (suffix.named name)) := by
  obtain ⟨front, cursor', headed, pending, spells, head⟩ := heads.yields source cursor isName stops
  obtain ⟨tokens, cursor'', opened, isSuffix⟩ := suffixed cursor'
  have yields := headed.trans (opened.trans (Yields.of_blanks behind back))
  exact ⟨front ++ tokens, _, by simpa using yields, spells.isTypeSpec_append isSuffix head⟩

/-- A list of types and the closer behind it are cut into their tokens. -/
theorem Scanner.Comes.closed {source : String} {cursor : Cursor} {chars lexeme back : List Char}
    {types : List TypeExpr} {kind : TokenKind} (mark : (kind, lexeme) ∈ marks)
    (inner : Comes ⟨source, cursor, chars ++ (lexeme ++ back)⟩ (lexeme ++ back)
      (IsTypeList · types)) :
    ∃ inside closer cursor', IsTypeList inside types ∧ closer.kind = kind ∧
      Yields ⟨source, cursor, chars ++ (lexeme ++ back)⟩ (inside ++ [closer])
        ⟨source, cursor', back⟩ := by
  obtain ⟨inside, cursor', yields, list⟩ := inner
  obtain ⟨closer, closes, closed⟩ := Yields.of_mark source cursor' mark back
  exact ⟨inside, closer, _, list, closes, yields.trans closed⟩

/-- A list of types with a bracket on either side is cut into their tokens. -/
theorem Scanner.Comes.enclosed {source : String} {inside opening closing back : List Char}
    {types : List TypeExpr} {kind kind' : TokenKind} (cursor : Cursor)
    (opens : (kind, opening) ∈ marks) (closes : (kind', closing) ∈ marks)
    (inner : ∀ cursor, Comes ⟨source, cursor, inside ++ (closing ++ back)⟩ (closing ++ back)
      (IsTypeList · types)) :
    Comes ⟨source, cursor, opening ++ (inside ++ (closing ++ back))⟩ back fun tokens =>
      ∃ opener list closer, tokens = opener :: (list ++ [closer]) ∧ opener.kind = kind ∧
        IsTypeList list types ∧ closer.kind = kind' := by
  obtain ⟨opener, opens, opened⟩ :=
    Yields.of_mark source cursor opens (inside ++ (closing ++ back))
  obtain ⟨list, closer, cursor', isList, closes, closed⟩ := Comes.closed closes (inner _)
  exact ⟨_, cursor', opened.trans closed, opener, list, closer, rfl, opens, isList, closes⟩

mutual

/-- A text in which well-named types are written is cut into tokens that derive them. -/
theorem WritesList.yields {types : List TypeExpr} {chars back : List Char} (source : String)
    (cursor : Cursor) :
    WritesList types chars → (∀ type ∈ walkAll types, IsName type.name.toList) →
      qualifiedWords back = [] →
      Comes ⟨source, cursor, chars ++ back⟩ back (IsTypeList · types)
  | .last first, named, stops => by
      obtain ⟨tokens, cursor', yields, spec⟩ :=
        first.yields source cursor (by simpa [walkAll] using named) stops
      exact ⟨tokens, cursor', yields, .last spec⟩
  | @WritesList.next type types front rest separator first separates others, named, stops => by
      simp only [walkAll, List.forall_mem_append] at named
      have mark : (TokenKind.separator, [separator]) ∈ marks := by
        rcases separates with rfl | rfl <;> decide
      have ends := qualifiedWords_mark_append mark (rest ++ back)
      obtain ⟨tokens, cursor', yields, spec⟩ := first.yields source cursor named.1 ends
      obtain ⟨token, kind, separated⟩ := Yields.of_mark source cursor' mark (rest ++ back)
      obtain ⟨tokens', cursor'', behind, list⟩ := others.yields source _ named.2 stops
      have whole := yields.trans (separated.trans behind)
      exact ⟨_, cursor'', by simpa using whole, .next spec kind list⟩

/-- A text in which a well-named type is written is cut into tokens that derive it. -/
theorem Writes.yields {type : TypeExpr} {chars back : List Char} (source : String)
    (cursor : Cursor) :
    Writes type chars → (∀ inner ∈ type.walk, IsName inner.name.toList) →
      qualifiedWords back = [] →
      Comes ⟨source, cursor, chars ++ back⟩ back (IsTypeSpec · type)
  | @Writes.simple name before after ahead behind, named, stops => by
      have isName : IsName name.toList := named (.simple name) (by simp [walk])
      obtain ⟨token, kind, rfl, found⟩ := Yields.of_name source (cursor.past before) isName
        (qualifiedWords_blanks_append behind stops)
      have yields := (Yields.of_blanks ahead _).trans (found.trans (Yields.of_blanks behind back))
      exact ⟨_, _, by simpa using yields, .name kind⟩
  | @Writes.collection name types _ inside after heads list behind, named, stops => by
      simp only [walk, List.forall_mem_cons] at named
      simp only [List.append_assoc, List.cons_append]
      have opening : (TokenKind.openCollection, ['<']) ∈ marks := by decide
      have closing : (TokenKind.closeCollection, ['>']) ∈ marks := by decide
      refine WritesHead.yields_suffix (.collection types) source cursor heads named.1
        (qualifiedWords_mark_append opening _) behind fun cursor => ?_
      obtain ⟨_, cursor', yields, opener, tokens, closer, rfl, opens, isList, closes⟩ :=
        Comes.enclosed cursor opening closing fun cursor =>
          list.yields source cursor named.2 (qualifiedWords_mark_append closing (after ++ back))
      exact ⟨_, cursor', yields, .collection opens isList closes⟩
  | @Writes.fixedCollection name types _ inside after heads list behind, named, stops => by
      simp only [walk, List.forall_mem_cons] at named
      simp only [List.append_assoc, List.cons_append]
      have opening : (TokenKind.openFixed, ['(']) ∈ marks := by decide
      have closing : (TokenKind.closeFixed, [')']) ∈ marks := by decide
      refine WritesHead.yields_suffix (.fixed types) source cursor heads named.1
        (qualifiedWords_mark_append opening _) behind fun cursor => ?_
      obtain ⟨_, cursor', yields, opener, tokens, closer, rfl, opens, isList, closes⟩ :=
        Comes.enclosed cursor opening closing fun cursor =>
          list.yields source cursor named.2 (qualifiedWords_mark_append closing (after ++ back))
      exact ⟨_, cursor', yields, .fixed opens isList closes⟩
  | @Writes.hashCollection name keys values _ first second after heads keyList valueList behind,
      named, stops => by
      simp only [walk, List.forall_mem_cons, List.forall_mem_append] at named
      simp only [List.append_assoc, List.cons_append]
      have opening : (TokenKind.openHash, ['\x7b']) ∈ marks := by decide
      have pointing : (TokenKind.arrow, ['=', '>']) ∈ marks := by decide
      have closing : (TokenKind.closeHash, ['\x7d']) ∈ marks := by decide
      refine WritesHead.yields_suffix (.hash keys values) source cursor heads named.1
        (qualifiedWords_mark_append opening _) behind fun cursor => ?_
      obtain ⟨opener, opens, opened⟩ := Yields.of_mark source cursor opening
        (first ++ '=' :: '>' :: (second ++ '\x7d' :: (after ++ back)))
      obtain ⟨keyTokens, arrow, cursor', isKeys, points, pointed⟩ := Comes.closed pointing
        (keyList.yields source _ named.2.1
          (qualifiedWords_mark_append pointing (second ++ '\x7d' :: (after ++ back))))
      obtain ⟨valueTokens, closer, cursor'', isValues, closes, closed⟩ := Comes.closed closing
        (valueList.yields source cursor' named.2.2
          (qualifiedWords_mark_append closing (after ++ back)))
      have yields := opened.trans (pointed.trans closed)
      exact ⟨_, _, by simpa using yields, .hash opens isKeys points isValues closes⟩

end

/-- The tokens of kind name that a scanner hands out are names. -/
theorem Scanner.Yields.isName {scanner after : Scanner} {tokens : List Token}
    (yields : scanner.Yields tokens after) :
    ∀ token ∈ tokens, token.kind = .name → IsName token.lexeme.toList := by
  induction yields with
  | here => simp
  | blank _ _ ih => exact ih
  | token found _ _ _ ih =>
      refine List.forall_mem_cons.2 ⟨fun kind => ?_, ih⟩
      obtain rfl : _ = TokenKind.name := kind
      rw [String.toList_ofList]
      exact isName_of_name? found

/-- The default names are names. -/
theorem Bracket.isName_defaultName (bracket : Bracket) : IsName bracket.defaultName.toList := by
  have array : IsName "Array".toList := .path (.word (by decide))
  have hash : IsName "Hash".toList := .path (.word (by decide))
  cases bracket with
  | collection | fixed => exact array
  | hashKeys | hashValues => exact hash

/-- Whether the name of a type is a name, and no list inside the type is empty. -/
def TypeExpr.IsRegular (type : TypeExpr) : Prop :=
  IsName type.name.toList ∧ ∀ list ∈ type.memberLists, list ≠ []

mutual

/-- Types that are derived from tokens with proper names are regular throughout. -/
theorem IsTypeList.regular {tokens : List Token} {types : List TypeExpr} :
    IsTypeList tokens types →
      (∀ token ∈ tokens, token.kind = .name → IsName token.lexeme.toList) →
      types ≠ [] ∧ ∀ type ∈ walkAll types, type.IsRegular
  | .last spec, named => by
      refine ⟨by simp, ?_⟩
      simpa [walkAll] using spec.regular named
  | .next spec _ rest, named => by
      simp only [List.forall_mem_append, List.forall_mem_cons] at named
      refine ⟨by simp, ?_⟩
      simp only [walkAll, List.forall_mem_append]
      exact ⟨spec.regular named.1, (rest.regular named.2.2).2⟩

theorem IsTypeSpec.regular {tokens : List Token} {type : TypeExpr} :
    IsTypeSpec tokens type →
      (∀ token ∈ tokens, token.kind = .name → IsName token.lexeme.toList) →
      ∀ inner ∈ type.walk, inner.IsRegular
  | .name names, named => by
      simp only [walk, List.forall_mem_singleton]
      exact ⟨named _ (by simp) names, by simp [memberLists]⟩
  | .named names body, named => by
      obtain ⟨first, others⟩ := List.forall_mem_cons.1 named
      exact body.regular (first names) others
  | .unnamed body, named => body.regular (Bracket.isName_defaultName _) named

theorem IsSuffix.regular {tokens : List Token} {suffix : Suffix} {name : String} :
    IsSuffix tokens suffix → IsName name.toList →
      (∀ token ∈ tokens, token.kind = .name → IsName token.lexeme.toList) →
      ∀ inner ∈ (suffix.named name).walk, inner.IsRegular
  | .collection _ list _, isName, named => by
      simp only [List.forall_mem_append, List.forall_mem_cons] at named
      obtain ⟨filled, inside⟩ := list.regular named.2.1
      simp only [Suffix.named, walk, List.forall_mem_cons]
      exact ⟨⟨isName, by simpa [memberLists] using filled⟩, inside⟩
  | .fixed _ list _, isName, named => by
      simp only [List.forall_mem_append, List.forall_mem_cons] at named
      obtain ⟨filled, inside⟩ := list.regular named.2.1
      simp only [Suffix.named, walk, List.forall_mem_cons]
      exact ⟨⟨isName, by simpa [memberLists] using filled⟩, inside⟩
  | .hash _ keyList _ valueList _, isName, named => by
      simp only [List.forall_mem_append, List.forall_mem_cons] at named
      obtain ⟨someKeys, keys⟩ := keyList.regular named.2.1
      obtain ⟨someValues, values⟩ := valueList.regular named.2.2.2.1
      simp only [Suffix.named, walk, List.forall_mem_cons, List.forall_mem_append]
      exact ⟨⟨isName, by simp [memberLists, someKeys, someValues]⟩, keys, values⟩

end

/-- Any name can be written before a bracket. -/
theorem exists_writesHead (bracket : Bracket) (name : String) :
    ∃ head, WritesHead bracket name head :=
  ⟨[] ++ (name.toList ++ []), .written (by decide) (by decide)⟩

mutual

/-- Every type without empty lists inside can be written. -/
theorem exists_writes : (type : TypeExpr) →
    (∀ inner ∈ type.walk, ∀ list ∈ inner.memberLists, list ≠ []) → ∃ chars, Writes type chars
  | .simple name, _ =>
      ⟨[] ++ (name.toList ++ []), .simple (by decide) (by decide)⟩
  | .collection name types, peopled => by
      simp only [walk, List.forall_mem_cons, memberLists] at peopled
      obtain ⟨head, heads⟩ := exists_writesHead .collection name
      obtain ⟨inside, list⟩ := exists_writesList types peopled.1.1 peopled.2
      have none : AreBlanks [] := by decide
      exact ⟨_, .collection heads list none⟩
  | .fixedCollection name types, peopled => by
      simp only [walk, List.forall_mem_cons, memberLists] at peopled
      obtain ⟨head, heads⟩ := exists_writesHead .fixed name
      obtain ⟨inside, list⟩ := exists_writesList types peopled.1.1 peopled.2
      have none : AreBlanks [] := by decide
      exact ⟨_, .fixedCollection heads list none⟩
  | .hashCollection name keys values, peopled => by
      simp only [walk, List.forall_mem_cons, List.forall_mem_append, memberLists] at peopled
      obtain ⟨head, heads⟩ := exists_writesHead .hashKeys name
      obtain ⟨first, keyList⟩ := exists_writesList keys peopled.1.1 peopled.2.1
      obtain ⟨second, valueList⟩ := exists_writesList values peopled.1.2.1 peopled.2.2
      have none : AreBlanks [] := by decide
      exact ⟨_, .hashCollection heads keyList valueList none⟩

theorem exists_writesList : (types : List TypeExpr) → types ≠ [] →
    (∀ inner ∈ walkAll types, ∀ list ∈ inner.memberLists, list ≠ []) →
    ∃ chars, WritesList types chars
  | [], filled, _ => absurd rfl filled
  | [type], _, peopled => by
      simp only [walkAll, List.forall_mem_append] at peopled
      obtain ⟨chars, first⟩ := exists_writes type peopled.1
      exact ⟨chars, .last first⟩
  | type :: second :: types, _, peopled => by
      rw [walkAll, List.forall_mem_append] at peopled
      obtain ⟨front, first⟩ := exists_writes type peopled.1
      obtain ⟨back, rest⟩ := exists_writesList (second :: types) (by simp) peopled.2
      exact ⟨_, .next first (.inl rfl) rest⟩

end

/-- A text in which well-formed types are written is read as them. -/
theorem WellFormed.parse_eq {types : List TypeExpr} {chars : List Char}
    (formed : WellFormed types) (written : WritesList types chars) (source : String) :
    parse (String.ofList chars) source = .ok types := by
  have ends : qualifiedWords [] = [] := rfl
  obtain ⟨tokens, cursor, yields, list⟩ := written.yields source .start formed.named ends
  rw [List.append_nil] at yields
  rw [parse_eq_ok_iff, Scanner.start, String.toList_ofList]
  exact ⟨tokens, cursor, yields, list, formed.fits⟩

/-- Only well-formed types are read. -/
theorem wellFormed_of_parse_eq {text source : String} {types : List TypeExpr}
    (read : parse text source = .ok types) : WellFormed types := by
  obtain ⟨tokens, cursor, yields, list, fits⟩ := parse_eq_ok_iff.1 read
  obtain ⟨filled, regular⟩ := list.regular yields.isName
  exact ⟨filled, fun type inside => (regular type inside).1,
    fun type inside => (regular type inside).2, fits⟩

/-- However well-formed types are written, reading the text gives them back, and the
well-formed types are exactly those that reading some text gives. -/
theorem parse_written_eq_ok (source : String) :
    (∀ types chars, WellFormed types → WritesList types chars →
      parse (String.ofList chars) source = .ok types) ∧
    ∀ types, WellFormed types ↔ ∃ text, parse text source = .ok types := by
  refine ⟨fun types chars formed written => formed.parse_eq written source, fun types => ?_⟩
  constructor
  · intro formed
    obtain ⟨chars, written⟩ := exists_writesList types formed.filled formed.peopled
    exact ⟨_, formed.parse_eq written source⟩
  · rintro ⟨text, read⟩
    exact wellFormed_of_parse_eq read

/-- A member name, an arrow right before an unnamed collection, qualified names, both
separators, and blanks of several sorts. -/
theorem parse_written_hash :
    WellFormed [.hashCollection "Hash" [.simple "#a"]
      [.collection "Array" [.simple "::B", .simple "C::D"]]] ∧
    parse "\tHash \x7b #a=><::B ;C::D>\n\x7d" unnamedSource =
      .ok [.hashCollection "Hash" [.simple "#a"]
        [.collection "Array" [.simple "::B", .simple "C::D"]]] := by
  have formed : WellFormed [.hashCollection "Hash" [.simple "#a"]
      [.collection "Array" [.simple "::B", .simple "C::D"]]] := by
    refine ⟨by simp, ?_, by simp [walkAll, walk, memberLists], by decide⟩
    simp only [walkAll, walk, List.append_nil, List.cons_append, List.nil_append,
      List.forall_mem_cons, TypeExpr.name]
    have joined : IsPath (['C'] ++ ':' :: ':' :: ['D']) := .joined (by decide) (.word (by decide))
    exact ⟨Bracket.isName_defaultName .hashKeys, .method (by decide),
      Bracket.isName_defaultName .collection, .rooted (.word (by decide)), .path joined, by simp⟩
  have none : AreBlanks [] := by decide
  have space : AreBlanks [' '] := by decide
  have line : AreBlanks ['\n'] := by decide
  have tab : AreBlanks ['\t'] := by decide
  have array : Writes (.collection "Array" [.simple "::B", .simple "C::D"]) _ :=
    .collection (.omitted none) (.next (.simple none space) (.inr rfl) (.last (.simple none none)))
      line
  have hash : Writes (.hashCollection "Hash" [.simple "#a"] _) _ :=
    .hashCollection (.written tab space) (.last (.simple space none)) (.last array) none
  exact ⟨formed, (parse_written_eq_ok unnamedSource).1 _ _ formed (.last hash)⟩

end TypeProse
