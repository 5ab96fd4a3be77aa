import TypeProse.Proofs.Respacing

/-!
# Either separator

A comma and a semicolon are the same to all but the words of a fault. Writing commas for all
semicolons (`asComma`) commutes with all that is done to a text: with looking for a lexeme, with
handing out a token, with taking it into account, and so with reading the whole text. Two texts
that differ in the choice of separators only become one text in this way. Together with what is
known about blanks, the layout of a text and the choice of its separators carry no meaning.
-/

namespace TypeProse

open Text

/-- The comma stands for both separators. -/
def asComma (char : Char) : Char :=
  if char = ';' then ',' else char

/-- Characters that may be written for one another: the two separators. -/
def Interchanges (char char' : Char) : Prop :=
  char = char' ∨ char ∈ [',', ';'] ∧ char' ∈ [',', ';']

/-- Only a semicolon changes. -/
theorem asComma_eq {char : Char} (other : char ≠ ';') : asComma char = char :=
  if_neg other

theorem Interchanges.asComma_eq {char char' : Char} (same : Interchanges char char') :
    asComma char = asComma char' := by
  rcases same with rfl | ⟨first, second⟩
  · rfl
  · simp only [List.mem_cons, List.not_mem_nil, or_false] at first second
    rcases first with rfl | rfl <;> rcases second with rfl | rfl <;> rfl

theorem map_asComma_eq_map {chars chars' : List Char}
    (same : List.Forall₂ Interchanges chars chars') :
    chars.map asComma = chars'.map asComma := by
  induction same with
  | nil => rfl
  | cons first _ ih => rw [List.map_cons, List.map_cons, first.asComma_eq, ih]

/-- A character remains in a class that has both separators or none. -/
theorem asComma_class {α : Type} (sort : Char → α) (same : sort ',' = sort ';') (char : Char) :
    sort (asComma char) = sort char := by
  by_cases semicolon : char = ';'
  · rw [semicolon]
    exact same
  · rw [asComma_eq semicolon]

@[simp] theorem isWord_asComma (char : Char) : isWord (asComma char) = isWord char :=
  asComma_class isWord (by decide) char

/-- A sign that is no separator is neither made nor lost. -/
theorem asComma_eq_iff {sign : Char} (comma : sign ≠ ',') (semicolon : sign ≠ ';') (char : Char) :
    asComma char = sign ↔ char = sign := by
  have same := asComma_class (fun char => decide (char = sign))
    (by simp [comma.symm, semicolon.symm]) char
  simpa using same

/-- Word characters are as they are. -/
theorem asComma_of_isWord {char : Char} (word : isWord char = true) : asComma char = char :=
  asComma_eq (by rintro rfl; cases word)

/-- Without a semicolon nothing changes. -/
theorem map_asComma_eq_self {chars : List Char} (other : ';' ∉ chars) :
    chars.map asComma = chars := by
  conv => rhs; rw [← List.map_id chars]
  exact List.map_congr_left fun char inside => asComma_eq fun equal => other (equal ▸ inside)

section Lexemes

theorem takeWhile_map_asComma {sort : Char → Bool} (same : sort ',' = sort ';')
    (chars : List Char) :
    (chars.map asComma).takeWhile sort = (chars.takeWhile sort).map asComma := by
  rw [List.takeWhile_map]
  congr 2
  exact funext (asComma_class sort same)

theorem qualifiedWords_map_asComma (chars : List Char) :
    qualifiedWords (chars.map asComma) = (qualifiedWords chars).map asComma := by
  fun_induction qualifiedWords chars with
  | case1 char rest word ih =>
      have colon : asComma ':' = ':' := rfl
      simp [colon, qualifiedWords, word, ih]
  | case2 char rest word =>
      have colon : asComma ':' = ':' := rfl
      simp [colon, qualifiedWords, word]
  | case3 char rest _ word ih =>
      rw [List.map_cons, List.map_cons, asComma_of_isWord word, qualifiedWords_cons word, ih]
  | case4 char rest shape word =>
      refine qualifiedWords_eq_nil_iff.2 ⟨by simpa [beginsWord] using word, ?_⟩
      intro behind colons
      have colon : ∀ char, asComma char = ':' ↔ char = ':' :=
        asComma_eq_iff (by decide) (by decide)
      -- A word behind a double colon would have made the case before.
      rcases rest with _ | ⟨second, _ | ⟨third, others⟩⟩
      · simp at colons
      · obtain ⟨-, -, rfl⟩ : _ ∧ _ ∧ [] = behind := by simpa using colons
        rfl
      · obtain ⟨first, next, -⟩ : asComma char = ':' ∧ asComma second = ':' ∧ _ := by
          simpa using colons
        rw [colon] at first next
        exact absurd (shape third others first (by rw [next])) id
  | case5 => rfl

theorem nonempty?_map_asComma (chars : List Char) :
    nonempty? (chars.map asComma) = (nonempty? chars).map (List.map asComma) := by
  cases chars <;> rfl

theorem name?_map_asComma (chars : List Char) :
    name? (chars.map asComma) = (name? chars).map (List.map asComma) := by
  cases chars with
  | nil => rfl
  | cons char rest =>
      by_cases sign : char = '#'
      · rw [sign, List.map_cons, show asComma '#' = '#' from rfl, name?, name?,
          takeWhile_map_asComma (by decide), nonempty?_map_asComma]
        cases nonempty? (rest.takeWhile isWord) <;> rfl
      · have sign' : asComma char ≠ '#' := fun equal =>
          sign ((asComma_eq_iff (by decide) (by decide) char).1 equal)
        rw [List.map_cons, name?.eq_2 _ (by simpa using sign'), name?.eq_2 _ (by simpa using sign),
          ← List.map_cons, qualifiedWords_map_asComma, nonempty?_map_asComma]

/-- With commas, marks are marks. -/
theorem map_asComma_mem_marks {kind : TokenKind} {lexeme : List Char}
    (mark : (kind, lexeme) ∈ marks) : (kind, lexeme.map asComma) ∈ marks := by
  have all : ∀ pair ∈ marks, (pair.1, pair.2.map asComma) ∈ marks := by decide
  exact all _ mark

/-- Only marks become marks. -/
theorem mem_marks_of_map_asComma {kind : TokenKind} {lexeme : List Char}
    (mark : (kind, lexeme.map asComma) ∈ marks) : (kind, lexeme) ∈ marks := by
  by_cases semicolon : ';' ∈ lexeme
  · have alone : ∀ pair ∈ marks, ',' ∈ pair.2 → pair = (.separator, [',']) := by decide
    obtain ⟨rfl, single⟩ := Prod.mk.inj (alone _ mark (List.mem_map.2 ⟨';', semicolon, rfl⟩))
    obtain ⟨char, rfl, -⟩ := List.map_eq_singleton_iff.1 single
    rw [← List.mem_singleton.1 semicolon]
    decide
  · rwa [map_asComma_eq_self semicolon] at mark

/-- The same lexeme is found, with commas in it. -/
theorem lexeme?_map_asComma (kind : TokenKind) (chars : List Char) :
    kind.lexeme? (chars.map asComma) = (kind.lexeme? chars).map (List.map asComma) := by
  by_cases named : kind = .name
  · rw [named]
    exact name?_map_asComma chars
  by_cases blank : kind = .blank
  · rw [blank]
    change nonempty? (leadingBlanks (chars.map asComma)) =
      (nonempty? (leadingBlanks chars)).map (List.map asComma)
    rw [leadingBlanks, takeWhile_map_asComma (by decide), nonempty?_map_asComma]
    rfl
  by_cases last : kind = .endOfInput
  · rw [last]
    cases chars <;> rfl
  -- What remains are the marks.
  ext found
  rw [Option.map_eq_some_iff]
  constructor
  · intro hit
    obtain ⟨rest, whole⟩ := (TokenKind.lexeme?_eq_some hit).1
    obtain ⟨lexeme, behind, rfl, rfl, -⟩ := List.map_eq_append_iff.1 whole.symm
    have mark := mem_marks_of_map_asComma (mem_marks_of_lexeme? hit named blank last)
    exact ⟨lexeme, lexeme?_of_mem_marks mark behind, rfl⟩
  · rintro ⟨lexeme, hit, rfl⟩
    obtain ⟨rest, rfl⟩ := (TokenKind.lexeme?_eq_some hit).1
    have mark := map_asComma_mem_marks (mem_marks_of_lexeme? hit named blank last)
    rw [List.map_append]
    exact lexeme?_of_mem_marks mark _

/-- The same kind of token is found, with commas in its lexeme. -/
theorem lexemeAt?_map_asComma (chars : List Char) :
    lexemeAt? (chars.map asComma) =
      (lexemeAt? chars).map fun found => (found.1, found.2.map asComma) := by
  unfold lexemeAt?
  rw [List.map_findSome?]
  congr 1
  funext kind
  rw [lexeme?_map_asComma]
  cases found : kind.lexeme? chars <;> simp [found]

end Lexemes

/-- The text with commas for semicolons. -/
def withCommas (text : String) : String :=
  String.ofList (text.toList.map asComma)

theorem withCommas_ofList (chars : List Char) :
    withCommas (String.ofList chars) = String.ofList (chars.map asComma) := by
  rw [withCommas, String.toList_ofList]

/-- The token with commas in its lexeme. -/
def Token.withCommas (token : Token) : Token :=
  { token with lexeme := TypeProse.withCommas token.lexeme }

/-- The fault with commas in what was found. -/
def Fault.withCommas : Fault → Fault
  | .invalidCharacter text location => .invalidCharacter (TypeProse.withCommas text) location
  | .duplicateName pending found => .duplicateName pending found.withCommas
  | .missingName found => .missingName found.withCommas
  | .mismatched expected found => .mismatched expected found.withCommas
  | .unclosed expected found => .unclosed expected found.withCommas
  | .duplicateSuffix name found => .duplicateSuffix name found.withCommas
  | .tooDeep location => .tooDeep location

@[simp] theorem Token.kind_withCommas (token : Token) : token.withCommas.kind = token.kind :=
  rfl

theorem Fault.code_withCommas (fault : Fault) : fault.withCommas.code = fault.code := by
  cases fault <;> rfl

theorem Fault.location_withCommas (fault : Fault) : fault.withCommas.location = fault.location := by
  cases fault <;> rfl

namespace Scanner

/-- The scanner of the text with commas. -/
def withCommas (scanner : Scanner) : Scanner :=
  { scanner with rest := scanner.rest.map asComma }

@[simp] theorem rest_withCommas (scanner : Scanner) :
    scanner.withCommas.rest = scanner.rest.map asComma :=
  rfl

@[simp] theorem location_withCommas (scanner : Scanner) :
    scanner.withCommas.location = scanner.location :=
  rfl

/-- Commas and semicolons count alike. -/
theorem past_map_asComma (cursor : Cursor) (chars : List Char) :
    cursor.past (chars.map asComma) = cursor.past chars := by
  rw [Cursor.past, List.foldl_map]
  congr 1
  funext cursor char
  exact asComma_class cursor.step rfl char

theorem advance_withCommas (scanner : Scanner) (count : Nat) :
    scanner.withCommas.advance count = (scanner.advance count).withCommas := by
  simp [advance, withCommas, ← List.map_take, ← List.map_drop, past_map_asComma]

theorem skipBlanks_withCommas (scanner : Scanner) :
    scanner.withCommas.skipBlanks = scanner.skipBlanks.withCommas := by
  have blanks : leadingBlanks (scanner.rest.map asComma) =
      (leadingBlanks scanner.rest).map asComma :=
    takeWhile_map_asComma (by decide) scanner.rest
  have count : (leadingBlanks scanner.withCommas.rest).length =
      (leadingBlanks scanner.rest).length := by
    rw [withCommas, blanks, List.length_map]
  rw [skipBlanks, count, advance_withCommas]
  rfl

/-- The next token is the same with commas. -/
theorem next_withCommas (scanner : Scanner) :
    scanner.withCommas.next =
      ((scanner.next.1.map Token.withCommas).mapError Fault.withCommas,
        scanner.next.2.withCommas) := by
  rw [next, skipBlanks_withCommas, next]
  generalize scanner.skipBlanks = here
  unfold nextHere
  rw [rest_withCommas, lexemeAt?_map_asComma]
  cases lexemeAt? here.rest with
  | none => simp [Except.map, Except.mapError, Fault.withCommas, withCommas_ofList, List.map_take]
  | some found =>
      simp [Except.map, Except.mapError, Token.withCommas, withCommas_ofList, advance_withCommas]

theorem next_withCommas_of_ok {scanner after : Scanner} {token : Token}
    (found : scanner.next = (.ok token, after)) :
    scanner.withCommas.next = (.ok token.withCommas, after.withCommas) := by
  rw [next_withCommas, found]
  rfl

/-- A name that is handed out has no separator in it. -/
theorem withCommas_of_name {scanner after : Scanner} {token : Token}
    (found : scanner.next = (.ok token, after)) (named : token.kind = .name) :
    token.withCommas = token := by
  rcases scanner.next_outcomes with ⟨_, _, next, _, one⟩ | ⟨_, _, next, last, _⟩ |
    ⟨_, _, _, next⟩
  · cases found.symm.trans next
    have fits := (one.matches token (List.mem_singleton_self token)).2
    rw [named] at fits
    have other : ';' ∉ token.lexeme.toList := by
      intro inside
      cases fits with
      | mark mark => simp [marks] at mark
      | name isName =>
          rcases isName.isWord_or_sign ';' inside with word | colon | sign
          · cases word
          · cases colon
          · cases sign
    rw [Token.withCommas, TypeProse.withCommas, map_asComma_eq_self other, String.ofList_toList]
  · cases found.symm.trans next
    cases named.symm.trans last
  · cases found.symm.trans next

end Scanner

/-- What becomes of a draft, with commas in the fault if there is one. -/
def Progress.withCommas : Progress → Progress
  | .rejected fault => .rejected fault.withCommas
  | progress => progress

namespace Draft

theorem openBracket_withCommas (draft : Draft) (bracket : Bracket) (token : Token) :
    draft.openBracket bracket token.withCommas =
      (draft.openBracket bracket token).withCommas := by
  unfold openBracket enter
  split
  · split <;> rfl
  · split <;> rfl
  · rfl

theorem terminate_withCommas (draft : Draft) (token : Token) :
    draft.terminate token.withCommas = (draft.terminate token).withCommas := by
  unfold terminate
  rw [Token.kind_withCommas]
  split
  · rfl
  · split
    · split <;> rfl
    · split <;> rfl

/-- Either separator does the same to a draft. -/
theorem step_withCommas (draft : Draft) {token : Token}
    (named : token.kind = .name → token.withCommas = token) :
    draft.step token.withCommas = (draft.step token).withCommas := by
  unfold step
  rw [Token.kind_withCommas]
  split
  case h_1 kind =>
    unfold addName
    split <;> simp [Progress.withCommas, Fault.withCommas, named kind]
  case h_2 =>
    unfold separate
    split <;> rfl
  case h_3 | h_4 | h_5 => exact draft.openBracket_withCommas _ token
  case h_6 => rfl
  all_goals exact draft.terminate_withCommas token

/-- What becomes of a draft with a token that is handed out becomes of it with commas, too. -/
theorem step_withCommas_of_next {draft : Draft} {scanner after : Scanner} {token : Token}
    {progress : Progress} (found : scanner.next = (.ok token, after))
    (steps : draft.step token = progress) :
    draft.step token.withCommas = progress.withCommas := by
  rw [draft.step_withCommas (Scanner.withCommas_of_name found), steps]

/-- With commas a text is read as it is without, and a fault has commas in it. -/
theorem read_withCommas (draft : Draft) (scanner : Scanner) :
    (draft.read scanner.withCommas).result =
      (draft.read scanner).result.mapError Fault.withCommas := by
  fun_induction Draft.read draft scanner with
  | case1 draft scanner fault after found =>
      have next := scanner.next_withCommas
      rw [found] at next
      rw [read_of_error next]
      rfl
  | case2 draft scanner token after found fault rejected =>
      rw [read_of_rejected (Scanner.next_withCommas_of_ok found)
        (step_withCommas_of_next found rejected)]
      rfl
  | case3 draft scanner token after found types complete =>
      rw [read_of_complete (Scanner.next_withCommas_of_ok found)
        (step_withCommas_of_next found complete)]
      rfl
  | case4 draft scanner token after found following goesOn _ _ ih =>
      rw [read_of_reading (Scanner.next_withCommas_of_ok found)
        (step_withCommas_of_next found goesOn)]
      exact ih

end Draft

/-- With commas a text lists the same types, or it has the fault with commas in it. -/
theorem parse_withCommas (text source : String) :
    parse (withCommas text) source = (parse text source).mapError Fault.withCommas := by
  have start : Scanner.start (withCommas text) source =
      (Scanner.start text source).withCommas := by
    rw [Scanner.start, withCommas, String.toList_ofList]
    rfl
  rw [parse, readText, start]
  exact Draft.empty.read_withCommas _

/-- What is known of a fault apart from its words: its code and its place. -/
def Fault.verdict (fault : Fault) : FaultCode × Location :=
  (fault.code, fault.location)

/-- Either separator may be written for the other. -/
theorem parse_interchanged {text text' : String}
    (same : List.Forall₂ Interchanges text.toList text'.toList) (source : String) :
    (parse text' source).mapError Fault.verdict = (parse text source).mapError Fault.verdict := by
  have shown : ∀ text, (parse text source).mapError Fault.verdict =
      (parse (withCommas text) source).mapError Fault.verdict := by
    intro text
    rw [parse_withCommas]
    cases parse text source with
    | ok => rfl
    | error fault =>
        simp [Except.mapError, Fault.verdict, Fault.code_withCommas, Fault.location_withCommas]
  rw [shown text, shown text', withCommas, withCommas, map_asComma_eq_map same]

/-- The layout of a text and the choice of its separators carry no meaning. If a text lists
types, any blanks may be taken out of it, and any blanks may be put in where they are not strictly
inside a token, and the text lists the same types. So texts that list types and differ in their
blanks only list the same. And in every text, commas and semicolons may be written for one
another: it lists the same types, or it has a fault with the same code at the same place. -/
theorem layout_carries_no_meaning (text text' source : String) :
    (∀ types, parse text source = .ok types →
      Respaces (IsInsideToken text source) 0 text.toList text'.toList →
      parse text' source = .ok types) ∧
    (∀ types types', parse text source = .ok types → parse text' source = .ok types' →
      text.toList.filter (fun char => !isBlank char) =
        text'.toList.filter (fun char => !isBlank char) → types = types') ∧
    (List.Forall₂ Interchanges text.toList text'.toList →
      (parse text' source).mapError Fault.verdict =
        (parse text source).mapError Fault.verdict) := by
  refine ⟨?_, ?_, ?_⟩
  · exact fun types read respaces => parse_respaced read respaces source
  · exact fun types types' => types_eq_of_same_signs
  · exact fun same => parse_interchanged same source

/-- A blank is moved behind a separator, and one of two separators is exchanged. -/
theorem layout_of_two_texts :
    parse "A, b" "t" = .ok [.simple "A", .simple "b"] ∧
    (parse "A;,b" "t").mapError Fault.verdict = .error (.missingName, ⟨"t", 1, 3, 2⟩) := by
  have read : parse "A ,b" "t" = .ok [.simple "A", .simple "b"] := by decide +kernel
  have cut : tokenize "A ,b" "t" =
      .ok [⟨.name, "A", ⟨"t", 1, 1, 0⟩⟩, ⟨.separator, ",", ⟨"t", 1, 3, 2⟩⟩,
        ⟨.name, "b", ⟨"t", 1, 4, 3⟩⟩, ⟨.endOfInput, "", ⟨"t", 1, 5, 4⟩⟩] := by
    decide +kernel
  have failed : (parse "A,,b" "t").mapError Fault.verdict =
      .error (.missingName, ⟨"t", 1, 3, 2⟩) := by
    decide +kernel
  constructor
  · refine (layout_carries_no_meaning "A ,b" "A, b" "t").1 _ read ?_
    have free : ¬ IsInsideToken "A ,b" "t" 3 := by
      rintro ⟨tokens, cut', token, member, low, high⟩
      cases cut.symm.trans cut'
      simp only [List.mem_cons, List.not_mem_nil, or_false] at member
      rcases member with rfl | rfl | rfl | rfl
      · exact absurd high (by decide)
      · exact absurd high (by decide)
      · exact absurd low (by decide)
      · exact absurd low (by decide)
    exact .keep 'A' (.delete rfl (.keep ',' (.insert rfl free (.keep 'b' (.done 4)))))
  · refine ((layout_carries_no_meaning "A,,b" "A;,b" "t").2.2 ?_).trans failed
    exact .cons (.inl rfl) (.cons (.inr (by decide)) (.cons (.inl rfl) (.cons (.inl rfl) .nil)))

end TypeProse
