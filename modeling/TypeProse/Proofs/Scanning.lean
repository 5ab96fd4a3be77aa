import TypeProse.Proofs.Lexeme
import TypeProse.Scanner

/-!
# Scanning step by step

`Scanner.Yields` relates a scanner to each place that it comes to by passing blanks
and handing out tokens, and to the tokens that it hands out on the way. `next` and
`tokenize` are described by it. Along such a path the unread text may be exchanged
for any other text that keeps names, in particular for a shorter or a longer one, and
the tokens on the way remain the same, with their places.
-/

namespace TypeProse

open Text

namespace Cursor

@[simp] theorem past_nil (cursor : Cursor) : cursor.past [] = cursor :=
  rfl

@[simp] theorem past_cons (cursor : Cursor) (char : Char) (chars : List Char) :
    cursor.past (char :: chars) = (cursor.step char).past chars :=
  rfl

theorem past_append (cursor : Cursor) (front back : List Char) :
    cursor.past (front ++ back) = (cursor.past front).past back :=
  List.foldl_append

/-- The offset counts the characters that were passed. -/
theorem offset_past (cursor : Cursor) (chars : List Char) :
    (cursor.past chars).offset = cursor.offset + chars.length := by
  induction chars generalizing cursor with
  | nil => rfl
  | cons char chars ih =>
      have one : (cursor.step char).offset = cursor.offset + 1 := by
        unfold step
        split <;> rfl
      rw [past_cons, ih, one, List.length_cons]
      omega

end Cursor

namespace Scanner

/-- Zero or more tokens that a scanner hands out before the end of input, with the blanks
between them passed one by one, and the scanner after them. -/
inductive Yields : Scanner → List Token → Scanner → Prop where
  | here (scanner : Scanner) : Yields scanner [] scanner
  | blank {source : String} {cursor : Cursor} {char : Char} {rest : List Char}
      {tokens : List Token} {after : Scanner} (blank : isBlank char = true)
      (behind : Yields ⟨source, cursor.step char, rest⟩ tokens after) :
      Yields ⟨source, cursor, char :: rest⟩ tokens after
  | token {source : String} {cursor : Cursor} {kind : TokenKind} {lexeme rest : List Char}
      {tokens : List Token} {after : Scanner}
      (found : kind.lexeme? (lexeme ++ rest) = some lexeme)
      (shown : kind ≠ .blank) (more : kind ≠ .endOfInput)
      (behind : Yields ⟨source, cursor.past lexeme, rest⟩ tokens after) :
      Yields ⟨source, cursor, lexeme ++ rest⟩
        (⟨kind, String.ofList lexeme, ⟨source, cursor.line, cursor.column, cursor.offset⟩⟩ ::
          tokens) after

/-- Passing the characters in front leaves the rest. -/
theorem advance_length {source : String} {cursor : Cursor} (front back : List Char) :
    (Scanner.mk source cursor (front ++ back)).advance front.length =
      ⟨source, cursor.past front, back⟩ := by
  simp [advance]

/-- A blank in front does not change the next token. -/
theorem next_blank {source : String} {cursor : Cursor} {char : Char} (blank : isBlank char = true)
    (rest : List Char) :
    (Scanner.mk source cursor (char :: rest)).next =
      (Scanner.mk source (cursor.step char) rest).next := by
  simp [next, skipBlanks, leadingBlanks, advance, blank]

/-- Where the first character is not blank, no blanks are passed. -/
theorem skipBlanks_eq_self {scanner : Scanner}
    (stops : TokenKind.blank.lexeme? scanner.rest = none) : scanner.skipBlanks = scanner := by
  obtain ⟨source, cursor, rest⟩ := scanner
  cases rest with
  | nil => rfl
  | cons char rest =>
      have blank := lexeme?_blank_eq_none_iff.1 stops
      simp [skipBlanks, leadingBlanks, advance, blank]

/-- A lexeme in front is the next token. -/
theorem next_lexeme {source : String} {cursor : Cursor} {kind : TokenKind}
    {lexeme rest : List Char} (found : kind.lexeme? (lexeme ++ rest) = some lexeme)
    (shown : kind ≠ .blank) :
    (Scanner.mk source cursor (lexeme ++ rest)).next =
      (.ok ⟨kind, String.ofList lexeme, ⟨source, cursor.line, cursor.column, cursor.offset⟩⟩,
        ⟨source, cursor.past lexeme, rest⟩) := by
  have stops : TokenKind.blank.lexeme? (lexeme ++ rest) = none := by
    refine Option.eq_none_iff_forall_ne_some.2 fun blanks blank => ?_
    exact shown (lexeme?_unique found blank)
  rw [next, skipBlanks_eq_self stops]
  simp only [nextHere, lexemeAt?_eq_some_iff.2 found, advance_length]
  rfl

/-- Where no token starts, the fault names the character in front, and the scanner stays. -/
theorem next_stuck {scanner : Scanner} (stuck : lexemeAt? scanner.rest = none) :
    scanner.next =
      (.error (.invalidCharacter (String.ofList (scanner.rest.take 1)) scanner.location),
        scanner) := by
  rw [next, skipBlanks_eq_self (lexemeAt?_eq_none_iff.1 stuck .blank)]
  simp [nextHere, stuck]

/-- Two stretches of tokens that meet at a scanner make up one. -/
theorem Yields.trans {scanner middle after : Scanner} {front back : List Token}
    (first : scanner.Yields front middle) (second : middle.Yields back after) :
    scanner.Yields (front ++ back) after := by
  induction first with
  | here => exact second
  | blank blank _ ih => exact .blank blank (ih second)
  | token found shown more _ ih => exact .token found shown more (ih second)

/-- Behind the blanks in front there is a lexeme, or no token starts. -/
theorem next_cases (scanner : Scanner) :
    (∃ cursor kind lexeme rest, kind ≠ TokenKind.blank ∧
        kind.lexeme? (lexeme ++ rest) = some lexeme ∧
        scanner.Yields [] ⟨scanner.source, cursor, lexeme ++ rest⟩) ∨
      ∃ cursor rest, lexemeAt? rest = none ∧
        scanner.Yields [] ⟨scanner.source, cursor, rest⟩ := by
  obtain ⟨source, cursor, chars⟩ := scanner
  induction chars generalizing cursor with
  | nil => exact .inl ⟨cursor, .endOfInput, [], [], by simp, rfl, .here _⟩
  | cons char chars ih =>
      cases blank : isBlank char with
      | true =>
          rcases ih (cursor.step char) with
            ⟨cursor', kind, lexeme, rest, shown, found, yields⟩ | ⟨cursor', rest, stuck, yields⟩
          · exact .inl ⟨cursor', kind, lexeme, rest, shown, found, .blank blank yields⟩
          · exact .inr ⟨cursor', rest, stuck, .blank blank yields⟩
      | false =>
          cases first : lexemeAt? (char :: chars) with
          | none => exact .inr ⟨cursor, char :: chars, first, .here _⟩
          | some pair =>
              obtain ⟨kind, lexeme⟩ := pair
              have found := lexemeAt?_eq_some first
              obtain ⟨rest, whole⟩ := (TokenKind.lexeme?_eq_some found).1
              have shown : kind ≠ .blank := by
                rintro rfl
                cases (lexeme?_blank_eq_none_iff.2 blank).symm.trans found
              rw [← whole] at found ⊢
              exact .inl ⟨cursor, kind, lexeme, rest, shown, found, .here _⟩

/-- A mark is a token. -/
theorem Yields.of_mark (source : String) (cursor : Cursor) {kind : TokenKind}
    {lexeme : List Char} (mark : (kind, lexeme) ∈ marks) (back : List Char) :
    ∃ token : Token, token.kind = kind ∧
      Yields ⟨source, cursor, lexeme ++ back⟩ [token] ⟨source, cursor.past lexeme, back⟩ := by
  have shown : ∀ pair ∈ marks, pair.1 ≠ .blank ∧ pair.1 ≠ .endOfInput := by decide
  obtain ⟨blank, more⟩ := shown _ mark
  exact ⟨_, rfl, .token (lexeme?_of_mem_marks mark back) blank more (.here _)⟩

/-- A name is a token where no qualified words follow. -/
theorem Yields.of_name (source : String) (cursor : Cursor) {name : String} {back : List Char}
    (isName : IsName name.toList) (stops : qualifiedWords back = []) :
    ∃ token : Token, token.kind = .name ∧ token.lexeme = name ∧
      Yields ⟨source, cursor, name.toList ++ back⟩ [token]
        ⟨source, cursor.past name.toList, back⟩ := by
  have found : TokenKind.name.lexeme? (name.toList ++ back) = some name.toList :=
    isName.name?_append stops
  exact ⟨_, rfl, String.ofList_toList, .token found (by decide) (by decide) (.here _)⟩

/-- The characters between a scanner and a place that it comes to were passed by its
cursor. -/
theorem Yields.split {scanner after : Scanner} {tokens : List Token}
    (yields : scanner.Yields tokens after) :
    ∃ front, scanner.rest = front ++ after.rest ∧
      after = ⟨scanner.source, scanner.cursor.past front, after.rest⟩ := by
  induction yields with
  | here => exact ⟨[], rfl, rfl⟩
  | @blank source cursor char rest tokens after blank behind ih =>
      obtain ⟨front, whole, place⟩ := ih
      exact ⟨char :: front, by simpa using whole, place⟩
  | @token source cursor kind lexeme rest tokens after found shown more behind ih =>
      obtain ⟨front, whole, place⟩ := ih
      refine ⟨lexeme ++ front, ?_, ?_⟩
      · simpa using whole
      · rw [Cursor.past_append]
        exact place

/-- The unread text may be exchanged for one that keeps names, and the tokens before it
remain. -/
theorem Yields.exchange {source : String} {cursor cursor' : Cursor} {chars back back' : List Char}
    {tokens : List Token} (yields : Yields ⟨source, cursor, chars⟩ tokens ⟨source, cursor', back⟩)
    (keeps : KeepsNames back back') {front : List Char} (whole : chars = front ++ back) :
    Yields ⟨source, cursor, front ++ back'⟩ tokens ⟨source, cursor', back'⟩ := by
  generalize start : Scanner.mk source cursor chars = scanner at yields
  generalize stop : Scanner.mk source cursor' back = after at yields
  induction yields generalizing cursor chars front with
  | here =>
      cases start
      cases stop
      obtain rfl : front = [] := by simpa using whole
      exact .here _
  | @blank source cursor char rest tokens after blank behind ih =>
      cases start
      subst stop
      obtain ⟨between, split, -⟩ := behind.split
      obtain rfl : front = char :: between := by
        have equal : front ++ back = (char :: between) ++ back := by
          rw [← whole]
          simpa using split
        exact List.append_cancel_right equal
      exact .blank blank (ih split rfl rfl)
  | @token source cursor kind lexeme rest tokens after found shown more behind ih =>
      cases start
      subst stop
      obtain ⟨between, split, -⟩ := behind.split
      obtain rfl : front = lexeme ++ between := by
        have equal : front ++ back = (lexeme ++ between) ++ back := by
          rw [← whole]
          simpa using split
        exact List.append_cancel_right equal
      rw [List.append_assoc]
      refine .token (lexeme?_exchange shown more keeps ?_) shown more (ih split rfl rfl)
      rw [← show rest = between ++ back from split]
      exact found

/-- Tokens before the end of input are neither blanks nor the end of input. -/
theorem Yields.kind_ne {scanner after : Scanner} {tokens : List Token}
    (yields : scanner.Yields tokens after) :
    ∀ token ∈ tokens, token.kind ≠ .blank ∧ token.kind ≠ .endOfInput := by
  induction yields with
  | here => simp
  | blank _ _ ih => exact ih
  | token _ shown more _ ih => exact List.forall_mem_cons.2 ⟨⟨shown, more⟩, ih⟩

/-- Each token takes at least one character off the rest. -/
theorem Yields.length_le {scanner after : Scanner} {tokens : List Token}
    (yields : scanner.Yields tokens after) :
    tokens.length + after.rest.length ≤ scanner.rest.length := by
  induction yields with
  | here => simp
  | blank _ _ ih =>
      simp only [List.length_cons] at ih ⊢
      omega
  | token found _ more _ ih =>
      have some : 0 < _ :=
        List.length_pos_iff.2 fun empty => more ((TokenKind.lexeme?_eq_some found).2.1 empty)
      simp only [List.length_cons, List.length_append] at ih ⊢
      omega

/-- Every scanner comes to the end of the text, or to a place where no token starts. -/
theorem exists_yields (scanner : Scanner) :
    ∃ tokens cursor rest, scanner.Yields tokens ⟨scanner.source, cursor, rest⟩ ∧
      (rest = [] ∨ lexemeAt? rest = none) := by
  obtain ⟨size, bound⟩ : ∃ size, scanner.rest.length < size := ⟨_, Nat.lt_succ_self _⟩
  induction size generalizing scanner with
  | zero => exact absurd bound (Nat.not_lt_zero _)
  | succ size ih =>
      rcases next_cases scanner with
        ⟨cursor, kind, lexeme, rest, shown, found, passes⟩ | ⟨cursor, rest, stuck, passes⟩
      · by_cases last : kind = .endOfInput
        · subst last
          exact ⟨[], cursor, _, passes, .inl (chars_eq_nil_of_endOfInput found)⟩
        · have one : Yields ⟨scanner.source, cursor, lexeme ++ rest⟩ _
              ⟨scanner.source, cursor.past lexeme, rest⟩ := .token found shown last (.here _)
          have shorter := (passes.trans one).length_le
          obtain ⟨tokens, cursor', rest', yields, stops⟩ :=
            ih ⟨scanner.source, cursor.past lexeme, rest⟩ (by simp at shorter ⊢; omega)
          exact ⟨_, cursor', rest', passes.trans (one.trans yields), stops⟩
      · exact ⟨[], cursor, rest, passes, .inr stuck⟩

/-- At the end of the text the next token is the end of input. -/
theorem next_end (source : String) (cursor : Cursor) :
    (Scanner.mk source cursor []).next =
      (.ok ⟨.endOfInput, "", ⟨source, cursor.line, cursor.column, cursor.offset⟩⟩,
        ⟨source, cursor, []⟩) :=
  rfl

/-- All tokens from here on are the next one and those behind it. -/
theorem tokenize_eq_next (scanner : Scanner) :
    scanner.tokenize =
      match scanner.next with
      | (.error fault, after) => (.error fault, after)
      | (.ok token, after) =>
          if token.kind = .endOfInput then (.ok [token], after)
          else (after.tokenize.1.map (token :: ·), after.tokenize.2) := by
  rw [tokenize]
  split
  · rename_i next
    rw [next]
  · rename_i token after next
    by_cases last : token.kind = .endOfInput
    · simp [next, last]
    · simp only [next, last, dite_false, if_false]
      split
      · rename_i rest
        simp [rest, Except.map]
      · rename_i rest
        simp [rest, Except.map]

/-- The tokens on the way to a place come before all others. -/
theorem Yields.tokenize_eq {scanner after : Scanner} {tokens : List Token}
    (yields : scanner.Yields tokens after) :
    scanner.tokenize = (after.tokenize.1.map (tokens ++ ·), after.tokenize.2) := by
  have identity : ∀ result : Except Fault (List Token), result.map ([] ++ ·) = result := by
    intro result
    cases result <;> rfl
  induction yields with
  | here scanner => rw [identity]
  | blank blank _ ih => rw [tokenize_eq_next, next_blank blank, ← tokenize_eq_next, ih]
  | token found shown more _ ih =>
      rw [tokenize_eq_next, next_lexeme found shown]
      simp only [more, if_false, ih]
      generalize Scanner.tokenize _ = result
      obtain ⟨result, _⟩ := result
      cases result <;> rfl

end Scanner

/-- A text is cut into tokens exactly when the scanner comes to its end; the end of input
is the last token and the only one of its kind. -/
theorem tokenize_eq_ok_iff {text source : String} {all : List Token} :
    tokenize text source = .ok all ↔
      ∃ tokens cursor, (Scanner.start text source).Yields tokens ⟨source, cursor, []⟩ ∧
        all = tokens ++
          [⟨.endOfInput, "", ⟨source, cursor.line, cursor.column, cursor.offset⟩⟩] := by
  have ends : ∀ {tokens cursor},
      (Scanner.start text source).Yields tokens ⟨source, cursor, []⟩ →
      tokenize text source = .ok (tokens ++
        [⟨.endOfInput, "", ⟨source, cursor.line, cursor.column, cursor.offset⟩⟩]) := by
    intro tokens cursor yields
    rw [tokenize, yields.tokenize_eq, Scanner.tokenize_eq_next ⟨source, cursor, []⟩,
      Scanner.next_end]
    rfl
  constructor
  · intro cut
    obtain ⟨tokens, cursor, rest, yields, rfl | stuck⟩ := (Scanner.start text source).exists_yields
    · exact ⟨tokens, cursor, yields, Except.ok.inj (cut.symm.trans (ends yields))⟩
    · rw [tokenize, yields.tokenize_eq, Scanner.tokenize_eq_next ⟨_, cursor, rest⟩,
        Scanner.next_stuck stuck] at cut
      cases cut
  · rintro ⟨tokens, cursor, yields, rfl⟩
    exact ends yields

end TypeProse
