import Mathlib.Control.Monad.Basic
import TypeProse.Proofs.Scanning
import TypeProse.Scanner.Session

/-!
# Tokens cover their text

`Covers` lays tokens over a text: blanks, a lexeme, blanks, the next lexeme, and so on,
each token at the offset where its lexeme starts. The tokens that a scanner hands out
cover the text that it has passed, up to the end of the text or up to the first
character at which no token starts. So nothing but blanks is lost, and nothing is
handed out twice.
-/

namespace TypeProse

open Text

/-- The lexemes of a kind: its marks, and all names for the kind of names. -/
inductive TokenKind.Matches : TokenKind → List Char → Prop where
  | mark {kind : TokenKind} {lexeme : List Char} (mark : (kind, lexeme) ∈ marks) :
      Matches kind lexeme
  | name {lexeme : List Char} (isName : IsName lexeme) : Matches .name lexeme

/-- What is found at the front of a text is a lexeme of its kind. -/
theorem TokenKind.matches_of_lexeme? {kind : TokenKind} {chars lexeme : List Char}
    (found : kind.lexeme? chars = some lexeme) (shown : kind ≠ .blank)
    (more : kind ≠ .endOfInput) : kind.Matches lexeme := by
  rcases lexeme?_cases found with mark | ⟨rfl, name⟩ | ⟨blank, _⟩ | ⟨last, _⟩
  · exact .mark mark
  · exact .name (isName_of_name? name)
  · exact absurd blank shown
  · exact absurd last more

/-- A path is made of word characters and colons. -/
theorem IsPath.isWord_or_colon {path : List Char} (words : IsPath path) :
    ∀ char ∈ path, isWord char = true ∨ char = ':' := by
  induction words with
  | word words => exact fun char inside => .inl (words.words char inside)
  | joined words _ ih =>
      have colons := List.forall_mem_cons.2 ⟨.inr rfl, List.forall_mem_cons.2 ⟨.inr rfl, ih⟩⟩
      exact List.forall_mem_append.2 ⟨fun char inside => .inl (words.words char inside), colons⟩

/-- A name is made of word characters, colons and number signs. -/
theorem IsName.isWord_or_sign {lexeme : List Char} (isName : IsName lexeme) :
    ∀ char ∈ lexeme, isWord char = true ∨ char = ':' ∨ char = '#' := by
  cases isName with
  | method words =>
      exact List.forall_mem_cons.2
        ⟨.inr (.inr rfl), fun char inside => .inl (words.words char inside)⟩
  | path words => exact fun char inside => (words.isWord_or_colon char inside).imp id .inl
  | @rooted path words =>
      have inner : ∀ char ∈ path, isWord char = true ∨ char = ':' ∨ char = '#' :=
        fun char inside => (words.isWord_or_colon char inside).imp id .inl
      exact List.forall_mem_cons.2
        ⟨.inr (.inl rfl), List.forall_mem_cons.2 ⟨.inr (.inl rfl), inner⟩⟩

/-- No lexeme has a blank in it. -/
theorem TokenKind.Matches.isBlank_eq_false {kind : TokenKind} {lexeme : List Char}
    (fits : kind.Matches lexeme) : ∀ char ∈ lexeme, isBlank char = false := by
  cases fits with
  | mark mark =>
      have solid : ∀ pair ∈ marks, pair.2.any isBlank = false := by decide
      exact fun char inside => Bool.eq_false_iff.2 (List.any_eq_false.1 (solid _ mark) char inside)
  | name isName =>
      intro char inside
      rcases isName.isWord_or_sign char inside with word | rfl | rfl
      · exact isBlank_of_isWord word
      · decide
      · decide

/-- The characters from an offset on are the lexemes of the tokens, each at the offset of its
token, with nothing but blanks before each of them and behind the last. -/
inductive Covers : Nat → List Token → List Char → Prop where
  | none {offset : Nat} {gap : List Char} (blank : ∀ char ∈ gap, isBlank char = true) :
      Covers offset [] gap
  | token {offset : Nat} {gap rest : List Char} {token : Token} {tokens : List Token}
      (blank : ∀ char ∈ gap, isBlank char = true)
      (place : token.location.offset = (offset + gap.length : Nat))
      (behind : Covers (offset + gap.length + token.lexeme.length) tokens rest) :
      Covers offset (token :: tokens) (gap ++ (token.lexeme.toList ++ rest))

namespace Covers

variable {offset : Nat} {tokens : List Token} {chars : List Char}

/-- A blank may come first. -/
theorem cons {char : Char} (blank : isBlank char = true)
    (covers : Covers (offset + 1) tokens chars) : Covers offset tokens (char :: chars) := by
  cases covers with
  | none blanks => exact .none (List.forall_mem_cons.2 ⟨blank, blanks⟩)
  | @token _ gap rest token tokens blanks place behind =>
      have length : offset + 1 + gap.length = offset + (char :: gap).length := by
        simp only [List.length_cons]
        omega
      rw [length] at place behind
      exact .token (List.forall_mem_cons.2 ⟨blank, blanks⟩) place behind

/-- Each token stands where its offset says. -/
theorem exists_split (covers : Covers offset tokens chars) :
    ∀ token ∈ tokens, ∃ front back, chars = front ++ (token.lexeme.toList ++ back) ∧
      token.location.offset = (offset + front.length : Nat) := by
  induction covers with
  | none => simp
  | @token offset gap rest token tokens _ place _ ih =>
      refine List.forall_mem_cons.2 ⟨⟨gap, rest, rfl, place⟩, fun other inside => ?_⟩
      obtain ⟨front, back, rfl, place'⟩ := ih other inside
      refine ⟨gap ++ (token.lexeme.toList ++ front), back, by simp, ?_⟩
      rw [place']
      simp only [List.length_append, String.length_toList]
      omega

/-- Tokens whose lexemes have a character stand in ascending order. -/
theorem pairwise_offset_lt (covers : Covers offset tokens chars)
    (filled : ∀ token ∈ tokens, token.lexeme ≠ "") :
    tokens.Pairwise fun earlier later => earlier.location.offset < later.location.offset := by
  induction covers with
  | none => exact .nil
  | @token offset gap rest token tokens _ place behind ih =>
      obtain ⟨first, others⟩ := List.forall_mem_cons.1 filled
      refine .cons (fun later inside => ?_) (ih others)
      obtain ⟨front, back, -, place'⟩ := behind.exists_split later inside
      have some : 0 < token.lexeme.length := by
        rw [Nat.pos_iff_ne_zero]
        exact fun empty => first (String.length_eq_zero_iff.1 empty)
      rw [place, place']
      omega

/-- All that is not blank belongs to the lexemes. -/
theorem filter_eq_flatMap (covers : Covers offset tokens chars)
    (solid : ∀ token ∈ tokens, ∀ char ∈ token.lexeme.toList, isBlank char = false) :
    chars.filter (fun char => !isBlank char) = tokens.flatMap fun token => token.lexeme.toList := by
  have dropped : ∀ {gap : List Char}, (∀ char ∈ gap, isBlank char = true) →
      gap.filter (fun char => !isBlank char) = [] := by
    intro gap blank
    simpa [List.filter_eq_nil_iff] using blank
  have kept : ∀ {lexeme : List Char}, (∀ char ∈ lexeme, isBlank char = false) →
      lexeme.filter (fun char => !isBlank char) = lexeme := by
    intro lexeme solid
    simpa [List.filter_eq_self] using solid
  induction covers with
  | none blank => exact dropped blank
  | token blank _ _ ih =>
      obtain ⟨first, others⟩ := List.forall_mem_cons.1 solid
      rw [List.filter_append, List.filter_append, dropped blank, kept first, ih others]
      rfl

end Covers

namespace Scanner

/-- The tokens on the way to a place cover what was passed on that way. -/
theorem Yields.covers {scanner after : Scanner} {tokens : List Token}
    (yields : scanner.Yields tokens after) :
    ∃ front, scanner.rest = front ++ after.rest ∧
      after = ⟨scanner.source, scanner.cursor.past front, after.rest⟩ ∧
      Covers scanner.cursor.offset tokens front := by
  induction yields with
  | here => exact ⟨[], rfl, rfl, .none (by simp)⟩
  | @blank source cursor char rest tokens after blank _ ih =>
      obtain ⟨front, whole, place, covers⟩ := ih
      have one : (cursor.step char).offset = cursor.offset + 1 := cursor.offset_past [char]
      rw [one] at covers
      exact ⟨char :: front, by simpa using whole, place, covers.cons blank⟩
  | @token source cursor kind lexeme rest tokens after _ _ _ _ ih =>
      obtain ⟨front, whole, place, covers⟩ := ih
      simp only [Cursor.offset_past] at covers
      refine ⟨lexeme ++ front, by simpa using whole, by rw [Cursor.past_append]; exact place, ?_⟩
      have first : Covers cursor.offset
          (⟨kind, String.ofList lexeme, ⟨source, cursor.line, cursor.column, cursor.offset⟩⟩ ::
            tokens) ([] ++ ((String.ofList lexeme).toList ++ front)) :=
        .token (by simp) rfl (by simpa using covers)
      simpa using first

/-- Each token on the way to a place has a lexeme of its kind. -/
theorem Yields.matches {scanner after : Scanner} {tokens : List Token}
    (yields : scanner.Yields tokens after) :
    ∀ token ∈ tokens, token.lexeme ≠ "" ∧ token.kind.Matches token.lexeme.toList := by
  induction yields with
  | here => simp
  | blank _ _ ih => exact ih
  | token found shown more _ ih =>
      refine List.forall_mem_cons.2 ⟨⟨fun empty => ?_, ?_⟩, ih⟩
      · have none := (TokenKind.lexeme?_eq_some found).2.1 (by simpa using empty)
        exact more none
      · rw [String.toList_ofList]
        exact TokenKind.matches_of_lexeme? found shown more

/-- The answers to a number of requests for the next token. -/
def nextAnswers (scanner : Scanner) (count : Nat) : List Answer :=
  (scanner.performAll (List.replicate count .next)).map Prod.fst

@[simp] theorem nextAnswers_zero (scanner : Scanner) : scanner.nextAnswers 0 = [] :=
  rfl

theorem nextAnswers_succ (scanner : Scanner) (count : Nat) :
    scanner.nextAnswers (count + 1) =
      (scanner.perform .next).1 :: (scanner.perform .next).2.nextAnswers count := by
  simp [nextAnswers, List.replicate_succ, performAll]

/-- The answers depend on the scanner only by its next token. -/
theorem nextAnswers_congr {scanner scanner' : Scanner} (same : scanner.next = scanner'.next)
    (count : Nat) : scanner.nextAnswers count = scanner'.nextAnswers count := by
  cases count with
  | zero => rfl
  | succ count => simp only [nextAnswers_succ, perform, same]

/-- The tokens on the way to a place are the first answers. -/
theorem Yields.nextAnswers_eq {scanner after : Scanner} {tokens : List Token}
    (yields : scanner.Yields tokens after) (count : Nat) :
    scanner.nextAnswers (tokens.length + count) =
      tokens.map .token ++ after.nextAnswers count := by
  induction yields with
  | here => simp
  | blank blank _ ih => rw [nextAnswers_congr (next_blank blank _), ih]
  | @token _ _ _ _ _ tokens _ found shown _ _ ih =>
      rw [List.length_cons, Nat.add_right_comm, nextAnswers_succ]
      simp only [perform, next_lexeme found shown, ih, List.map_cons, List.cons_append]

/-- Blanks do not change the next token. -/
theorem Yields.next_eq {scanner after : Scanner} (yields : scanner.Yields [] after) :
    scanner.next = after.next := by
  generalize none : ([] : List Token) = tokens at yields
  induction yields with
  | here => rfl
  | blank blank _ ih => rw [next_blank blank, ih none]
  | token => cases none

/-- What the next request can lead to: a token with the place behind it, the end of input at
the end of the text, or a fault in front of a character at which no token starts. -/
theorem next_outcomes (scanner : Scanner) :
    (∃ token after, scanner.next = (.ok token, after) ∧ token.kind ≠ .endOfInput ∧
        scanner.Yields [token] after) ∨
      (∃ token after, scanner.next = (.ok token, after) ∧ token.kind = .endOfInput ∧
        after.rest = []) ∨
      ∃ stopped, scanner.Yields [] stopped ∧ lexemeAt? stopped.rest = none ∧
        scanner.next = (.error (.invalidCharacter (String.ofList (stopped.rest.take 1))
          stopped.location), stopped) := by
  rcases scanner.next_cases with
    ⟨cursor, kind, lexeme, rest, shown, found, passes⟩ | ⟨cursor, rest, stuck, passes⟩
  · have next := passes.next_eq.trans (next_lexeme found shown)
    by_cases last : kind = .endOfInput
    · subst last
      have empty := (List.append_eq_nil_iff.1 (chars_eq_nil_of_endOfInput found)).2
      exact .inr (.inl ⟨_, _, next, rfl, empty⟩)
    · exact .inl ⟨_, _, next, last, passes.trans (.token found shown last (.here _))⟩
  · exact .inr (.inr ⟨_, passes, stuck, passes.next_eq.trans (next_stuck stuck)⟩)

/-- Nothing is handed out behind the end of a text, and no token is missing there. -/
theorem Yields.rest_eq_nil {scanner after : Scanner} {tokens : List Token}
    (yields : scanner.Yields tokens after) (ended : scanner.rest = []) : after.rest = [] := by
  obtain ⟨front, whole, -⟩ := yields.split
  exact (List.append_eq_nil_iff.1 (whole.symm.trans ended)).2

/-- Where requests for the next token are answered with tokens and at last with a fault, the
scanner has come with these tokens to a character at which no token starts, and the fault
names it. -/
theorem yields_of_nextAnswers {scanner : Scanner} {count : Nat} {tokens : List Token}
    {fault : Fault}
    (answers : scanner.nextAnswers count = tokens.map .token ++ [.fault fault]) :
    ∃ stopped, scanner.Yields tokens stopped ∧ lexemeAt? stopped.rest = none ∧
      fault = .invalidCharacter (String.ofList (stopped.rest.take 1)) stopped.location := by
  induction tokens generalizing scanner count with
  | nil =>
      cases count with
      | zero => cases answers
      | succ count =>
          rw [nextAnswers_succ] at answers
          rcases scanner.next_outcomes with
            ⟨token, after, next, -⟩ | ⟨token, after, next, -⟩ | ⟨stopped, passes, stuck, next⟩
          · simp [perform, next] at answers
          · simp [perform, next] at answers
          · simp only [perform, next, List.map_nil, List.nil_append, List.cons.injEq,
              Answer.fault.injEq] at answers
            exact ⟨stopped, passes, stuck, answers.1.symm⟩
  | cons token tokens ih =>
      cases count with
      | zero => cases answers
      | succ count =>
          rw [nextAnswers_succ] at answers
          rcases scanner.next_outcomes with
            ⟨token', after, next, more, one⟩ | ⟨token', after, next, last, ended⟩ |
              ⟨stopped, passes, stuck, next⟩
          · simp only [perform, next, List.map_cons, List.cons_append, List.cons.injEq,
              Answer.token.injEq] at answers
            obtain ⟨rfl, behind⟩ := answers
            obtain ⟨stopped, yields, stuck, named⟩ := ih behind
            exact ⟨stopped, one.trans yields, stuck, named⟩
          · -- Behind the end of input there is no fault to come to.
            simp only [perform, next, List.map_cons, List.cons_append, List.cons.injEq] at answers
            obtain ⟨stopped, yields, stuck, -⟩ := ih answers.2
            rw [yields.rest_eq_nil ended] at stuck
            cases stuck
          · simp [perform, next] at answers

end Scanner

/-- A text is not cut into tokens exactly when the scanner comes to a character at which no
token starts. -/
theorem tokenize_eq_error_iff {text source : String} {fault : Fault} :
    tokenize text source = .error fault ↔
      ∃ tokens stopped, (Scanner.start text source).Yields tokens stopped ∧
        lexemeAt? stopped.rest = none ∧
        fault = .invalidCharacter (String.ofList (stopped.rest.take 1)) stopped.location := by
  have fails : ∀ {tokens stopped}, (Scanner.start text source).Yields tokens stopped →
      lexemeAt? stopped.rest = none → tokenize text source =
        .error (.invalidCharacter (String.ofList (stopped.rest.take 1)) stopped.location) := by
    intro tokens stopped yields stuck
    rw [tokenize, yields.tokenize_eq, Scanner.tokenize_eq_next stopped, Scanner.next_stuck stuck]
    rfl
  constructor
  · intro failed
    obtain ⟨tokens, cursor, rest, yields, rfl | stuck⟩ := (Scanner.start text source).exists_yields
    · cases failed.symm.trans (tokenize_eq_ok_iff.2 ⟨tokens, cursor, yields, rfl⟩)
    · exact ⟨tokens, _, yields, stuck, Except.error.inj (failed.symm.trans (fails yields stuck))⟩
  · rintro ⟨tokens, stopped, yields, stuck, rfl⟩
    exact fails yields stuck

/-- Tokens that were cut from a text: they cover it, each has a lexeme of its kind and stands
where its offset says, they are in ascending order, and together they hold all characters
of the text that are not blank. -/
structure AreCutFrom (tokens : List Token) (chars : List Char) : Prop where
  covers : Covers 0 tokens chars
  shown : ∀ token ∈ tokens, token.kind ≠ .blank ∧ token.kind ≠ .endOfInput
  fitting : ∀ token ∈ tokens, token.lexeme ≠ "" ∧ token.kind.Matches token.lexeme.toList
  placed : ∀ token ∈ tokens, ∃ front back, chars = front ++ (token.lexeme.toList ++ back) ∧
    token.location.offset = front.length
  ascending : tokens.Pairwise fun earlier later => earlier.location.offset < later.location.offset
  complete : chars.filter (fun char => !isBlank char) =
    tokens.flatMap fun token => token.lexeme.toList

/-- The tokens on the way from the front of a text are cut from what was passed. -/
theorem Scanner.Yields.areCutFrom {text source : String} {tokens : List Token} {after : Scanner}
    (yields : (Scanner.start text source).Yields tokens after) :
    ∃ front, text.toList = front ++ after.rest ∧ after.cursor.offset = front.length ∧
      AreCutFrom tokens front := by
  obtain ⟨front, whole, place, covers⟩ := yields.covers
  have offset : after.cursor.offset = front.length := by
    rw [place]
    simp [Scanner.start, Cursor.offset_past, Cursor.start]
  refine ⟨front, whole, offset, covers, yields.kind_ne, yields.matches, ?_, ?_, ?_⟩
  · simpa [Scanner.start, Cursor.start] using covers.exists_split
  · exact covers.pairwise_offset_lt fun token inside => (yields.matches token inside).1
  · exact covers.filter_eq_flatMap fun token inside =>
      (yields.matches token inside).2.isBlank_eq_false

/-- No characters of a text are lost when it is cut into tokens. If the text can be cut, the
tokens are cut from the whole of it, and behind them comes one end of input, at the end of the
text. If it cannot, the next token is asked for until there is a fault, and the tokens that are
handed out before are cut from the part of the text in front of the fault. -/
theorem tokens_areCutFrom_text (text source : String) :
    (∀ all, tokenize text source = .ok all →
      ∃ (tokens : List Token) (last : Token), all = tokens ++ [last] ∧
        last.kind = .endOfInput ∧ last.lexeme = "" ∧ last.location.offset = text.length ∧
        AreCutFrom tokens text.toList) ∧
    (∀ fault, tokenize text source = .error fault →
      ∃ tokens : List Token, (Scanner.start text source).nextAnswers (tokens.length + 1) =
        tokens.map .token ++ [.fault fault]) ∧
    ∀ (count : Nat) (tokens : List Token) (fault : Fault),
      (Scanner.start text source).nextAnswers count = tokens.map .token ++ [.fault fault] →
      ∃ offset : Nat, fault.code = .invalidCharacter ∧ fault.location.offset = offset ∧
        offset < text.length ∧ AreCutFrom tokens (text.toList.take offset) := by
  refine ⟨fun all cut => ?_, fun fault failed => ?_, fun count tokens fault answers => ?_⟩
  · obtain ⟨tokens, cursor, yields, rfl⟩ := tokenize_eq_ok_iff.1 cut
    obtain ⟨front, whole, place, areCut⟩ := yields.areCutFrom
    rw [List.append_nil] at whole
    refine ⟨tokens, _, rfl, rfl, rfl, ?_, whole ▸ areCut⟩
    rw [← String.length_toList, whole]
    exact congrArg _ place
  · obtain ⟨tokens, stopped, yields, stuck, rfl⟩ := tokenize_eq_error_iff.1 failed
    refine ⟨tokens, ?_⟩
    rw [yields.nextAnswers_eq, Scanner.nextAnswers_succ]
    simp [Scanner.perform, Scanner.next_stuck stuck]
  · obtain ⟨stopped, yields, stuck, rfl⟩ := Scanner.yields_of_nextAnswers answers
    obtain ⟨front, whole, place, areCut⟩ := yields.areCutFrom
    have more : stopped.rest ≠ [] := by
      intro ended
      rw [ended] at stuck
      cases stuck
    refine ⟨front.length, rfl, congrArg _ place, ?_, ?_⟩
    · rw [← String.length_toList, whole, List.length_append]
      have some := List.length_pos_iff.2 more
      omega
    · rw [whole, List.take_left]
      exact areCut

/-- A text of two lines with a blank at its end, and one with a fault behind a blank. -/
theorem tokens_areCutFrom_two_texts :
    AreCutFrom [⟨.name, "#a", ⟨"t", 1, 1, 0⟩⟩, ⟨.openCollection, "<", ⟨"t", 1, 3, 2⟩⟩,
      ⟨.name, "::B", ⟨"t", 2, 2, 5⟩⟩] "#a<\n ::B ".toList ∧
    AreCutFrom [⟨.name, "A", ⟨"t", 1, 1, 0⟩⟩] "A ".toList := by
  have cut : tokenize "#a<\n ::B " "t" = .ok ([⟨.name, "#a", ⟨"t", 1, 1, 0⟩⟩,
      ⟨.openCollection, "<", ⟨"t", 1, 3, 2⟩⟩, ⟨.name, "::B", ⟨"t", 2, 2, 5⟩⟩] ++
        [⟨.endOfInput, "", ⟨"t", 2, 6, 9⟩⟩]) := by
    decide +kernel
  have answers : (Scanner.start "A ::=b" "t").nextAnswers 2 =
      [⟨.name, "A", ⟨"t", 1, 1, 0⟩⟩].map .token ++
        [.fault (.invalidCharacter ":" ⟨"t", 1, 3, 2⟩)] := by
    decide +kernel
  obtain ⟨tokens, last, same, -, -, -, whole⟩ := (tokens_areCutFrom_text _ _).1 _ cut
  obtain ⟨rfl, -⟩ := List.append_inj' same rfl
  obtain ⟨offset, -, place, -, before⟩ := (tokens_areCutFrom_text _ _).2.2 _ _ _ answers
  obtain rfl : offset = 2 := Int.ofNat.inj place.symm
  exact ⟨whole, before⟩

end TypeProse
