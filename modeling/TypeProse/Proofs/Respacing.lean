import TypeProse.Proofs.Covering
import TypeProse.Proofs.Joining
import TypeProse.Proofs.Repair

/-!
# Blanks carry no meaning

Blanks may be taken out of a text and put into it anywhere but inside a token. What is left is
the lexemes of the same tokens with some blanks around them (`Lays`). Whether these are cut into
the same tokens again depends on what stands right behind a name. In a text that lists types, no
name stands right behind another one, so that nothing is ever taken for a part of the name before
it, and the text lists the same types.
-/

namespace TypeProse

open Text

/-- Blanks are taken out of a text, and blanks are put into it at places that are not excluded.
Places are counted over the text as it was. -/
inductive Respaces (excluded : Nat → Prop) : Nat → List Char → List Char → Prop where
  | done (offset : Nat) : Respaces excluded offset [] []
  | keep {offset : Nat} {chars chars' : List Char} (char : Char)
      (behind : Respaces excluded (offset + 1) chars chars') :
      Respaces excluded offset (char :: chars) (char :: chars')
  | delete {offset : Nat} {char : Char} {chars chars' : List Char} (blank : isBlank char = true)
      (behind : Respaces excluded (offset + 1) chars chars') :
      Respaces excluded offset (char :: chars) chars'
  | insert {offset : Nat} {char : Char} {chars chars' : List Char} (blank : isBlank char = true)
      (free : ¬ excluded offset) (behind : Respaces excluded offset chars chars') :
      Respaces excluded offset chars (char :: chars')

/-- A place strictly inside a token: behind its first character and not behind its last. -/
def Token.HasInside (token : Token) (offset : Nat) : Prop :=
  token.location.offset < offset ∧ offset < token.location.offset + token.lexeme.length

/-- A place strictly inside one of the tokens that a text is cut into. -/
def IsInsideToken (text source : String) (offset : Nat) : Prop :=
  ∃ tokens, tokenize text source = .ok tokens ∧ ∃ token ∈ tokens, token.HasInside offset

/-- The lexemes of tokens with nothing but blanks around them. -/
inductive Lays : List Token → List Char → Prop where
  | none {gap : List Char} (blank : AreBlanks gap) : Lays [] gap
  | token {gap rest : List Char} {token : Token} {tokens : List Token} (blank : AreBlanks gap)
      (behind : Lays tokens rest) : Lays (token :: tokens) (gap ++ (token.lexeme.toList ++ rest))

namespace Respaces

variable {excluded : Nat → Prop} {offset : Nat} {chars chars' : List Char}

/-- Out of blanks come blanks. -/
theorem areBlanks (respaces : Respaces excluded offset chars chars') (blank : AreBlanks chars) :
    AreBlanks chars' := by
  induction respaces with
  | done => exact blank
  | keep char _ ih =>
      obtain ⟨first, others⟩ := List.forall_mem_cons.1 blank
      exact List.forall_mem_cons.2 ⟨first, ih others⟩
  | delete _ _ ih => exact ih (List.forall_mem_cons.1 blank).2
  | insert first _ _ ih => exact List.forall_mem_cons.2 ⟨first, ih blank⟩

/-- Out of a blank in front come blanks in front. -/
theorem split_blank (respaces : Respaces excluded offset chars chars') {char : Char}
    {rest : List Char} (blank : isBlank char = true) (whole : chars = char :: rest) :
    ∃ gap rest', chars' = gap ++ rest' ∧ AreBlanks gap ∧
      Respaces excluded (offset + 1) rest rest' := by
  induction respaces with
  | done => cases whole
  | keep char behind =>
      cases whole
      exact ⟨[char], _, rfl, by simpa [AreBlanks] using blank, behind⟩
  | delete _ behind =>
      cases whole
      exact ⟨[], _, rfl, by simp [AreBlanks], behind⟩
  | insert first _ _ ih =>
      obtain ⟨gap, rest', rfl, blanks, behind⟩ := ih whole
      exact ⟨_ :: gap, rest', rfl, List.forall_mem_cons.2 ⟨first, blanks⟩, behind⟩

theorem split_blanks {gap rest : List Char}
    (respaces : Respaces excluded offset (gap ++ rest) chars') (blank : AreBlanks gap) :
    ∃ gap' rest', chars' = gap' ++ rest' ∧ AreBlanks gap' ∧
      Respaces excluded (offset + gap.length) rest rest' := by
  induction gap generalizing offset chars' with
  | nil => exact ⟨[], chars', rfl, blank, respaces⟩
  | cons char gap ih =>
      obtain ⟨first, others⟩ := List.forall_mem_cons.1 blank
      obtain ⟨front, middle, rfl, blanks, behind⟩ := respaces.split_blank first rfl
      obtain ⟨back, rest', rfl, blanks', behind'⟩ := ih behind others
      refine ⟨front ++ back, rest', by simp, List.forall_mem_append.2 ⟨blanks, blanks'⟩, ?_⟩
      rw [List.length_cons, ← Nat.add_assoc, Nat.add_right_comm]
      exact behind'

/-- Inside a lexeme nothing changes. -/
theorem split_inside {part rest : List Char}
    (respaces : Respaces excluded offset (part ++ rest) chars')
    (solid : ∀ char ∈ part, isBlank char = false)
    (closed : ∀ place, offset ≤ place → place < offset + part.length → excluded place) :
    ∃ rest', chars' = part ++ rest' ∧ Respaces excluded (offset + part.length) rest rest' := by
  induction part generalizing offset chars' with
  | nil => exact ⟨chars', rfl, respaces⟩
  | cons char part ih =>
      obtain ⟨first, others⟩ := List.forall_mem_cons.1 solid
      have here : excluded offset := closed offset (Nat.le_refl _) (by simp)
      cases respaces with
      | keep _ behind =>
          obtain ⟨rest', rfl, behind'⟩ := ih behind others fun place low high =>
            closed place (by omega) (by simp only [List.length_cons]; omega)
          refine ⟨rest', rfl, ?_⟩
          rw [List.length_cons, ← Nat.add_assoc, Nat.add_right_comm]
          exact behind'
      | delete blank => cases first.symm.trans blank
      | insert _ free => exact absurd here free

/-- In front of a lexeme only blanks are put in. -/
theorem split_lexeme (respaces : Respaces excluded offset chars chars') {lexeme rest : List Char}
    (filled : lexeme ≠ []) (solid : ∀ char ∈ lexeme, isBlank char = false)
    (closed : ∀ place, offset < place → place < offset + lexeme.length → excluded place)
    (whole : chars = lexeme ++ rest) :
    ∃ gap rest', chars' = gap ++ (lexeme ++ rest') ∧ AreBlanks gap ∧
      Respaces excluded (offset + lexeme.length) rest rest' := by
  obtain ⟨first, part, rfl⟩ := List.exists_cons_of_ne_nil filled
  obtain ⟨firstSolid, others⟩ := List.forall_mem_cons.1 solid
  induction respaces with
  | done => cases whole
  | keep char behind =>
      cases whole
      obtain ⟨rest', rfl, behind'⟩ := behind.split_inside others fun place low high =>
        closed place (by omega) (by simp only [List.length_cons]; omega)
      refine ⟨[], rest', rfl, by simp [AreBlanks], ?_⟩
      rw [List.length_cons, ← Nat.add_assoc, Nat.add_right_comm]
      exact behind'
  | delete blank =>
      cases whole
      cases firstSolid.symm.trans blank
  | insert blank _ _ ih =>
      obtain ⟨gap, rest', rfl, blanks, behind⟩ := ih closed whole
      exact ⟨_ :: gap, rest', rfl, List.forall_mem_cons.2 ⟨blank, blanks⟩, behind⟩

/-- All blanks of a text may be taken out. -/
theorem withoutBlanks (excluded : Nat → Prop) (offset : Nat) (chars : List Char) :
    Respaces excluded offset chars (chars.filter fun char => !isBlank char) := by
  induction chars generalizing offset with
  | nil => exact .done offset
  | cons char chars ih =>
      by_cases blank : isBlank char = true
      · simpa [blank] using .delete blank (ih (offset + 1))
      · simpa [blank] using .keep char (ih (offset + 1))

end Respaces

/-- The kinds with lexemes are neither blanks nor the end of input. -/
theorem TokenKind.Matches.kind_ne {kind : TokenKind} {lexeme : List Char}
    (fits : kind.Matches lexeme) : kind ≠ .blank ∧ kind ≠ .endOfInput := by
  have shown : ∀ pair ∈ marks, pair.1 ≠ .blank ∧ pair.1 ≠ .endOfInput := by decide
  cases fits with
  | mark mark => exact shown _ mark
  | name => decide

/-- Tokens with lexemes of their kinds. -/
def AreShown (tokens : List Token) : Prop :=
  ∀ token ∈ tokens, token.lexeme ≠ "" ∧ token.kind.Matches token.lexeme.toList

namespace Draft

/-- A name is taken only where no type is pending. -/
theorem Moves.pending_eq_empty {draft next : Draft} {token : Token} (move : draft.Moves token next)
    (named : token.kind = .name) : draft.pending = .empty := by
  cases move with
  | name _ free => exact free
  | separate kind => cases named.symm.trans kind
  | enter kind => simp [named, TokenKind.opens?] at kind
  | @leave frame _ _ _ kind =>
      have ends := frame.bracket.isTerminator_closer
      rw [← kind, named] at ends
      cases ends

/-- Right behind a name no name is taken. -/
theorem Moves.head_ne_name {draft next after : Draft} {token : Token} {tokens : List Token}
    (move : draft.Moves token next) (takes : next.Takes tokens after)
    (named : token.kind = .name) : ∀ token' ∈ tokens.head?, token'.kind ≠ .name := by
  intro token' first named'
  cases takes with
  | none => cases first
  | token move' =>
      cases first
      exact move.kind_ne_name (move'.pending_eq_empty named') named

end Draft

/-- A text with other blanks, none of which are inside a token, has the same lexemes. -/
theorem Covers.lays {excluded : Nat → Prop} {offset : Nat} {tokens : List Token}
    {chars chars' : List Char} (covers : Covers offset tokens chars) (shown : AreShown tokens)
    (closed : ∀ token ∈ tokens, ∀ place, token.HasInside place → excluded place)
    (respaces : Respaces excluded offset chars chars') : Lays tokens chars' := by
  induction covers generalizing chars' with
  | none blank => exact .none (respaces.areBlanks blank)
  | @token offset gap rest token tokens blank place _ ih =>
      obtain ⟨⟨filled, fits⟩, others⟩ := List.forall_mem_cons.1 shown
      obtain ⟨inside, closed'⟩ := List.forall_mem_cons.1 closed
      obtain ⟨front, middle, rfl, blanks, behind⟩ := respaces.split_blanks blank
      have filled' : token.lexeme.toList ≠ [] := by simpa using filled
      have interior : ∀ place, offset + gap.length < place →
          place < offset + gap.length + token.lexeme.toList.length → excluded place := by
        intro place' low high
        rw [String.length_toList] at high
        refine inside place' ⟨?_, ?_⟩ <;> rw [place] <;> omega
      obtain ⟨back, rest', rfl, blanks', behind'⟩ :=
        behind.split_lexeme filled' fits.isBlank_eq_false interior rfl
      rw [String.length_toList] at behind'
      rw [← List.append_assoc]
      exact .token (List.forall_mem_append.2 ⟨blanks, blanks'⟩) (ih others closed' behind')

namespace Lays

variable {tokens : List Token} {chars : List Char}

/-- No qualified words begin where no name comes first. -/
theorem qualifiedWords_eq_nil (lays : Lays tokens chars) (shown : AreShown tokens)
    (unnamed : ∀ token ∈ tokens.head?, token.kind ≠ .name) : qualifiedWords chars = [] := by
  cases lays with
  | none blank =>
      have stops := qualifiedWords_blanks_append blank (rfl : qualifiedWords [] = [])
      rwa [List.append_nil] at stops
  | @token _ rest token _ blank =>
      refine qualifiedWords_blanks_append blank ?_
      have fits := (shown token (by simp)).2
      have kind := unnamed token rfl
      generalize token.kind = found at fits kind
      cases fits with
      | mark mark => exact qualifiedWords_mark_append mark rest
      | name => exact absurd rfl kind

/-- The tokens that lead from one draft to another are handed out again. -/
theorem yields {draft next : Draft} (lays : Lays tokens chars) (shown : AreShown tokens)
    (takes : draft.Takes tokens next) (source : String) (cursor : Cursor) :
    ∃ tokens' cursor', Scanner.Yields ⟨source, cursor, chars⟩ tokens' ⟨source, cursor', []⟩ ∧
      List.Forall₂ Token.Alike tokens tokens' := by
  induction lays generalizing draft cursor with
  | @none gap blank =>
      have passes := @Scanner.Yields.of_blanks source cursor gap blank []
      rw [List.append_nil] at passes
      exact ⟨[], _, passes, .nil⟩
  | @token gap rest token tokens blank behind ih =>
      obtain ⟨⟨filled, fits⟩, others⟩ := List.forall_mem_cons.1 shown
      cases takes with
      | token move taken =>
          obtain ⟨tokens', cursor', yields, alike⟩ :=
            ih others taken ((cursor.past gap).past token.lexeme.toList)
          have found : token.kind.lexeme? (token.lexeme.toList ++ rest) =
              some token.lexeme.toList := by
            -- Only behind a name does it matter what follows, and then it is not a name.
            have unnamed := move.head_ne_name taken
            generalize token.kind = kind at fits unnamed
            cases fits with
            | mark mark => exact lexeme?_of_mem_marks mark rest
            | name isName =>
                exact isName.name?_append (behind.qualifiedWords_eq_nil others (unnamed rfl))
          obtain ⟨notBlank, more⟩ := fits.kind_ne
          have one := Scanner.Yields.token found notBlank more yields
          refine ⟨_, cursor', (Scanner.Yields.of_blanks blank _).trans one, ?_⟩
          exact .cons ⟨rfl, String.ofList_toList⟩ alike

end Lays

/-- Other blanks between the tokens of a text that lists types leave the types as they are. -/
theorem parse_respaced {text text' source : String} {types : List TypeExpr}
    (read : parse text source = .ok types)
    (respaces : Respaces (IsInsideToken text source) 0 text.toList text'.toList)
    (source' : String) : parse text' source' = .ok types := by
  obtain ⟨tokens, draft, here, yields, takes, halts⟩ := Draft.result_eq_iff.1 read
  have ended : here.rest = [] := by
    cases halts
    rfl
  obtain ⟨front, whole, place, covers⟩ := yields.covers
  rw [ended, List.append_nil] at whole
  rw [ended] at place
  subst whole
  have cut := tokenize_eq_ok_iff.2 ⟨tokens, _, place ▸ yields, rfl⟩
  have closed : ∀ token ∈ tokens, ∀ place, token.HasInside place →
      IsInsideToken text source place :=
    fun token member place inside => ⟨_, cut, token, by simp [member], inside⟩
  have lays := covers.lays yields.matches closed respaces
  obtain ⟨tokens', cursor, yields', alike⟩ := lays.yields yields.matches takes source' .start
  have takes' := takes.behind alike []
  have halts' := halts.behind_ok [] source' cursor
  simp only [Draft.behind_nil, ended] at takes' halts'
  exact (takes'.result_eq yields').trans halts'.result_eq

/-- Texts that list types and differ in their blanks only list the same types. -/
theorem types_eq_of_same_signs {text text' source source' : String} {types types' : List TypeExpr}
    (read : parse text source = .ok types) (read' : parse text' source' = .ok types')
    (same : text.toList.filter (fun char => !isBlank char) =
      text'.toList.filter fun char => !isBlank char) : types = types' := by
  have bare : ∀ {text source : String} {types : List TypeExpr}, parse text source = .ok types →
      parse (String.ofList (text.toList.filter fun char => !isBlank char)) unnamedSource =
        .ok types := by
    intro text source types read
    refine parse_respaced read ?_ unnamedSource
    rw [String.toList_ofList]
    exact .withoutBlanks _ 0 text.toList
  have first := bare read
  rw [same, bare read'] at first
  exact (Except.ok.inj first).symm

end TypeProse
