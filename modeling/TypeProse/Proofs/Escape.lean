import TypeProse.Text.Terminal

/-!
# What is left without escape sequences

A style says which characters an escape sequence is made of. `Removes` says what is left of a
text when the sequences of a language are taken out of it from the front on. With the style of
terminals, this is what `stripEscapes` leaves.
-/

namespace TypeProse.Text

/-- The characters that escape sequences may have between the bracket and their end, and those
that may end them. -/
structure EscapeStyle where
  parameters : List CodeRange
  intermediates : List CodeRange
  finals : List CodeRange
  deriving DecidableEq, Repr

/-- The escape sequences of terminals. -/
def EscapeStyle.terminal : EscapeStyle :=
  ⟨[escapeParameters], [escapeIntermediates], [escapeFinals]⟩

/-- The escape sequences that have digits, semicolons and question marks before a letter. -/
def EscapeStyle.lettered : EscapeStyle :=
  ⟨[⟨0x30, 0x39⟩, .single 0x3B, .single 0x3F], [], [⟨0x41, 0x5A⟩, ⟨0x61, 0x7A⟩]⟩

theorem CodeRange.containedIn_singleton (range : CodeRange) (char : Char) :
    containedIn [range] char = range.contains char := by
  simp [containedIn]

/-- The escape sequences of a style. -/
inductive EscapeStyle.Sequence (style : EscapeStyle) : List Char → Prop where
  | written {parameters intermediates : List Char} {final : Char}
      (first : ∀ char ∈ parameters, CodeRange.containedIn style.parameters char = true)
      (second : ∀ char ∈ intermediates, CodeRange.containedIn style.intermediates char = true)
      (last : CodeRange.containedIn style.finals final = true) :
      style.Sequence ('\x1b' :: '[' :: (parameters ++ (intermediates ++ [final])))

/-- Every sequence is taken out of a text. Those that begin further in front come first, and
after one is taken out the text goes on behind it. -/
inductive Removes (sequence : List Char → Prop) : List Char → List Char → Prop where
  | done : Removes sequence [] []
  | removed {found rest left : List Char} (one : sequence found)
      (others : Removes sequence rest left) : Removes sequence (found ++ rest) left
  | kept {char : Char} {rest left : List Char}
      (none : ∀ found after, sequence found → char :: rest ≠ found ++ after)
      (others : Removes sequence rest left) : Removes sequence (char :: rest) (char :: left)

/-- Something is left of every text, if no sequence is empty. -/
theorem exists_removes {sequence : List Char → Prop} (filled : ∀ found, sequence found → found ≠ [])
    (chars : List Char) : ∃ left, Removes sequence chars left := by
  -- The length goes down by a whole sequence or by one character.
  induction length : chars.length using Nat.strongRecOn generalizing chars with
  | ind count ih =>
      by_cases begins : ∃ found after, sequence found ∧ chars = found ++ after
      · obtain ⟨found, after, one, rfl⟩ := begins
        have shorter : after.length < count := by
          have some := List.length_pos_iff.2 (filled found one)
          rw [List.length_append] at length
          omega
        obtain ⟨left, removes⟩ := ih after.length shorter after rfl
        exact ⟨left, .removed one removes⟩
      · cases chars with
        | nil => exact ⟨[], .done⟩
        | cons char rest =>
            have shorter : rest.length < count := by
              rw [List.length_cons] at length
              omega
            obtain ⟨left, removes⟩ := ih rest.length shorter rest rfl
            refine ⟨char :: left, .kept (fun found after one whole => ?_) removes⟩
            exact begins ⟨found, after, one, whole⟩

/-- A character that no sequence has is left. -/
theorem Removes.mem {sequence : List Char → Prop} {chars left : List Char} {char : Char}
    (removes : Removes sequence chars left) (outside : ∀ found, sequence found → char ∉ found)
    (inside : char ∈ chars) : char ∈ left := by
  induction removes with
  | done => exact inside
  | removed one _ ih =>
      rcases List.mem_append.1 inside with taken | behind
      · exact absurd taken (outside _ one)
      · exact ih behind
  | kept _ _ ih =>
      rcases List.mem_cons.1 inside with rfl | behind
      · exact List.mem_cons_self
      · exact List.mem_cons_of_mem _ (ih behind)

/-- No escape sequence is empty. -/
theorem EscapeStyle.Sequence.ne_nil {style : EscapeStyle} {found : List Char}
    (sequence : style.Sequence found) : found ≠ [] := by
  obtain ⟨-, -, -⟩ := sequence
  exact List.cons_ne_nil _ _

/-- The characters of a sequence are its first two, and those that its style allows. -/
theorem EscapeStyle.Sequence.mem {style : EscapeStyle} {found : List Char} {char : Char}
    (sequence : style.Sequence found) (inside : char ∈ found) :
    char = '\x1b' ∨ char = '[' ∨ CodeRange.containedIn
      (style.parameters ++ style.intermediates ++ style.finals) char = true := by
  obtain ⟨first, second, last⟩ := sequence
  simp only [CodeRange.containedIn, List.any_append, Bool.or_eq_true] at first second last ⊢
  simp only [List.mem_cons, List.mem_append, List.not_mem_nil, or_false] at inside
  rcases inside with rfl | rfl | parameter | intermediate | rfl
  · exact .inl rfl
  · exact .inr (.inl rfl)
  · exact .inr (.inr (.inl (.inl (first char parameter))))
  · exact .inr (.inr (.inl (.inr (second char intermediate))))
  · exact .inr (.inr (.inr last))

/-- The characters of one class are dropped up to the first that is not of it. -/
theorem dropWhile_append_cons {isOf : Char → Bool} {run : List Char} {char : Char}
    (inside : ∀ char ∈ run, isOf char = true) (outside : isOf char = false) (rest : List Char) :
    (run ++ char :: rest).dropWhile isOf = char :: rest := by
  rw [List.dropWhile_append_of_pos inside, List.dropWhile_cons_of_neg (by simp [outside])]

/-- No character that may end an escape sequence may stand between the bracket and its end, and
no intermediate is a parameter. -/
theorem escape_classes_disjoint (char : Char) :
    (escapeFinals.contains char = true → escapeParameters.contains char = false ∧
      escapeIntermediates.contains char = false) ∧
    (escapeIntermediates.contains char = true → escapeParameters.contains char = false) := by
  simp only [← Bool.not_eq_true, CodeRange.contains_iff, escapeFinals, escapeParameters,
    escapeIntermediates]
  omega

/-- What follows an escape sequence begins with its final character when its parameters and
intermediates are passed. -/
theorem afterEscapeBody_append {parameters intermediates : List Char} {final : Char}
    (first : ∀ char ∈ parameters, escapeParameters.contains char = true)
    (second : ∀ char ∈ intermediates, escapeIntermediates.contains char = true)
    (last : escapeFinals.contains final = true) (after : List Char) :
    afterEscapeBody (parameters ++ (intermediates ++ final :: after)) = final :: after := by
  obtain ⟨neither, intermediate⟩ := (escape_classes_disjoint final).1 last
  have body : (parameters ++ (intermediates ++ final :: after)).dropWhile
      escapeParameters.contains = intermediates ++ final :: after := by
    cases intermediates with
    | nil => exact dropWhile_append_cons first neither after
    | cons char rest =>
        have other := (escape_classes_disjoint char).2 (second char List.mem_cons_self)
        exact dropWhile_append_cons first other (rest ++ final :: after)
  rw [afterEscapeBody, body, dropWhile_append_cons second intermediate]

/-- What is passed in front of a final character are parameters and intermediates. -/
theorem exists_of_afterEscapeBody {chars after : List Char} {final : Char}
    (body : afterEscapeBody chars = final :: after) :
    ∃ parameters intermediates, chars = parameters ++ (intermediates ++ final :: after) ∧
      (∀ char ∈ parameters, escapeParameters.contains char = true) ∧
      ∀ char ∈ intermediates, escapeIntermediates.contains char = true := by
  refine ⟨chars.takeWhile escapeParameters.contains,
    (chars.dropWhile escapeParameters.contains).takeWhile escapeIntermediates.contains, ?_,
    List.all_eq_true.1 List.all_takeWhile, List.all_eq_true.1 List.all_takeWhile⟩
  rw [← body, afterEscapeBody, List.takeWhile_append_dropWhile, List.takeWhile_append_dropWhile]

/-- A text goes on behind an escape sequence exactly when it is the sequence and what follows. -/
theorem afterEscape?_eq_some_iff {chars after : List Char} :
    afterEscape? chars = some after ↔
      ∃ found, EscapeStyle.terminal.Sequence found ∧ chars = found ++ after := by
  constructor
  · intro found
    fun_cases afterEscape? chars with
    | case1 rest final behind body last =>
        obtain rfl : behind = after := by simpa [afterEscape?, body, last] using found
        obtain ⟨parameters, intermediates, rfl, first, second⟩ := exists_of_afterEscapeBody body
        refine ⟨'\x1b' :: '[' :: (parameters ++ (intermediates ++ [final])), .written ?_ ?_ ?_,
          by simp⟩
        all_goals simpa only [EscapeStyle.terminal, CodeRange.containedIn_singleton]
    | case2 rest final behind body last => simp [afterEscape?, body, last] at found
    | case3 rest body => simp [afterEscape?, body] at found
    | case4 chars other => simp [afterEscape?] at found
  · rintro ⟨found, ⟨first, second, last⟩, rfl⟩
    simp only [EscapeStyle.terminal, CodeRange.containedIn_singleton] at first second last
    simp [afterEscape?, afterEscapeBody_append first second last, last]

/-- A text whose front is an escape sequence is left like what follows it. -/
theorem withoutEscapes_of_some {chars after : List Char}
    (found : afterEscape? chars = some after) : withoutEscapes chars = withoutEscapes after := by
  rw [withoutEscapes]
  split <;> simp_all

/-- A character that begins no escape sequence is left. -/
theorem withoutEscapes_cons_of_none {char : Char} {rest : List Char}
    (found : afterEscape? (char :: rest) = none) :
    withoutEscapes (char :: rest) = char :: withoutEscapes rest := by
  rw [withoutEscapes]
  split <;> simp_all

/-- Taking the escape sequences of terminals out of a text leaves one text only, and that is
what is written. -/
theorem removes_iff_withoutEscapes {chars left : List Char} :
    Removes EscapeStyle.terminal.Sequence chars left ↔ withoutEscapes chars = left := by
  constructor
  · intro removes
    induction removes with
    | done =>
        rw [withoutEscapes]
        rfl
    | removed one _ ih =>
        rw [withoutEscapes_of_some (afterEscape?_eq_some_iff.2 ⟨_, one, rfl⟩), ih]
    | @kept char rest _ none _ ih =>
        have nowhere : afterEscape? (char :: rest) = .none := by
          refine Option.eq_none_iff_forall_ne_some.2 fun after found => ?_
          obtain ⟨sequence, isSequence, whole⟩ := afterEscape?_eq_some_iff.1 found
          exact none sequence after isSequence whole
        rw [withoutEscapes_cons_of_none nowhere, ih]
  · rintro rfl
    fun_induction withoutEscapes chars with
    | case1 chars after found _ ih =>
        obtain ⟨sequence, isSequence, rfl⟩ := afterEscape?_eq_some_iff.1 found
        exact .removed isSequence ih
    | case2 => exact .done
    | case3 char rest nowhere ih =>
        refine .kept (fun sequence after isSequence whole => ?_) ih
        cases nowhere.symm.trans (afterEscape?_eq_some_iff.2 ⟨sequence, isSequence, whole⟩)

end TypeProse.Text
