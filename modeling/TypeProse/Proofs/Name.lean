import TypeProse.Token.Lexeme

/-!
# The language of names

`IsName` says which texts are names without saying how they are found. `name?` finds
a name at the front of a text; here it is shown to find nothing else, and to find
every name whose following text does not go on with it. `KeepsNames` compares two
such following texts: whatever name is found before the one is found before the
other.
-/

namespace TypeProse

/-- One or more word characters. -/
structure IsWordRun (chars : List Char) : Prop where
  filled : chars ≠ []
  words : ∀ char ∈ chars, isWord char = true

instance (chars : List Char) : Decidable (IsWordRun chars) :=
  decidable_of_iff (chars ≠ [] ∧ chars.all isWord = true)
    ⟨fun ⟨filled, words⟩ => ⟨filled, List.all_eq_true.1 words⟩,
      fun ⟨filled, words⟩ => ⟨filled, List.all_eq_true.2 words⟩⟩

/-- One or more runs of word characters, joined by double colons. -/
inductive IsPath : List Char → Prop where
  | word {run : List Char} (words : IsWordRun run) : IsPath run
  | joined {run path : List Char} (words : IsWordRun run) (rest : IsPath path) :
      IsPath (run ++ ':' :: ':' :: path)

/-- A name is a number sign before one run of word characters, or a path that may have a
double colon in front. -/
inductive IsName : List Char → Prop where
  | method {run : List Char} (words : IsWordRun run) : IsName ('#' :: run)
  | path {path : List Char} (words : IsPath path) : IsName path
  | rooted {path : List Char} (words : IsPath path) : IsName (':' :: ':' :: path)

/-- Whether a text begins with a word character. -/
def beginsWord : List Char → Bool
  | [] => false
  | char :: _ => isWord char

/-- A run of word characters is taken until the text no longer begins with one. -/
theorem takeWhile_isWord_eq_nil_iff {chars : List Char} :
    chars.takeWhile isWord = [] ↔ beginsWord chars = false := by
  cases chars with
  | nil => simp [beginsWord]
  | cons char rest => simp [beginsWord, List.takeWhile_cons]

/-- A word character at the front belongs to the qualified words. -/
theorem qualifiedWords_cons {char : Char} (word : isWord char = true) (rest : List Char) :
    qualifiedWords (char :: rest) = char :: qualifiedWords rest := by
  have colon : char ≠ ':' := by
    rintro rfl
    exact absurd word (by decide)
  rw [qualifiedWords.eq_2 _ _ (by simp [colon]), if_pos word]

/-- A double colon at the front belongs to the qualified words if a word follows it. -/
theorem qualifiedWords_colons {rest : List Char} (word : beginsWord rest = true) :
    qualifiedWords (':' :: ':' :: rest) = ':' :: ':' :: qualifiedWords rest := by
  cases rest with
  | nil => cases word
  | cons char rest =>
      have first : isWord char = true := word
      rw [qualifiedWords.eq_1, if_pos first, qualifiedWords_cons first]

/-- A text begins with no qualified words exactly when neither it nor what follows a
double colon at its front begins with a word. -/
theorem qualifiedWords_eq_nil_iff {chars : List Char} :
    qualifiedWords chars = [] ↔
      beginsWord chars = false ∧
        ∀ rest, chars = ':' :: ':' :: rest → beginsWord rest = false := by
  have colon : isWord ':' = false := by decide
  fun_cases qualifiedWords chars with
  | case1 char rest word => simp [beginsWord, word]
  | case2 char rest word => simp [beginsWord, word, colon]
  | case3 char rest shape word => simp [beginsWord, word]
  | case4 char rest shape word =>
      simp only [beginsWord, word, true_and, true_iff, Bool.not_eq_true] at *
      rintro following equal
      cases equal
      cases following with
      | nil => rfl
      | cons next rest => exact absurd rfl (shape next rest rfl)
  | case5 => simp [beginsWord]

/-- No qualified words begin with a character that is neither a word character nor a colon. -/
theorem qualifiedWords_cons_eq_nil {char : Char} (word : isWord char = false) (colon : char ≠ ':')
    (rest : List Char) : qualifiedWords (char :: rest) = [] :=
  qualifiedWords_eq_nil_iff.2 ⟨word, by simp [colon]⟩

/-- Whether a text begins with a word does not depend on what follows it. -/
theorem beginsWord_append {chars : List Char} (filled : chars ≠ []) (more : List Char) :
    beginsWord (chars ++ more) = beginsWord chars := by
  cases chars with
  | nil => exact absurd rfl filled
  | cons char rest => rfl

/-- A text that does not begin with a word does not when it is cut short. -/
theorem beginsWord_of_isPrefix {chars chars' : List Char} (front : chars' <+: chars)
    (absent : beginsWord chars = false) : beginsWord chars' = false := by
  obtain ⟨more, rfl⟩ := front
  cases chars' with
  | nil => rfl
  | cons char rest => exact absent

/-- A text that begins with no qualified words begins with none when it goes on, unless it
is empty or a part of a double colon. -/
theorem qualifiedWords_append_eq_nil {chars : List Char} (filled : chars ≠ [])
    (colon : chars ≠ [':']) (colons : chars ≠ [':', ':']) (stops : qualifiedWords chars = [])
    (more : List Char) : qualifiedWords (chars ++ more) = [] := by
  obtain ⟨first, following⟩ := qualifiedWords_eq_nil_iff.1 stops
  refine qualifiedWords_eq_nil_iff.2 ⟨by rwa [beginsWord_append filled], fun rest equal => ?_⟩
  -- The double colon and the character after it lie before the added text.
  match chars with
  | [] => exact absurd rfl filled
  | [other] =>
      obtain ⟨rfl, -⟩ : other = ':' ∧ more = ':' :: rest := by simpa using equal
      exact absurd rfl colon
  | [other, another] =>
      obtain ⟨rfl, rfl, -⟩ : other = ':' ∧ another = ':' ∧ more = rest := by simpa using equal
      exact absurd rfl colons
  | other :: another :: third :: others =>
      obtain ⟨rfl, rfl, rfl⟩ :
          other = ':' ∧ another = ':' ∧ third :: (others ++ more) = rest := by
        simpa using equal
      exact following (third :: others) rfl

/-- A text that begins with no qualified words begins with none when it is cut short. -/
theorem qualifiedWords_eq_nil_of_isPrefix {chars chars' : List Char} (front : chars' <+: chars)
    (stops : qualifiedWords chars = []) : qualifiedWords chars' = [] := by
  obtain ⟨first, colons⟩ := qualifiedWords_eq_nil_iff.1 stops
  refine qualifiedWords_eq_nil_iff.2 ⟨beginsWord_of_isPrefix front first, fun rest equal => ?_⟩
  obtain ⟨more, rfl⟩ := front
  exact beginsWord_of_isPrefix ⟨more, rfl⟩ (colons (rest ++ more) (by simp [equal]))

/-- The qualified words of a text are all qualified words, and behind them no more follow. -/
theorem qualifiedWords_split (chars : List Char) :
    ∃ back, chars = qualifiedWords chars ++ back ∧
      qualifiedWords (qualifiedWords chars) = qualifiedWords chars ∧ qualifiedWords back = [] := by
  fun_induction qualifiedWords chars with
  | case1 char rest word ih =>
      obtain ⟨back, split, whole, stops⟩ := ih
      exact ⟨back, by simp [← split], by simp [qualifiedWords, word, whole], stops⟩
  | case2 char rest word =>
      exact ⟨_, rfl, rfl, by simp [qualifiedWords, word]⟩
  | case3 char rest shape word ih =>
      obtain ⟨back, split, whole, stops⟩ := ih
      exact ⟨back, by simp [← split], by rw [qualifiedWords_cons word, whole], stops⟩
  | case4 char rest shape word =>
      exact ⟨_, rfl, rfl, by rw [qualifiedWords.eq_2 _ _ shape, if_neg word]⟩
  | case5 => exact ⟨[], rfl, rfl, rfl⟩

/-- Qualified words that make up the whole of a text go on with those behind it. -/
theorem qualifiedWords_append {front : List Char} (whole : qualifiedWords front = front)
    (back : List Char) : qualifiedWords (front ++ back) = front ++ qualifiedWords back := by
  fun_induction qualifiedWords front with
  | case1 char rest word ih =>
      have inner : qualifiedWords rest = rest := by simpa using whole
      simp [qualifiedWords, word, ih inner]
  | case2 char rest word => cases whole
  | case3 char rest shape word ih =>
      have inner : qualifiedWords rest = rest := by simpa using whole
      rw [List.cons_append, qualifiedWords_cons word, ih inner]
      rfl
  | case4 char rest shape word => cases whole
  | case5 => rfl

/-- A run of word characters consists of qualified words. -/
theorem qualifiedWords_words_append {run : List Char} (words : ∀ char ∈ run, isWord char = true)
    (back : List Char) : qualifiedWords (run ++ back) = run ++ qualifiedWords back := by
  induction run with
  | nil => rfl
  | cons char run ih =>
      obtain ⟨first, others⟩ := List.forall_mem_cons.1 words
      rw [List.cons_append, qualifiedWords_cons first, ih others, List.cons_append]

/-- A path begins with a word. -/
theorem IsPath.beginsWord {path : List Char} (words : IsPath path) (back : List Char) :
    beginsWord (path ++ back) = true := by
  have first : ∀ {run : List Char}, IsWordRun run → ∀ rest, TypeProse.beginsWord (run ++ rest) := by
    rintro run ⟨filled, all⟩ rest
    cases run with
    | nil => exact absurd rfl filled
    | cons char run => exact all char (by simp)
  cases words with
  | word words => exact first words back
  | joined words rest => simpa using first words _

/-- A path consists of qualified words. -/
theorem IsPath.qualifiedWords_eq {path : List Char} (words : IsPath path) :
    qualifiedWords path = path := by
  induction words with
  | word words => simpa [qualifiedWords] using qualifiedWords_words_append words.words []
  | joined words rest ih =>
      rw [qualifiedWords_words_append words.words,
        qualifiedWords_colons (by simpa using rest.beginsWord []), ih]

/-- A word character before a path, or before a double colon and a path, begins a path. -/
theorem IsPath.cons {char : Char} (word : isWord char = true) {path : List Char}
    (words : IsPath path) : IsPath (char :: path) := by
  have extended : ∀ {run : List Char}, IsWordRun run → IsWordRun (char :: run) := by
    rintro run ⟨_, all⟩
    exact ⟨by simp, by simpa [word] using all⟩
  cases words with
  | word words => exact .word (extended words)
  | joined words rest => exact .joined (extended words) rest

/-- Qualified words are a path, with or without a double colon in front. -/
theorem isPath_of_qualifiedWords {chars : List Char} (filled : qualifiedWords chars ≠ []) :
    IsPath (qualifiedWords chars) ∨
      ∃ path, IsPath path ∧ qualifiedWords chars = ':' :: ':' :: path := by
  -- A character joins the path behind it, or stands alone before a double colon.
  have grown : ∀ {char : Char} {rest : List Char}, isWord char = true →
      (qualifiedWords rest ≠ [] → IsPath (qualifiedWords rest) ∨
        ∃ path, IsPath path ∧ qualifiedWords rest = ':' :: ':' :: path) →
      IsPath (char :: qualifiedWords rest) := by
    intro char rest word behind
    have single : IsWordRun [char] := ⟨by simp, by simpa using word⟩
    by_cases empty : qualifiedWords rest = []
    · rw [empty]
      exact .word single
    · rcases behind empty with path | ⟨path, isPath, equal⟩
      · exact path.cons word
      · rw [equal]
        exact .joined single isPath
  fun_induction qualifiedWords chars with
  | case1 char rest word ih => exact .inr ⟨_, grown word ih, rfl⟩
  | case2 char rest word => exact absurd rfl filled
  | case3 char rest shape word ih => exact .inl (grown word ih)
  | case4 char rest shape word => exact absurd rfl filled
  | case5 => exact absurd rfl filled

/-- A name is found in front of a text exactly when the text does not go on with it: a
method ends where no word begins, and a path where no qualified words follow. -/
theorem name?_append_eq_some_iff {lexeme back : List Char} :
    name? (lexeme ++ back) = some lexeme ↔
      (∃ run, lexeme = '#' :: run ∧ IsWordRun run ∧ beginsWord back = false) ∨
        (lexeme ≠ [] ∧ qualifiedWords lexeme = lexeme ∧ qualifiedWords back = []) := by
  constructor
  · intro found
    unfold name? at found
    split at found
    · rename_i rest equal
      obtain ⟨run, wordsFound, rfl⟩ := Option.map_eq_some_iff.1 found
      obtain ⟨taken, filled⟩ := nonempty?_eq_some_iff.1 wordsFound
      obtain rfl : run ++ back = rest := by simpa using equal
      have words : ∀ char ∈ run, isWord char = true := by
        rw [← taken]
        exact List.all_eq_true.1 List.all_takeWhile
      rw [List.takeWhile_append_of_pos words, List.append_right_eq_self] at taken
      exact .inl ⟨run, rfl, ⟨filled, words⟩, takeWhile_isWord_eq_nil_iff.1 taken⟩
    · obtain ⟨taken, filled⟩ := nonempty?_eq_some_iff.1 found
      obtain ⟨rest, split, whole, stops⟩ := qualifiedWords_split (lexeme ++ back)
      rw [taken] at split whole
      rw [List.append_cancel_left_eq] at split
      exact .inr ⟨filled, whole, split ▸ stops⟩
  · rintro (⟨run, rfl, ⟨filled, words⟩, stops⟩ | ⟨filled, whole, stops⟩)
    · have taken : (run ++ back).takeWhile isWord = run := by
        rw [List.takeWhile_append_of_pos words, takeWhile_isWord_eq_nil_iff.2 stops,
          List.append_nil]
      simp [name?, taken, nonempty?_eq_some_iff.2 ⟨rfl, filled⟩]
    · have taken : qualifiedWords (lexeme ++ back) = lexeme := by
        rw [qualifiedWords_append whole, stops, List.append_nil]
      unfold name?
      split
      · rename_i rest equal
        rw [equal, qualifiedWords_cons_eq_nil rfl (by decide)] at taken
        exact absurd taken.symm filled
      · exact nonempty?_eq_some_iff.2 ⟨taken, filled⟩

/-- No name is found where neither qualified words begin nor a word follows a number
sign. -/
theorem name?_eq_none_iff {chars : List Char} :
    name? chars = none ↔
      (∀ rest, chars = '#' :: rest → beginsWord rest = false) ∧ qualifiedWords chars = [] := by
  have empty : ∀ {found : List Char}, nonempty? found = none ↔ found = [] := by
    intro found
    cases found <;> simp [nonempty?]
  unfold name?
  split
  · rename_i rest
    have stops := qualifiedWords_cons_eq_nil (show isWord '#' = false from rfl) (by decide) rest
    rw [Option.map_eq_none_iff, empty, takeWhile_isWord_eq_nil_iff]
    simp [stops]
  · rename_i sign
    rw [empty]
    exact ⟨fun stops => ⟨fun rest equal => absurd equal (sign rest), stops⟩, And.right⟩

/-- What is found at the front of a text is a name. -/
theorem isName_of_name? {chars lexeme : List Char} (found : name? chars = some lexeme) :
    IsName lexeme := by
  obtain ⟨back, rfl⟩ := (name?_eq_some found).1
  rcases name?_append_eq_some_iff.1 found with ⟨run, rfl, words, _⟩ | ⟨filled, whole, _⟩
  · exact .method words
  · rcases isPath_of_qualifiedWords (whole.symm ▸ filled) with path | ⟨path, isPath, equal⟩
    · exact .path (whole ▸ path)
    · rw [← whole, equal]
      exact .rooted isPath

/-- A name is found in front of every text that begins neither with a word nor with a
colon. -/
theorem IsName.name?_append {lexeme back : List Char} (isName : IsName lexeme)
    (stops : qualifiedWords back = []) : name? (lexeme ++ back) = some lexeme := by
  have word := (qualifiedWords_eq_nil_iff.1 stops).1
  have path : ∀ {path : List Char}, IsPath path → path ≠ [] := by
    rintro path words rfl
    cases words.beginsWord []
  refine name?_append_eq_some_iff.2 ?_
  cases isName with
  | method words => exact .inl ⟨_, rfl, words, word⟩
  | path words => exact .inr ⟨path words, words.qualifiedWords_eq, stops⟩
  | rooted words =>
      refine .inr ⟨by simp, ?_, stops⟩
      rw [qualifiedWords_colons (by simpa using words.beginsWord []), words.qualifiedWords_eq]

/-- Every name that is found before the one text, or before some characters and that text,
is found before the other text as well. -/
def KeepsNames (back back' : List Char) : Prop :=
  ∀ lexeme between, name? (lexeme ++ (between ++ back)) = some lexeme →
    name? (lexeme ++ (between ++ back')) = some lexeme

/-- Names are kept if no qualified words appear where none were, and no word begins where
none did. -/
theorem keepsNames_of_stops {back back' : List Char}
    (word : beginsWord back = false → beginsWord back' = false)
    (stops : ∀ between, qualifiedWords (between ++ back) = [] →
      qualifiedWords (between ++ back') = []) : KeepsNames back back' := by
  intro lexeme between found
  refine name?_append_eq_some_iff.2 ?_
  rcases name?_append_eq_some_iff.1 found with ⟨run, equal, words, ends⟩ | ⟨filled, whole, ends⟩
  · refine .inl ⟨run, equal, words, ?_⟩
    cases between with
    | nil => exact word ends
    | cons char between => exact ends
  · exact .inr ⟨filled, whole, stops between ends⟩

/-- A text may be cut short. -/
theorem keepsNames_of_isPrefix {back back' : List Char} (front : back' <+: back) :
    KeepsNames back back' := by
  refine keepsNames_of_stops (beginsWord_of_isPrefix front) fun between ends => ?_
  have longer : between ++ back' <+: between ++ back := by simpa using front
  exact qualifiedWords_eq_nil_of_isPrefix longer ends

/-- A text may be exchanged for one that begins neither with a word nor with a colon. -/
theorem keepsNames_cons (back : List Char) {char : Char} (word : isWord char = false)
    (colon : char ≠ ':') (rest : List Char) : KeepsNames back (char :: rest) := by
  refine keepsNames_of_stops (fun _ => word) fun between ends => ?_
  obtain ⟨first, colons⟩ := qualifiedWords_eq_nil_iff.1 ends
  refine qualifiedWords_eq_nil_iff.2 ?_
  match between with
  | [] => exact ⟨word, by simp [colon]⟩
  | [other] => exact ⟨first, by simp [colon]⟩
  | [other, another] =>
      refine ⟨first, fun following equal => ?_⟩
      obtain ⟨-, -, rfl⟩ : other = ':' ∧ another = ':' ∧ char :: rest = following := by
        simpa using equal
      exact word
  | other :: another :: third :: between =>
      refine ⟨first, fun following equal => ?_⟩
      obtain ⟨rfl, rfl, rfl⟩ :
          other = ':' ∧ another = ':' ∧ third :: (between ++ char :: rest) = following := by
        simpa using equal
      exact colons (third :: (between ++ back)) rfl

/-- A text may go on with a character that is neither of a word nor a colon. -/
theorem keepsNames_append_cons (back : List Char) {char : Char} (word : isWord char = false)
    (colon : char ≠ ':') (rest : List Char) : KeepsNames back (back ++ char :: rest) := by
  intro lexeme between found
  have ended := keepsNames_cons [] word colon rest lexeme (between ++ back) (by simpa using found)
  simpa using ended

/-- A text may go on, unless it is empty or a part of a double colon. -/
theorem keepsNames_append {back : List Char} (filled : back ≠ []) (colon : back ≠ [':'])
    (colons : back ≠ [':', ':']) (more : List Char) : KeepsNames back (back ++ more) := by
  have word : beginsWord back = false → beginsWord (back ++ more) = false := by
    intro absent
    rw [beginsWord_append filled]
    exact absent
  refine keepsNames_of_stops word fun between ends => ?_
  -- A text that ends with one that is settled is settled.
  have settled : ∀ {chars : List Char}, back <:+ chars →
      chars ≠ [] ∧ chars ≠ [':'] ∧ chars ≠ [':', ':'] := by
    intro chars ending
    refine ⟨?_, ?_, ?_⟩ <;> rintro rfl <;>
      simp [List.suffix_cons_iff, filled, colon, colons] at ending
  obtain ⟨filled, colon, colons⟩ := settled (List.suffix_append between back)
  rw [← List.append_assoc]
  exact qualifiedWords_append_eq_nil filled colon colons ends more

end TypeProse
