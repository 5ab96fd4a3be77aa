import TypeProse.Proofs.Lead
import TypeProse.Proofs.Locating
import TypeProse.Proofs.Padding

/-!
# Names are as long as possible

`name?` takes characters as long as they go on with a name and never looks back. Still it finds
a name wherever one begins, and of all names that begin there the longest. No other kind of token
begins where a name does, so the next token of a scanner is a name exactly where the text behind
the blanks begins with one.
-/

namespace TypeProse

open Text

/-- The longest front part of a text that is of a sort. -/
structure IsLongest (sort : List Char → Prop) (chars part : List Char) : Prop where
  front : part <+: chars
  sorted : sort part
  longest : ∀ other, other <+: chars → sort other → other.length ≤ part.length

/-- There is only one longest front part. -/
theorem IsLongest.unique {sort : List Char → Prop} {chars part part' : List Char}
    (longest : IsLongest sort chars part) (longest' : IsLongest sort chars part') :
    part = part' := by
  have below := longest'.longest part longest.front longest.sorted
  have above := longest.longest part' longest'.front longest'.sorted
  exact (List.prefix_of_prefix_length_le longest.front longest'.front below).eq_of_length
    (Nat.le_antisymm below above)

/-- Qualified words at the front of a text are a name. -/
theorem name?_of_qualifiedWords {chars : List Char} (filled : qualifiedWords chars ≠ []) :
    name? chars = some (qualifiedWords chars) := by
  unfold name?
  split
  · rename_i rest
    exact absurd (qualifiedWords_cons_eq_nil rfl (by decide) rest) filled
  · exact nonempty?_eq_some_iff.2 ⟨rfl, filled⟩

/-- A name is a word behind a number sign, or it consists of qualified words. -/
theorem IsName.method_or_qualified {name : List Char} (isName : IsName name) :
    (∃ run, name = '#' :: run ∧ IsWordRun run) ∨ qualifiedWords name = name := by
  cases isName with
  | method words => exact .inl ⟨_, rfl, words⟩
  | path words => exact .inr words.qualifiedWords_eq
  | rooted words =>
      have first := words.beginsWord []
      rw [List.append_nil] at first
      exact .inr (by rw [qualifiedWords_colons first, words.qualifiedWords_eq])

/-- Where a name begins, one is found that goes at least as far. -/
theorem IsName.exists_name? {name chars : List Char} (isName : IsName name)
    (front : name <+: chars) : ∃ lexeme, name? chars = some lexeme ∧ name <+: lexeme := by
  obtain ⟨back, rfl⟩ := front
  rcases isName.method_or_qualified with ⟨run, rfl, words⟩ | whole
  · refine ⟨'#' :: (run ++ back.takeWhile isWord), ?_, ⟨back.takeWhile isWord, rfl⟩⟩
    rw [List.cons_append, name?, List.takeWhile_append_of_pos words.words,
      nonempty?_eq_some_iff.2 ⟨rfl, by simp [words.filled]⟩]
    rfl
  · have taken : qualifiedWords (name ++ back) = name ++ qualifiedWords back :=
      qualifiedWords_append whole back
    refine ⟨name ++ qualifiedWords back, ?_, List.prefix_append _ _⟩
    rw [← taken]
    exact name?_of_qualifiedWords (by simp [taken, isName.ne_nil])

/-- The name that is found is the longest one at the front. -/
theorem name?_eq_some_iff_isLongest {chars lexeme : List Char} :
    name? chars = some lexeme ↔ IsLongest IsName chars lexeme := by
  have isLongest : ∀ {lexeme}, name? chars = some lexeme → IsLongest IsName chars lexeme := by
    intro lexeme found
    refine ⟨(name?_eq_some found).1, isName_of_name? found, fun other front isName => ?_⟩
    obtain ⟨lexeme', found', further⟩ := isName.exists_name? front
    cases found.symm.trans found'
    exact further.length_le
  refine ⟨isLongest, fun longest => ?_⟩
  obtain ⟨lexeme', found, -⟩ := longest.sorted.exists_name? longest.front
  rw [found, (isLongest found).unique longest]

/-- A colon between these parts of a name belongs to a double colon before a word: it is the first
of two colons or the second. -/
def JoinsWord (front back : List Char) : Prop :=
  ∃ char rest, isWord char = true ∧
    (back = ':' :: char :: rest ∨ back = char :: rest ∧ ∃ before, front = before ++ [':'])

/-- More may stand in front of the two colons. -/
theorem JoinsWord.behind {front back : List Char} (joins : JoinsWord front back)
    (before : List Char) : JoinsWord (before ++ front) back := by
  obtain ⟨char, rest, word, first | ⟨second, between, rfl⟩⟩ := joins
  · exact ⟨char, rest, word, .inl first⟩
  · exact ⟨char, rest, word, .inr ⟨second, before ++ between, by rw [List.append_assoc]⟩⟩

/-- Each colon among qualified words belongs to a double colon before a word. -/
theorem joinsWord_of_qualifiedWords {chars front back : List Char}
    (whole : qualifiedWords chars = chars) (split : chars = front ++ ':' :: back) :
    JoinsWord front back := by
  have colon : isWord ':' = false := by decide
  fun_induction qualifiedWords chars generalizing front with
  | case1 char rest word ih =>
      -- The double colon and the character behind it come one by one, then the words go on.
      rcases front with _ | ⟨first, _ | ⟨second, _ | ⟨third, front⟩⟩⟩
      · obtain ⟨-, rfl⟩ := List.cons.inj split
        exact ⟨char, rest, word, .inl rfl⟩
      · obtain ⟨rfl, -, rfl⟩ : ':' = first ∧ ':' = ':' ∧ char :: rest = back := by
          simpa using split
        exact ⟨char, rest, word, .inr ⟨rfl, [], rfl⟩⟩
      · obtain ⟨-, -, rfl, -⟩ : ':' = first ∧ ':' = second ∧ char = ':' ∧ rest = back := by
          simpa using split
        cases colon.symm.trans word
      · simp only [List.cons_append, List.cons.injEq] at split whole
        exact (ih whole.2.2.2 split.2.2.2).behind [first, second, third]
  | case2 char rest word => cases whole
  | case3 char rest shape word ih =>
      cases front with
      | nil =>
          obtain ⟨rfl, -⟩ := List.cons.inj split
          cases colon.symm.trans word
      | cons first front =>
          exact (ih (List.cons.inj whole).2 (List.cons.inj split).2).behind [first]
  | case4 char rest shape word => cases whole
  | case5 => simp at split

/-- Each colon of a name belongs to a double colon before a word. -/
theorem IsName.joinsWord {name front back : List Char} (isName : IsName name)
    (split : name = front ++ ':' :: back) : JoinsWord front back := by
  rcases isName.method_or_qualified with ⟨run, rfl, words⟩ | whole
  · cases front with
    | nil => cases split
    | cons sign front =>
        obtain ⟨-, rfl⟩ := List.cons.inj split
        exact absurd (words.words ':' (by simp)) (by decide)
  · exact joinsWord_of_qualifiedWords whole split

/-- A name behind a number sign has no colon in it. -/
theorem IsName.colon_not_mem {run : List Char} (isName : IsName ('#' :: run)) : ':' ∉ run := by
  rcases isName.method_or_qualified with ⟨run', same, words⟩ | whole
  · obtain ⟨-, rfl⟩ := List.cons.inj same
    intro inside
    exact absurd (words.words ':' inside) (by decide)
  · rw [qualifiedWords_cons_eq_nil rfl (by decide)] at whole
    cases whole

namespace Scanner

/-- The blanks in front are passed without a token. -/
theorem yields_skipBlanks (scanner : Scanner) : scanner.Yields [] scanner.skipBlanks := by
  obtain ⟨source, cursor, rest⟩ := scanner
  have passes : Yields ⟨source, cursor, leadingBlanks rest ++ dropLeadingBlanks rest⟩ [] _ :=
    .of_blanks (areBlanks_leadingBlanks rest) (dropLeadingBlanks rest)
  rw [← advance_length, leadingBlanks_append] at passes
  exact passes

/-- The next token is a name exactly where one is found behind the blanks. -/
theorem next_eq_name_iff {scanner : Scanner} {token : Token} :
    scanner.next.1 = .ok token ∧ token.kind = .name ↔
      ∃ lexeme, name? scanner.skipBlanks.rest = some lexeme ∧
        token = ⟨.name, String.ofList lexeme, scanner.skipBlanks.location⟩ := by
  rw [next, nextHere]
  constructor
  · rintro ⟨read, named⟩
    split at read
    · rename_i kind lexeme found
      cases read
      obtain rfl : kind = .name := named
      exact ⟨lexeme, lexemeAt?_eq_some_iff.1 found, rfl⟩
    · cases read
  · rintro ⟨lexeme, found, rfl⟩
    have first : lexemeAt? scanner.skipBlanks.rest = some (.name, lexeme) :=
      lexemeAt?_eq_some_iff.2 found
    rw [first]
    exact ⟨rfl, rfl⟩

/-- How a scanner reads names whose next character that is not blank has that offset, with that
text from there on. -/
structure ReadsLongestName (scanner : Scanner) (offset : Nat) (ahead : List Char) : Prop where
  /-- The next token is a name exactly where a name begins. -/
  named : (∃ token, scanner.next.1 = .ok token ∧ token.kind = .name) ↔
    ∃ name, name <+: ahead ∧ IsName name
  /-- It is the longest one that begins there. -/
  longest : ∀ token, scanner.next.1 = .ok token → token.kind = .name →
    token.location.offset = offset ∧ IsLongest IsName ahead token.lexeme.toList
  /-- A colon belongs to it only as a part of a double colon that a word follows. -/
  colons : ∀ token, scanner.next.1 = .ok token → token.kind = .name →
    ∀ front back, token.lexeme.toList = front ++ ':' :: back → JoinsWord front back
  /-- Behind a number sign no colon belongs to it. -/
  method : ∀ token, scanner.next.1 = .ok token → token.kind = .name →
    ∀ run, token.lexeme.toList = '#' :: run → ':' ∉ run
  /-- No other kind has a lexeme where a name begins. -/
  alone : ∀ name, name <+: ahead → IsName name →
    ∀ kind : TokenKind, kind ≠ .name → kind.lexeme? ahead = none

/-- Every scanner reads names in this way. -/
theorem readsLongestName (scanner : Scanner) :
    scanner.ReadsLongestName scanner.skipBlanks.cursor.offset scanner.skipBlanks.rest := by
  have reads : ∀ token, scanner.next.1 = .ok token → token.kind = .name →
      token.location = scanner.skipBlanks.location ∧
        IsLongest IsName scanner.skipBlanks.rest token.lexeme.toList := by
    intro token read named
    obtain ⟨lexeme, found, rfl⟩ := next_eq_name_iff.1 ⟨read, named⟩
    rw [String.toList_ofList]
    exact ⟨rfl, name?_eq_some_iff_isLongest.1 found⟩
  refine ⟨⟨?_, ?_⟩, ?_, ?_, ?_, ?_⟩
  · rintro ⟨token, read, named⟩
    have longest := (reads token read named).2
    exact ⟨_, longest.front, longest.sorted⟩
  · rintro ⟨name, front, isName⟩
    obtain ⟨lexeme, found, -⟩ := isName.exists_name? front
    exact ⟨_, next_eq_name_iff.2 ⟨lexeme, found, rfl⟩⟩
  · intro token read named
    obtain ⟨place, longest⟩ := reads token read named
    exact ⟨by rw [place]; rfl, longest⟩
  · intro token read named front back split
    exact (reads token read named).2.sorted.joinsWord split
  · intro token read named run shape
    exact IsName.colon_not_mem (shape ▸ (reads token read named).2.sorted)
  · intro name front isName kind other
    obtain ⟨lexeme, found, -⟩ := isName.exists_name? front
    refine Option.eq_none_iff_forall_ne_some.2 fun lexeme' found' => other ?_
    exact lexeme?_unique found' (show TokenKind.name.lexeme? _ = some lexeme from found)

/-- However a scanner is driven, it stays in its text. -/
theorem StandsIn.driven {text source : String} {scanner : Scanner}
    (stands : scanner.StandsIn text source) (requests : List Request) :
    (scanner.driven requests).StandsIn text source := by
  induction requests generalizing scanner with
  | nil => exact stands
  | cons request requests ih =>
      exact ih ((scanner.serves_perform request).standsIn stands).1

end Scanner

/-- The offset of the first character from an offset on that is not blank, or of the end. -/
def Text.solidFrom (chars : List Char) (offset : Nat) : Nat :=
  offset + (leadingBlanks (chars.drop offset)).length

/-- A scanner in a text passes blanks up to the next character that is not blank. -/
theorem Scanner.StandsIn.skipBlanks_eq {text source : String} {scanner : Scanner}
    (stands : scanner.StandsIn text source) :
    scanner.skipBlanks.cursor.offset = solidFrom text.toList scanner.cursor.offset ∧
      scanner.skipBlanks.rest = text.toList.drop (solidFrom text.toList scanner.cursor.offset) := by
  have stands' := scanner.yields_skipBlanks.standsIn stands
  have offset : scanner.skipBlanks.cursor.offset =
      solidFrom text.toList scanner.cursor.offset := by
    have front : scanner.rest.take (leadingBlanks scanner.rest).length =
        leadingBlanks scanner.rest :=
      (List.prefix_iff_eq_take.1 (List.takeWhile_prefix _)).symm
    rw [skipBlanks, advance, front, Cursor.offset_past, solidFrom, ← stands.unread]
  exact ⟨offset, offset ▸ stands'.unread⟩

/-- Names are cut out by the longest match. Wherever a scanner stands in a text, whatever it was
asked since the front of the text or since reading has left it: the next token is a name exactly
when a name begins at the next character that is not blank, and then it is the longest name that
begins there. A colon or a double colon that no word follows is never a part of it, a double colon
is never a part of it behind a number sign, and no other kind has a lexeme there. -/
theorem names_are_longest_matches (text source : String) :
    ∀ begun ∈ [Scanner.start text source, (readText text source).scanner], ∀ requests,
      (begun.driven requests).ReadsLongestName
        (solidFrom text.toList (begun.driven requests).cursor.offset)
        (text.toList.drop (solidFrom text.toList (begun.driven requests).cursor.offset)) := by
  intro begun either requests
  have stands : begun.StandsIn text source := by
    have front := Scanner.standsIn_start text source
    rcases List.mem_pair.1 either with rfl | rfl
    · exact front
    · exact (leaves_readText text source).yields.standsIn front
  obtain ⟨offset, ahead⟩ := (stands.driven requests).skipBlanks_eq
  rw [← ahead, ← offset]
  exact (begun.driven requests).readsLongestName

/-- Behind a method a double colon begins a name of its own, to which the last colon does not
belong, and reading a type that is not closed leaves nothing that could be a name. -/
theorem longest_name_behind_method :
    IsLongest IsName "::b: c".toList "::b".toList ∧
    ¬ ∃ name, name <+: "".toList ∧ IsName name := by
  have read : ((Scanner.start "#a ::b: c" "t").driven [.next]).next.1 =
      .ok ⟨.name, "::b", ⟨"t", 1, 4, 3⟩⟩ := by
    decide +kernel
  have ended : ((readText "A<b " "t").scanner.driven []).next.1 =
      .ok ⟨.endOfInput, "", ⟨"t", 1, 5, 4⟩⟩ := by
    decide +kernel
  have place : solidFrom "A<b ".toList ((readText "A<b " "t").scanner.driven []).cursor.offset =
      4 := by
    decide +kernel
  have behind := names_are_longest_matches "#a ::b: c" "t" _ List.mem_cons_self [.next]
  have left := names_are_longest_matches "A<b " "t" _ (List.mem_cons_of_mem _ List.mem_cons_self) []
  rw [place] at left
  constructor
  · exact (behind.longest _ read rfl).2
  · intro found
    obtain ⟨token, next, named⟩ := left.named.2 found
    cases ended.symm.trans next
    cases named

end TypeProse
