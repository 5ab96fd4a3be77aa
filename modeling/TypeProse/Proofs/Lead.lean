import TypeProse.Prose.Phrase
import TypeProse.Proofs.Covering
import TypeProse.Proofs.Grammar

/-!
# How phrases begin

Names may be any words, also those that phrases are made of, so a phrase is not told by
its first word alone. `lead` finds out from what stands behind this word whether a phrase
is about a name on its own or about a collection, and which name it is. It is right as
long as nothing follows the phrase that could be taken for a part of it, which is what
`EndsPhrase` says.
-/

namespace TypeProse

/-- No name is empty. -/
theorem IsName.ne_nil {name : List Char} (isName : IsName name) : name ≠ [] := by
  cases isName with
  | method => simp
  | path words =>
      cases words with
      | word words => exact words.filled
      | joined => simp
  | rooted => simp

/-- What a collection says between its name and its members. -/
def Suffix.opening : Suffix → List Char
  | .collection _ => " of (".toList
  | .fixed _ => " containing (".toList
  | .hash _ _ => " with keys made of (".toList

namespace Prose

/-- The characters that names are made of. -/
def isNameChar (char : Char) : Bool :=
  isWord char || char == ':' || char == '#'

/-- Characters of names, and no others. -/
def IsRun (chars : List Char) : Prop :=
  ∀ char ∈ chars, isNameChar char = true

instance (chars : List Char) : Decidable (IsRun chars) :=
  decidable_of_iff (chars.all isNameChar = true) List.all_eq_true

/-- Whether a text begins with a character of names. -/
def beginsName : List Char → Bool
  | [] => false
  | char :: _ => isNameChar char

/-- Names are made of the characters of names. -/
theorem isRun_of_isName {name : List Char} (isName : IsName name) : IsRun name := by
  intro char inside
  rcases isName.isWord_or_sign char inside with word | rfl | rfl
  · simp [isNameChar, word]
  · rfl
  · rfl

/-- Articles are made of the characters of names. -/
theorem isRun_article (name : String) : IsRun (article name).toList := by
  unfold article
  split <;> decide

/-- A name with the ending of the plural is made of the characters of names. -/
theorem isRun_append_ending {name : List Char} (isRun : IsRun name) : IsRun (name ++ ['s']) :=
  List.forall_mem_append.2 ⟨isRun, List.forall_mem_singleton.2 rfl⟩

section

variable {run run' rest rest' : List Char}

/-- The characters of names at the front are taken until the text goes on with another. -/
theorem takeWhile_run_append (isRun : IsRun run) (breaks : beginsName rest = false) :
    (run ++ rest).takeWhile isNameChar = run := by
  rw [List.takeWhile_append_of_pos isRun]
  cases rest with
  | nil => simp
  | cons char rest =>
      have breaks : isNameChar char = false := breaks
      simp [breaks]

theorem dropWhile_run_append (isRun : IsRun run) (breaks : beginsName rest = false) :
    (run ++ rest).dropWhile isNameChar = rest := by
  have whole := List.takeWhile_append_dropWhile (p := isNameChar) (l := run ++ rest)
  rw [takeWhile_run_append isRun breaks] at whole
  exact List.append_cancel_left whole

/-- Where the characters of names end, a text can be split in one way only. -/
theorem run_append_inj (isRun : IsRun run) (isRun' : IsRun run') (breaks : beginsName rest = false)
    (breaks' : beginsName rest' = false) (same : run ++ rest = run' ++ rest') :
    run = run' ∧ rest = rest' := by
  constructor
  · rw [← takeWhile_run_append isRun breaks, same, takeWhile_run_append isRun' breaks']
  · rw [← dropWhile_run_append isRun breaks, same, dropWhile_run_append isRun' breaks']

end

/-- The brackets of collections, and what is said between the name and the members. -/
def openings : List (Bracket × List Char) :=
  [(.collection, " of (".toList), (.fixed, " containing (".toList),
    (.hashKeys, " with keys made of (".toList)]

/-- Whether a text begins with what a collection says behind its name. -/
def opens (chars : List Char) : Bool :=
  openings.any fun opening => opening.2.isPrefixOf chars

theorem mem_openings (suffix : Suffix) : (suffix.bracket, suffix.opening) ∈ openings := by
  cases suffix with
  | collection => exact .head _
  | fixed => exact .tail _ (.head _)
  | hash => exact .tail _ (.tail _ (.head _))

theorem opens_opening (suffix : Suffix) (back : List Char) :
    opens (suffix.opening ++ back) = true := by
  cases suffix <;> rfl

theorem beginsName_opening (suffix : Suffix) (back : List Char) :
    beginsName (suffix.opening ++ back) = false := by
  cases suffix <;> rfl

/-- Collections of different sorts go on differently behind their names. -/
theorem opening_append_inj {suffix suffix' : Suffix} {back back' : List Char}
    (same : suffix.opening ++ back = suffix'.opening ++ back') :
    suffix.bracket = suffix'.bracket ∧ back = back' := by
  have apart : ∀ opening ∈ openings, ∀ opening' ∈ openings,
      opening.2 <+: opening'.2 → opening = opening' := by
    decide
  have whole : suffix'.opening <+: suffix.opening ++ back := ⟨back', same.symm⟩
  have equal : (suffix.bracket, suffix.opening) = (suffix'.bracket, suffix'.opening) := by
    rcases List.prefix_or_prefix_of_prefix ⟨back, rfl⟩ whole with front | front
    · exact apart _ (mem_openings suffix) _ (mem_openings suffix') front
    · exact (apart _ (mem_openings suffix') _ (mem_openings suffix) front).symm
  obtain ⟨bracket, opening⟩ := Prod.mk.inj equal
  exact ⟨bracket, List.append_cancel_left (opening ▸ same)⟩

/-- What a collection says behind its name begins with one of three words between blanks. -/
theorem word_of_opens {word behind : List Char} (isRun : IsRun word)
    (breaks : beginsName behind = false) (opened : opens (' ' :: (word ++ behind)) = true) :
    word ∈ ["of".toList, "containing".toList, "with".toList] ∧ behind.head? = some ' ' := by
  have between : ∀ {run back : List Char}, IsRun run →
      ' ' :: (run ++ ' ' :: back) = ' ' :: (word ++ behind) →
      word = run ∧ behind.head? = some ' ' := by
    intro run back isRun' same
    obtain ⟨rfl, rfl⟩ := run_append_inj isRun isRun' breaks rfl (List.cons.inj same).2.symm
    exact ⟨rfl, rfl⟩
  have runs : ∀ run ∈ ["of".toList, "containing".toList, "with".toList], IsRun run := by decide
  simp only [opens, openings, List.any_cons, List.any_nil, Bool.or_false, Bool.or_eq_true,
    List.isPrefixOf_iff_prefix] at opened
  rcases opened with ⟨back, same⟩ | ⟨back, same⟩ | ⟨back, same⟩
  · obtain ⟨rfl, blank⟩ := between (runs _ (.head _)) same
    exact ⟨.head _, blank⟩
  · obtain ⟨rfl, blank⟩ := between (runs _ (.tail _ (.head _))) same
    exact ⟨.tail _ (.head _), blank⟩
  · obtain ⟨rfl, blank⟩ := between (runs _ (.tail _ (.tail _ (.head _)))) same
    exact ⟨.tail _ (.tail _ (.head _)), blank⟩

/-- A text behind a phrase that cannot be taken for a part of the phrase. The word `or`
could be taken for the name of a collection if its members followed. -/
inductive EndsPhrase : List Char → Prop where
  | done : EndsPhrase []
  | bracket {rest : List Char} : EndsPhrase (')' :: rest)
  | comma {rest : List Char} : EndsPhrase (',' :: rest)
  | semicolon {rest : List Char} : EndsPhrase (';' :: rest)
  | followed {rest : List Char} : EndsPhrase (" followed by ".toList ++ rest)
  | alternative {rest : List Char} (closed : opens (' ' :: rest) = false) :
      EndsPhrase (" or ".toList ++ rest)

/-- What a phrase is about. -/
inductive Lead where
  /-- A name on its own. -/
  | alone (name : List Char)
  /-- A collection with a name. -/
  | collection (name : List Char)
  deriving DecidableEq, Repr

/-- The name that a phrase about a name on its own is about, from the first word of the
phrase and what stands behind it. -/
def loneName : Number → List Char → List Char → List Char
  | .singular, word, behind =>
      match behind with
      -- The second letter sets an object apart from the word `or`.
      | ' ' :: 'o' :: 'b' :: _ => (behind.dropWhile (· != '#')).takeWhile isNameChar
      | ' ' :: first :: more =>
          if first.isUpper then (first :: more).takeWhile isNameChar else word
      | _ => word
  | .plural, word, behind =>
      match behind with
      | ' ' :: 't' :: _ => (behind.dropWhile (· != '#')).takeWhile isNameChar
      | '\'' :: _ => word
      | _ => if word.head?.any Char.isUpper then word.dropLast else word

/-- What a phrase is about, from its first word and what stands behind it. -/
def leadOf (number : Number) (word : List Char) : List Char → Lead
  | ' ' :: second =>
      if opens (second.dropWhile isNameChar) then .collection (second.takeWhile isNameChar)
      else .alone (loneName number word (' ' :: second))
  | behind => .alone (loneName number word behind)

/-- What the phrase at the front of a text is about. -/
def lead (number : Number) (chars : List Char) : Lead :=
  leadOf number (chars.takeWhile isNameChar) (chars.dropWhile isNameChar)

theorem lead_run_append {word behind : List Char} (number : Number) (isRun : IsRun word)
    (breaks : beginsName behind = false) :
    lead number (word ++ behind) = leadOf number word behind := by
  rw [lead, takeWhile_run_append isRun breaks, dropWhile_run_append isRun breaks]

/-- A collection is read off what stands before its members. -/
theorem lead_collection {name : String} (isName : IsName name.toList) (number : Number)
    (suffix : Suffix) (back : List Char) :
    lead number ((article name).toList ++ ' ' :: (name.toList ++ (suffix.opening ++ back))) =
      .collection name.toList := by
  have isRun := isRun_of_isName isName
  have breaks := beginsName_opening suffix back
  rw [lead_run_append number (isRun_article name) rfl, leadOf, dropWhile_run_append isRun breaks,
    takeWhile_run_append isRun breaks, opens_opening suffix back, if_pos rfl]

namespace EndsPhrase

variable {rest : List Char}

theorem beginsName_eq_false (ends : EndsPhrase rest) : beginsName rest = false := by
  cases ends <;> rfl

theorem opens_eq_false (ends : EndsPhrase rest) : opens rest = false := by
  cases ends <;> rfl

/-- A word before the end of a phrase is not the article of a collection. -/
theorem leadOf_eq (ends : EndsPhrase rest) (number : Number) (word : List Char) :
    leadOf number word rest = .alone (loneName number word rest) := by
  cases ends with
  | @alternative rest closed =>
      have second : ("or ".toList ++ rest).dropWhile isNameChar = ' ' :: rest := rfl
      show (if opens (("or ".toList ++ rest).dropWhile isNameChar) then _ else _) = _
      rw [second, closed]
      rfl
  | done | bracket | comma | semicolon | followed => rfl

theorem loneName_singular (ends : EndsPhrase rest) (word : List Char) :
    loneName .singular word rest = word := by
  cases ends <;> rfl

theorem loneName_plural (ends : EndsPhrase rest) (word : List Char) :
    loneName .plural word rest = if word.head?.any Char.isUpper then word.dropLast else word := by
  cases ends <;> rfl

end EndsPhrase

/-- Behind a blank, a capital letter begins the name of a class. -/
theorem loneName_capital {word more : List Char} {first : Char} (capital : first.isUpper = true) :
    loneName .singular word (' ' :: first :: more) = (first :: more).takeWhile isNameChar := by
  have other : first ≠ 'o' := by
    rintro rfl
    exact absurd capital (by decide)
  simp [loneName, other, capital]

/-- What a name stands for shows in its first character. -/
theorem ofName_cases {name : String} (isName : IsName name.toList) :
    name.toList.head? = some '#' ∧ NameSense.ofName name = .duck ∨
    name.toList.head?.any Char.isUpper = false ∧ NameSense.ofName name = .constant ∨
    name.toList.head?.any Char.isUpper = true ∧ NameSense.ofName name = .ofClass := by
  obtain ⟨first, run, shape⟩ := List.exists_cons_of_ne_nil isName.ne_nil
  simp only [NameSense.ofName, shape, List.head?_cons, Option.some.injEq, Option.any_some,
    isCapital_singleton]
  by_cases sign : first = '#'
  · simp [sign]
  · cases capital : first.isUpper <;> simp [sign]

/-- The plural of a class is the name and what does not belong to it, or the name and one
more character. -/
theorem toList_pluralOf (name : String) :
    (pluralOf name).toList = name.toList ++ ['\'', 's'] ∨
      (pluralOf name).toList = name.toList ++ ['s'] := by
  unfold pluralOf
  split
  · exact .inl String.toList_append
  · exact .inr String.toList_append

section

variable {name : String} {rest : List Char}

/-- The name of a method is what begins with the number sign in a phrase about it. -/
theorem lead_duck (isName : IsName name.toList) (ends : EndsPhrase rest)
    (sign : name.toList.head? = some '#') (sense : NameSense.ofName name = .duck)
    (number : Number) :
    lead number ((namePhrase name number).toList ++ rest) = .alone name.toList := by
  have front := takeWhile_run_append (isRun_of_isName isName) ends.beginsName_eq_false
  obtain ⟨run, shape⟩ := List.head?_eq_some_iff.1 sign
  have one : lead .singular ("an object that responds to ".toList ++ (name.toList ++ rest)) =
      .alone ((name.toList ++ rest).takeWhile isNameChar) := by
    rw [shape]
    rfl
  have many : lead .plural ("objects that respond to ".toList ++ (name.toList ++ rest)) =
      .alone ((name.toList ++ rest).takeWhile isNameChar) := by
    rw [shape]
    rfl
  cases number with
  | singular => simp only [namePhrase, sense, String.toList_append, List.append_assoc, one, front]
  | plural => simp only [namePhrase, sense, String.toList_append, List.append_assoc, many, front]

/-- A constant is the phrase about it. -/
theorem lead_constant (isName : IsName name.toList) (ends : EndsPhrase rest)
    (small : name.toList.head?.any Char.isUpper = false)
    (sense : NameSense.ofName name = .constant) (number : Number) :
    lead number ((namePhrase name number).toList ++ rest) = .alone name.toList := by
  have said : namePhrase name number = name := by simp only [namePhrase, sense]
  rw [said, lead_run_append number (isRun_of_isName isName) ends.beginsName_eq_false,
    ends.leadOf_eq]
  cases number with
  | singular => rw [ends.loneName_singular]
  | plural =>
      rw [ends.loneName_plural, small]
      rfl

/-- The name of a class stands behind its article, or before the ending of the plural. -/
theorem lead_class (isName : IsName name.toList) (ends : EndsPhrase rest)
    (capital : name.toList.head?.any Char.isUpper = true)
    (sense : NameSense.ofName name = .ofClass) (number : Number) :
    lead number ((namePhrase name number).toList ++ rest) = .alone name.toList := by
  have isRun := isRun_of_isName isName
  have breaks := ends.beginsName_eq_false
  cases number with
  | singular =>
      have said : (namePhrase name .singular).toList ++ rest =
          (article name).toList ++ ' ' :: (name.toList ++ rest) := by
        simp [namePhrase, sense]
      have second : loneName .singular (article name).toList (' ' :: (name.toList ++ rest)) =
          (name.toList ++ rest).takeWhile isNameChar := by
        obtain ⟨first, run, shape⟩ := List.exists_cons_of_ne_nil isName.ne_nil
        rw [shape] at capital ⊢
        exact loneName_capital capital
      rw [said, lead_run_append _ (isRun_article name) rfl, leadOf,
        dropWhile_run_append isRun breaks, ends.opens_eq_false, second,
        takeWhile_run_append isRun breaks]
      rfl
  | plural =>
      have said : namePhrase name .plural = pluralOf name := by simp only [namePhrase, sense]
      rw [said]
      rcases toList_pluralOf name with plural | plural
      · rw [plural, List.append_assoc, lead_run_append _ isRun rfl]
        rfl
      · have first : (name.toList ++ ['s']).head?.any Char.isUpper = true := by
          obtain ⟨first, run, shape⟩ := List.exists_cons_of_ne_nil isName.ne_nil
          rw [shape] at capital ⊢
          exact capital
        rw [plural, lead_run_append _ (isRun_append_ending isRun) breaks, ends.leadOf_eq,
          ends.loneName_plural, if_pos first, List.dropLast_concat]

/-- A name on its own is read off the phrase about it. -/
theorem lead_namePhrase (isName : IsName name.toList) (ends : EndsPhrase rest)
    (number : Number) :
    lead number ((namePhrase name number).toList ++ rest) = .alone name.toList := by
  rcases ofName_cases isName with ⟨sign, sense⟩ | ⟨small, sense⟩ | ⟨capital, sense⟩
  · exact lead_duck isName ends sign sense number
  · exact lead_constant isName ends small sense number
  · exact lead_class isName ends capital sense number

-- The constant `an` before an alternative, and a collection with the name `or`.
example : lead .plural "an or of)".toList = .alone "an".toList := rfl
example : lead .plural "an or of (x)".toList = .collection "or".toList := rfl

/-- Names that are said before a closing bracket are not taken for what opens one. -/
theorem opens_namePhrase (isName : IsName name.toList) (rest : List Char) :
    opens (' ' :: ((namePhrase name .plural).toList ++ ')' :: rest)) = false := by
  have isRun := isRun_of_isName isName
  rw [Bool.eq_false_iff]
  intro opened
  rcases ofName_cases isName with ⟨-, sense⟩ | ⟨-, sense⟩ | ⟨-, sense⟩
  · have closed : ∀ back, opens (' ' :: ("objects that respond to ".toList ++ back)) = false :=
      fun _ => rfl
    simp only [namePhrase, sense, String.toList_append, List.append_assoc, closed] at opened
    cases opened
  · simp only [namePhrase, sense] at opened
    exact nomatch (word_of_opens isRun rfl opened).2
  · simp only [namePhrase, sense] at opened
    rcases toList_pluralOf name with plural | plural
    · rw [plural, List.append_assoc] at opened
      exact nomatch (word_of_opens isRun rfl opened).2
    · rw [plural] at opened
      exact nomatch (word_of_opens (isRun_append_ending isRun) rfl opened).2

end

end Prose

end TypeProse
