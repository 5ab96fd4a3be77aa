import TypeProse.Proofs.Independence
import TypeProse.Proofs.Locating
import TypeProse.Proofs.Padding

/-!
# Texts from a file

`AreLines` says what the lines of a text are without saying how they are found. Without texts
among its arguments, the command describes the lines of its input as if they were given as
arguments, each without the blanks at either end. Options that ask for help are answered without
a look at the input.
-/

namespace TypeProse

namespace Text

/-- What may end a line. -/
def lineEndings : List (List Char) :=
  [['\n'], ['\r', '\n'], ['\r']]

/-- No character of the line ends a line. -/
def IsUnbroken (line : List Char) : Prop :=
  ∀ char ∈ line, char ≠ '\n' ∧ char ≠ '\r'

/-- A text and its lines. What stands behind the last ending is a line too, unless it is empty.
A carriage return and the line feed behind it are one ending. -/
inductive AreLines : List Char → List (List Char) → Prop where
  | none : AreLines [] []
  | last {line : List Char} (filled : line ≠ []) (unbroken : IsUnbroken line) :
      AreLines line [line]
  | ended {line ending rest : List Char} {lines : List (List Char)} (unbroken : IsUnbroken line)
      (ends : ending ∈ lineEndings) (whole : ending = ['\r'] → rest.head? ≠ some '\n')
      (others : AreLines rest lines) : AreLines (line ++ (ending ++ rest)) (line :: lines)

/-- A character that ends no line belongs to the first line. -/
theorem linesOf_cons {char : Char} (feed : char ≠ '\n') (carriage : char ≠ '\r')
    (rest : List Char) : linesOf (char :: rest) = extendFirstLine char (linesOf rest) := by
  rw [linesOf]
  · simp [carriage]
  · simp [carriage]
  · simp [feed]

/-- An ending ends the line in front of it. -/
theorem linesOf_ending {ending rest : List Char} (ends : ending ∈ lineEndings)
    (whole : ending = ['\r'] → rest.head? ≠ some '\n') :
    linesOf (ending ++ rest) = [] :: linesOf rest := by
  simp only [lineEndings, List.mem_cons, List.not_mem_nil, or_false] at ends
  rcases ends with rfl | rfl | rfl
  · simp [linesOf]
  · simp [linesOf]
  · have first := whole rfl
    cases rest with
    | nil => simp [linesOf]
    | cons char rest =>
        have feed : char ≠ '\n' := by simpa using first
        rw [List.singleton_append, linesOf]
        simp [feed]

/-- An unbroken line goes on to its ending. -/
theorem linesOf_append_ending {line ending rest : List Char} (unbroken : IsUnbroken line)
    (ends : ending ∈ lineEndings) (whole : ending = ['\r'] → rest.head? ≠ some '\n') :
    linesOf (line ++ (ending ++ rest)) = line :: linesOf rest := by
  induction line with
  | nil => exact linesOf_ending ends whole
  | cons char line ih =>
      obtain ⟨⟨feed, carriage⟩, others⟩ := List.forall_mem_cons.1 unbroken
      rw [List.cons_append, linesOf_cons feed carriage, ih others]
      rfl

/-- An unbroken text is its only line. -/
theorem linesOf_of_isUnbroken {line : List Char} (filled : line ≠ [])
    (unbroken : IsUnbroken line) : linesOf line = [line] := by
  induction line with
  | nil => exact absurd rfl filled
  | cons char line ih =>
      obtain ⟨⟨feed, carriage⟩, others⟩ := List.forall_mem_cons.1 unbroken
      rw [linesOf_cons feed carriage]
      cases line with
      | nil => rfl
      | cons char line =>
          rw [ih (by simp) others]
          rfl

/-- A character in front of a text that ends no line goes to its first line. -/
theorem AreLines.cons {char : Char} {chars : List Char} {lines : List (List Char)}
    (areLines : AreLines chars lines) (feed : char ≠ '\n') (carriage : char ≠ '\r') :
    AreLines (char :: chars) (extendFirstLine char lines) := by
  have one : IsUnbroken [char] := by simp [IsUnbroken, feed, carriage]
  cases areLines with
  | none => exact .last (by simp) one
  | last _ unbroken =>
      exact .last (by simp) (List.forall_mem_cons.2 ⟨⟨feed, carriage⟩, unbroken⟩)
  | ended unbroken ends whole others =>
      exact .ended (List.forall_mem_cons.2 ⟨⟨feed, carriage⟩, unbroken⟩) ends whole others

/-- Every text has its lines, and no others. -/
theorem areLines_iff {chars : List Char} {lines : List (List Char)} :
    AreLines chars lines ↔ linesOf chars = lines := by
  constructor
  · intro areLines
    induction areLines with
    | none => rfl
    | last filled unbroken => exact linesOf_of_isUnbroken filled unbroken
    | ended unbroken ends whole _ ih => rw [linesOf_append_ending unbroken ends whole, ih]
  · rintro rfl
    have bare : IsUnbroken [] := List.forall_mem_nil _
    fun_induction linesOf chars with
    | case1 => exact .none
    | case2 rest ih =>
        have both : AreLines ([] ++ (['\r', '\n'] ++ rest)) _ :=
          .ended bare (by decide) (by simp) ih
        exact both
    | case3 rest whole ih =>
        have first : rest.head? ≠ some '\n' := by
          intro feed
          obtain ⟨behind, equal⟩ := List.head?_eq_some_iff.1 feed
          exact whole behind equal
        have carriage : AreLines ([] ++ (['\r'] ++ rest)) _ :=
          .ended bare (by decide) (fun _ => first) ih
        exact carriage
    | case4 rest ih =>
        have feed : AreLines ([] ++ (['\n'] ++ rest)) _ := .ended bare (by decide) (by simp) ih
        exact feed
    | case5 char rest _ carriage feed ih => exact ih.cons feed carriage

/-- The lines of a text are unbroken. -/
theorem AreLines.isUnbroken {chars line : List Char} {lines : List (List Char)}
    (areLines : AreLines chars lines) (one : line ∈ lines) : IsUnbroken line := by
  induction areLines with
  | none => cases one
  | last _ unbroken =>
      cases List.mem_singleton.1 one
      exact unbroken
  | ended unbroken _ _ _ ih =>
      rcases List.mem_cons.1 one with rfl | other
      · exact unbroken
      · exact ih other

end Text

open Text

/-- In a text without a line feed, a fault stands in the first line. -/
theorem location_of_one_line {text source : String} {fault : Fault}
    (failed : parse text source = .error fault) (one : '\n' ∉ text.toList) :
    fault.location.line = 1 ∧ fault.location.column = fault.location.offset + 1 := by
  obtain ⟨front, back, draft, whole, reads, halts⟩ := exists_readsTo failed
  have feeds : '\n' ∉ front := fun inside => one (by simp [whole, inside])
  have all : front.rtakeWhile (· ≠ '\n') = front :=
    List.rtakeWhile_eq_self_iff.2 fun char inside => by
      simpa using ne_of_mem_of_not_mem inside feeds
  rw [halts.location_eq]
  simp only [Scanner.location, Cursor.start_past, Cursor.behind,
    List.count_eq_zero_of_not_mem feeds, all]
  omega

namespace Command

/-- The texts in some lines: the lines without the blanks at either end, as far as anything is
left of them. -/
def textsOf (lines : List (List Char)) : List String :=
  (lines.map fun line => strip (String.ofList line)).filter (· ≠ "")

/-- The command on its input does what it does on the texts in these lines. -/
structure FollowsLines (options : List String) (settings : Settings) (environment : Environment)
    (lines : List (List Char)) : Prop where
  /-- With the texts as arguments behind the options, the command does the same. -/
  given : textsOf lines ≠ [] → ∀ environment' content',
    settings.content? environment' = some content' →
    run options environment = run (options ++ "--" :: textsOf lines) environment'
  /-- Without any text, the command does nothing. -/
  empty : textsOf lines = [] → run options environment = ⟨0, "", ""⟩
  /-- Every diagnostic is about the first line of its text. -/
  firstLine : ∀ text ∈ textsOf lines, ∀ fault, parse text textSource = .error fault →
    fault.location.line = 1 ∧ fault.location.column = fault.location.offset + 1
  /-- The lines are read as they are without the blanks at either end. -/
  stripped : ∀ line ∈ lines, ∀ source, ReadsAsStripped (String.ofList line) source

/-- The texts of a file are those in its lines. -/
theorem textsOfFile_eq {content : String} {lines : List (List Char)}
    (areLines : AreLines content.toList lines) : textsOfFile content = textsOf lines := by
  simp [textsOfFile, textsOf, areLines_iff.1 areLines, strip]

/-- A text in a line has no line feed. -/
theorem feed_not_mem_of_mem_textsOf {chars : List Char} {lines : List (List Char)} {text : String}
    (areLines : AreLines chars lines) (one : text ∈ textsOf lines) : '\n' ∉ text.toList := by
  obtain ⟨line, inside, rfl⟩ := List.mem_map.1 (List.mem_of_mem_filter one)
  intro feed
  rw [strip, String.toList_ofList, String.toList_ofList] at feed
  exact ((areLines.isUnbroken inside) _ (mem_of_mem_trimBlanks feed)).1 rfl

/-- With options alone, the command follows the lines of its input. -/
theorem Asks.followsLines {options : List String} {settings : Settings} {environment : Environment}
    {content : String} {lines : List (List Char)} (asks : Asks options settings)
    (readable : settings.content? environment = some content)
    (areLines : AreLines content.toList lines) :
    FollowsLines options settings environment lines where
  given filled environment' content' readable' := by
    rw [asks.run_eq readable, asks.run_append readable' filled, textsOfFile_eq areLines]
  empty none := by
    rw [asks.run_eq readable, textsOfFile_eq areLines, none]
    rfl
  firstLine text one fault failed :=
    location_of_one_line failed (feed_not_mem_of_mem_textsOf areLines one)
  stripped line _ source := readsAsStripped (String.ofList line) source

/-- Where options ask for help before they ask for the version, the help is written whatever the
input is, and also with texts behind the options. -/
theorem help_is_written_for_any_input {options : List String} {given : List Given}
    (areOptions : AreOptions options given)
    (first : given.findSome? Given.overriding? = some .showHelp) (environment : Environment)
    (texts : List String) :
    run options environment = ⟨0, helpText, ""⟩ ∧
      run (options ++ "--" :: texts) environment = ⟨0, helpText, ""⟩ := by
  have alone : Request.ofArguments (options ++ []) = .ok .showHelp :=
    areOptions.ofArguments_of_overriding first rfl
  have behind : Request.ofArguments (options ++ "--" :: texts) = .ok .showHelp :=
    areOptions.ofArguments_of_overriding first (by rw [givenBy, if_pos rfl])
  rw [List.append_nil] at alone
  constructor
  · rw [run, alone]
    rfl
  · rw [run, behind]
    rfl

/-- So the command is not silent on an input without any text if it is asked for help. -/
theorem help_is_written_for_empty_input :
    AreLines "".toList [] ∧ textsOf [] = [] ∧ run ["--help"] .empty = ⟨0, helpText, ""⟩ ∧
      run ["--help"] .empty ≠ ⟨0, "", ""⟩ := by
  have asks : AreOptions ["--help"] ([.option .help ""] ++ []) := .whole rfl rfl .none
  have written := (help_is_written_for_any_input asks rfl .empty []).1
  refine ⟨.none, rfl, written, ?_⟩
  rw [written]
  decide +kernel

end Command

end TypeProse
