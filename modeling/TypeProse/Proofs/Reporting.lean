import TypeProse.Proofs.Checked
import TypeProse.Proofs.Outlining

/-!
# Reports keep their lines

The words of a report repeat pieces of the text that it is about. No such piece has a blank in it,
and every character that ends a line is blank, so the words stay on one line each (`OnOneLine`),
whatever the text is. A report then has just the lines that are laid out for it (`reportLines`).
-/

namespace TypeProse

namespace Text

/-- The ranges of the characters that end a line: line feed to carriage return, the first three
information separators, next line, and the separators of lines and of paragraphs. -/
def lineBoundaryRanges : List CodeRange :=
  [⟨0x0A, 0x0D⟩, ⟨0x1C, 0x1E⟩, .single 0x85, ⟨0x2028, 0x2029⟩]

/-- Whether a character ends a line. -/
def isLineBoundary (char : Char) : Bool :=
  CodeRange.containedIn lineBoundaryRanges char

/-- The lines of a text, each with what ends it. A carriage return and the line feed behind it end
a line together. -/
def wholeLinesOf : List Char → List (List Char)
  | [] => []
  | '\r' :: '\n' :: rest => ['\r', '\n'] :: wholeLinesOf rest
  | char :: rest =>
      if isLineBoundary char then [char] :: wholeLinesOf rest
      else extendFirstLine char (wholeLinesOf rest)

/-- No character of the text ends a line. -/
def OnOneLine (text : String) : Prop :=
  ∀ char ∈ text.toList, isLineBoundary char = false

instance (text : String) : Decidable (OnOneLine text) :=
  List.decidableBAll (fun char => isLineBoundary char = false) text.toList

/-- Every character that ends a line is blank. -/
theorem isBlank_of_isLineBoundary {char : Char} (ends : isLineBoundary char = true) :
    isBlank char = true := by
  simp only [isLineBoundary, isBlank, CodeRange.containedIn_iff] at ends ⊢
  simp only [lineBoundaryRanges, blankRanges, CodeRange.single, List.mem_cons, List.not_mem_nil,
    or_false, exists_eq_or_imp, exists_eq_left] at ends ⊢
  omega

/-- A text without blanks stays on one line. -/
theorem onOneLine_of_isBlank {text : String} (solid : ∀ char ∈ text.toList, isBlank char = false) :
    OnOneLine text := by
  intro char inside
  rw [Bool.eq_false_iff]
  intro ends
  cases (solid char inside).symm.trans (isBlank_of_isLineBoundary ends)

/-- For a fixed text this is settled on its characters, without taking the text apart. -/
theorem onOneLine_ofList {chars : List Char}
    (unended : (chars.all fun char => !isLineBoundary char) = true) :
    OnOneLine (String.ofList chars) := by
  intro char inside
  rw [String.toList_ofList] at inside
  simpa using List.all_eq_true.1 unended char inside

@[simp] theorem onOneLine_append {front back : String} :
    OnOneLine (front ++ back) ↔ OnOneLine front ∧ OnOneLine back := by
  simp only [OnOneLine, String.toList_append, List.forall_mem_append]

@[simp] theorem onOneLine_quoted {text : String} : OnOneLine (quoted text) ↔ OnOneLine text := by
  have mark : OnOneLine "'" := by decide
  simp [quoted, mark]

theorem onOneLine_intercalate {separator : String} {texts : List String}
    (joint : OnOneLine separator) (each : ∀ text ∈ texts, OnOneLine text) :
    OnOneLine (separator.intercalate texts) := by
  intro char inside
  rcases mem_intercalate inside with within | ⟨text, member, within⟩
  · exact joint char within
  · exact each text member char within

/-- Every place of a number shows one of the digits of its base. -/
theorem exists_digit_of_mem_toDigits {base number : Nat} {char : Char} (several : 1 < base)
    (inside : char ∈ Nat.toDigits base number) : ∃ digit < base, char = digit.digitChar := by
  induction number using Nat.strongRecOn with
  | ind number ih =>
      rw [Nat.toDigits_eq_if several] at inside
      split at inside
      · rename_i single
        exact ⟨number, single, List.mem_singleton.1 inside⟩
      · rcases List.mem_append.1 inside with front | last
        · exact ih _ (Nat.div_lt_self (by omega) several) front
        · exact ⟨_, Nat.mod_lt _ (by omega), List.mem_singleton.1 last⟩

/-- No digit ends a line. -/
theorem isLineBoundary_digitChar : ∀ digit < 16,
    isLineBoundary digit.digitChar = false ∧ isLineBoundary digit.digitChar.toUpper = false := by
  decide

theorem onOneLine_toString (number : Nat) : OnOneLine (toString number) := by
  intro char inside
  rw [Nat.toString_eq_ofList_toDigits, String.toList_ofList] at inside
  obtain ⟨digit, small, rfl⟩ := exists_digit_of_mem_toDigits (by decide) inside
  exact (isLineBoundary_digitChar digit (by omega)).1

theorem onOneLine_repr (number : Int) : OnOneLine number.repr := by
  cases number with
  | ofNat number => exact onOneLine_toString number
  | negSucc number =>
      have sign : OnOneLine "-" := by decide
      exact onOneLine_append.2 ⟨sign, onOneLine_toString _⟩

theorem onOneLine_codePointLabel (char : Char) : OnOneLine (codePointLabel char) := by
  have head : OnOneLine "U+" := by decide
  refine onOneLine_append.2 ⟨head, fun digit inside => ?_⟩
  rw [String.toList_ofList, hexDigits] at inside
  rcases List.mem_append.1 inside with filled | shown
  · rw [List.eq_of_mem_replicate filled]
    decide
  · obtain ⟨_, one, rfl⟩ := List.mem_map.1 shown
    obtain ⟨digit, small, rfl⟩ := exists_digit_of_mem_toDigits (by decide) one
    exact (isLineBoundary_digitChar digit small).2

/-- A line goes on to the line feed behind it. -/
theorem wholeLinesOf_append_feed {line : List Char} (rest : List Char)
    (unended : ∀ char ∈ line, isLineBoundary char = false) :
    wholeLinesOf (line ++ '\n' :: rest) = (line ++ ['\n']) :: wholeLinesOf rest := by
  induction line with
  | nil =>
      have ends : isLineBoundary '\n' = true := by decide
      simp [wholeLinesOf, ends]
  | cons char line ih =>
      obtain ⟨first, others⟩ := List.forall_mem_cons.1 unended
      have carriage : char ≠ '\r' := by
        rintro rfl
        exact absurd first (by decide)
      rw [List.cons_append, wholeLinesOf, ih others, first]
      · rfl
      · simp [carriage]

/-- Texts that stay on one line each make up as many lines. -/
theorem wholeLinesOf_join {lines : List String} (each : ∀ line ∈ lines, OnOneLine line) :
    wholeLinesOf (String.join (lines.map (· ++ "\n"))).toList =
      (lines.map (· ++ "\n")).map String.toList := by
  induction lines with
  | nil => rfl
  | cons line lines ih =>
      obtain ⟨first, others⟩ := List.forall_mem_cons.1 each
      have behind := wholeLinesOf_append_feed (String.join (lines.map (· ++ "\n"))).toList first
      rw [ih others] at behind
      simpa using behind

end Text

open Text Checked

/-- Words that stay on one line each. -/
@[mk_iff] structure Wording.KeepsLines (words : Wording) : Prop where
  message : OnOneLine words.message
  help : OnOneLine words.help
  suggestions : ∀ suggestion ∈ words.suggestions, OnOneLine suggestion

theorem Token.onOneLine_describe {token : Token} (solid : OnOneLine token.lexeme) :
    OnOneLine token.describe := by
  unfold describe
  split
  · decide
  · exact onOneLine_quoted.2 solid

theorem TokenKind.onOneLine_spelling {kind : TokenKind} {spelled : String}
    (found : kind.spelling = .ok spelled) : OnOneLine spelled := by
  cases kind <;> cases found <;> decide

theorem onOneLine_of_mapM {kinds : List TokenKind} {texts : List String}
    (found : kinds.mapM TokenKind.spelling = .ok texts) : ∀ text ∈ texts, OnOneLine text := by
  induction kinds generalizing texts with
  | nil =>
      cases found
      simp
  | cons kind kinds ih =>
      rw [List.mapM_cons] at found
      obtain ⟨spelled, first, found⟩ := bind_eq_ok_iff.1 found
      obtain ⟨rest, others, found⟩ := bind_eq_ok_iff.1 found
      cases found
      exact List.forall_mem_cons.2 ⟨TokenKind.onOneLine_spelling first, ih others⟩

theorem onOneLine_spellings {kinds : List TokenKind} {spelled : String}
    (found : spellings kinds = .ok spelled) : OnOneLine spelled := by
  obtain ⟨texts, all, rfl⟩ := Command.map_eq_ok_iff.1 found
  exact onOneLine_intercalate (by decide) (onOneLine_of_mapM all)

theorem FaultCode.label_ne (code : FaultCode) : code.label ≠ "" := by
  cases code <;> decide

theorem FaultCode.onOneLine_label (code : FaultCode) : OnOneLine code.label := by
  cases code <;> decide

namespace Fault

/-- The pieces of a text that a fault repeats. -/
def repeated : Fault → List String
  | .invalidCharacter text _ => [text]
  | .duplicateName pending found => [pending, found.lexeme]
  | .missingName found => [found.lexeme]
  | .mismatched _ found => [found.lexeme]
  | .unclosed .. => []
  | .duplicateSuffix name found => [name, found.lexeme]
  | .tooDeep _ => []

/-- What is said of a character repeats it or gives its code point. -/
theorem invalidCharacterHelp_cases {text help : String}
    (found : invalidCharacterHelp text = .ok help) :
    help = "The character " ++ quoted text ++ " is not valid in a type annotation." ∨
      ∃ char, help = "Non-printable character (Unicode: " ++ codePointLabel char ++
        ") is not allowed." := by
  unfold invalidCharacterHelp at found
  split at found
  · cases found
    exact .inl rfl
  · split at found
    · cases found
      exact .inr ⟨_, rfl⟩
    · cases found

/-- Every fault comes with help and with a suggestion. -/
theorem suggests_of_wording {fault : Fault} {words : Wording} (worded : fault.wording = .ok words) :
    words.help ≠ "" ∧ words.suggestions ≠ [] := by
  cases fault with
  | invalidCharacter text location =>
      obtain ⟨help, found, worded⟩ := bind_eq_ok_iff.1 worded
      cases worded
      rcases invalidCharacterHelp_cases found with rfl | ⟨char, rfl⟩ <;> simp
  | mismatched | unclosed =>
      obtain ⟨spelled, due, worded⟩ := bind_eq_ok_iff.1 worded
      cases worded
      simp
  | duplicateName | missingName | duplicateSuffix | tooDeep =>
      cases worded
      simp

theorem onOneLine_invalidCharacterHelp {text help : String}
    (found : invalidCharacterHelp text = .ok help) (solid : OnOneLine text) : OnOneLine help := by
  rcases invalidCharacterHelp_cases found with rfl | ⟨char, rfl⟩
  · simp only [onOneLine_append, onOneLine_quoted, solid, and_true]
    and_intros <;> exact onOneLine_ofList (by decide)
  · simp only [onOneLine_append, onOneLine_codePointLabel, and_true]
    and_intros <;> exact onOneLine_ofList (by decide)

/-- The words of a fault stay on one line each if the pieces that it repeats do. -/
theorem keepsLines_of_wording {fault : Fault} {words : Wording}
    (worded : fault.wording = .ok words) (solid : ∀ text ∈ fault.repeated, OnOneLine text) :
    words.KeepsLines := by
  rw [Wording.keepsLines_iff]
  -- Without what is repeated, spelled out or counted, only fixed texts are left in each case.
  cases fault with
  | invalidCharacter text location =>
      obtain ⟨help, found, worded⟩ := bind_eq_ok_iff.1 worded
      cases worded
      rw [repeated, List.forall_mem_singleton] at solid
      have helped := onOneLine_invalidCharacterHelp found solid
      simp only [onOneLine_append, onOneLine_quoted, solid, helped, List.mem_pair, forall_eq_or_imp,
        forall_eq, and_true, true_and]
      and_intros <;> exact onOneLine_ofList (by decide)
  | duplicateName pending found =>
      cases worded
      simp only [repeated, List.mem_pair, forall_eq_or_imp, forall_eq] at solid
      simp only [onOneLine_append, onOneLine_quoted, solid, List.mem_singleton, forall_eq, and_true,
        true_and]
      and_intros <;> exact onOneLine_ofList (by decide)
  | missingName found =>
      cases worded
      rw [repeated, List.forall_mem_singleton] at solid
      have described := Token.onOneLine_describe solid
      have counted : OnOneLine (toString found.location.offset) := onOneLine_repr _
      simp only [onOneLine_append, described, counted, List.mem_pair, forall_eq_or_imp, forall_eq,
        and_true]
      and_intros <;> exact onOneLine_ofList (by decide)
  | mismatched expected found =>
      obtain ⟨spelled, due, worded⟩ := bind_eq_ok_iff.1 worded
      cases worded
      rw [repeated, List.forall_mem_singleton] at solid
      have described := Token.onOneLine_describe solid
      have spelling := onOneLine_spellings due
      simp only [onOneLine_append, described, spelling, List.mem_singleton, forall_eq, and_true]
      and_intros <;> exact onOneLine_ofList (by decide)
  | unclosed expected found =>
      obtain ⟨spelled, due, worded⟩ := bind_eq_ok_iff.1 worded
      cases worded
      have spelling := onOneLine_spellings due
      simp only [onOneLine_append, spelling, List.mem_singleton, forall_eq, and_true]
      and_intros <;> exact onOneLine_ofList (by decide)
  | duplicateSuffix name found =>
      cases worded
      simp only [repeated, List.mem_pair, forall_eq_or_imp, forall_eq] at solid
      have described := Token.onOneLine_describe solid.2
      simp only [onOneLine_append, onOneLine_quoted, solid, described, List.mem_singleton,
        forall_eq, and_true, true_and]
      and_intros <;> exact onOneLine_ofList (by decide)
  | tooDeep location =>
      cases worded
      simp only [List.mem_singleton, forall_eq]
      and_intros <;> exact onOneLine_ofList (by decide)

/-- The lines of the report of a fault in the text of that name. -/
def reportLines (fault : Fault) (source : String) (words : Wording) : List String :=
  ["ERROR: [" ++ fault.code.label ++ "] " ++ words.message,
    "  --> " ++ source ++ ":" ++ toString fault.location.line ++ ":" ++
      toString fault.location.column,
    "  help: " ++ words.help,
    "  suggestions:"] ++ words.suggestions.map ("    - " ++ ·)

/-- A fault that can be put into words is reported line by line. -/
theorem report_eq {fault : Fault} {words : Wording} (worded : fault.wording = .ok words) :
    fault.report =
      String.join ((fault.reportLines fault.location.source words).map (· ++ "\n")) := by
  have found : fault.diagnostic = .ok (.error words.message fault.location
      (some fault.code.label) (some words.help) (some words.suggestions)) := by
    rw [diagnostic, worded]
    rfl
  obtain ⟨helps, suggests⟩ := suggests_of_wording worded
  have upper : "error".toUpper = "ERROR" := by decide +kernel
  have listed : words.suggestions.map Diagnostic.suggestionText =
      (words.suggestions.map ("    - " ++ ·)).map (· ++ "\n") := by
    rw [List.map_map]
    rfl
  have suggested : Diagnostic.suggestionsText (some words.suggestions) =
      "  suggestions:\n" ++ String.join (words.suggestions.map Diagnostic.suggestionText) := by
    obtain ⟨first, others, equal⟩ := List.exists_cons_of_ne_nil suggests
    rw [equal]
    rfl
  simp only [report, found, Diagnostic.render, Diagnostic.error, upper, Diagnostic.codeText,
    if_neg fault.code.label_ne, Diagnostic.helpText, if_neg helps, suggested, listed]
  rw [← String.toList_inj]
  simp [reportLines, Location.render]

theorem onOneLine_of_mem_reportLines {source : String} {fault : Fault} {words : Wording}
    (named : OnOneLine source) (keeps : words.KeepsLines) :
    ∀ line ∈ fault.reportLines source words, OnOneLine line := by
  have placed : OnOneLine fault.location.line.repr ∧ OnOneLine fault.location.column.repr :=
    ⟨onOneLine_repr _, onOneLine_repr _⟩
  refine List.forall_mem_append.2 ⟨?_, ?_⟩
  · simp +decide [named, fault.code.onOneLine_label, placed, keeps.message, keeps.help]
  · simpa +decide using keeps.suggestions

end Fault

/-- What is found at the front of a text has no blank in it, if it is handed out. -/
theorem isBlank_of_lexeme? {kind : TokenKind} {lexeme rest : List Char}
    (found : kind.lexeme? (lexeme ++ rest) = some lexeme) (shown : kind ≠ .blank) :
    ∀ char ∈ lexeme, isBlank char = false := by
  by_cases last : kind = .endOfInput
  · subst last
    have empty := (List.append_eq_nil_iff.1 (chars_eq_nil_of_endOfInput found)).1
    simp [empty]
  · exact (TokenKind.matches_of_lexeme? found shown last).isBlank_eq_false

namespace Draft

/-- The name of a pending type is a name. -/
theorem Takes.isName_pending {draft : Draft} {tokens : List Token} {scanner after : Scanner}
    {type : TypeExpr} (takes : empty.Takes tokens draft) (yields : scanner.Yields tokens after)
    (pending : draft.pending.type? = some type) : IsName type.name.toList := by
  have start : empty.Spells [] := ⟨[], [], [], rfl, .none, .none, .empty⟩
  obtain ⟨outer, before, last, whole, -, -, spells⟩ := takes.spells start
  obtain rfl : tokens = outer ++ (before ++ last) := whole
  have named := yields.isName
  simp only [List.forall_mem_append] at named
  have regular := (spells.isTypeSpec pending).regular named.2.2
  exact (regular type (by rw [TypeExpr.walk_eq]; exact .head _)).1

/-- What a fault repeats stays on one line. -/
theorem Halts.onOneLine_repeated {draft : Draft} {scanner : Scanner} {fault : Fault}
    (halts : draft.Halts scanner (.error fault))
    (named : ∀ type, draft.pending.type? = some type → IsName type.name.toList) :
    ∀ text ∈ fault.repeated, OnOneLine text := by
  have name : ∀ type, draft.pending.type? = some type → OnOneLine type.name := by
    intro type pending
    exact onOneLine_of_isBlank (TokenKind.Matches.name (named type pending)).isBlank_eq_false
  cases halts with
  | stuck stuck =>
      cases ahead : scanner.rest with
      | nil =>
          rw [ahead] at stuck
          cases stuck
      | cons char rest =>
          rw [ahead] at stuck
          have solid := lexeme?_blank_eq_none_iff.1 (lexemeAt?_eq_none_iff.1 stuck .blank)
          rw [Fault.repeated, List.forall_mem_singleton, List.take_succ_cons, List.take_zero]
          exact onOneLine_of_isBlank (by simpa using solid)
  | @rejected _ _ _ lexeme _ _ shown found rejects =>
      have solid : OnOneLine (String.ofList lexeme) :=
        onOneLine_of_isBlank (by simpa using isBlank_of_lexeme? found shown)
      cases rejects with
      | named kind pending => simp [Fault.repeated, name _ pending, solid]
      | missing => simp [Fault.repeated, solid]
      | suffixed kind pending => simp [Fault.repeated, solid, name _ (by rw [pending]; rfl)]
      | full => simp [Fault.repeated]
      | mismatched => simp [Fault.repeated, solid]
      | unclosed => simp [Fault.repeated]

end Draft

/-- A text that is refused, when it is cut into tokens or when it is read, is refused where reading
halts. -/
theorem exists_halts_of_error {text source : String} {fault : Fault}
    (failed : tokenize text source = .error fault ∨ parse text source = .error fault) :
    ∃ (draft : Draft) (scanner : Scanner),
      draft.Halts scanner (.error fault) ∧ scanner.source = source ∧
      ∀ type, draft.pending.type? = some type → IsName type.name.toList := by
  rcases failed with uncut | unread
  · obtain ⟨tokens, stopped, yields, stuck, rfl⟩ := tokenize_eq_error_iff.1 uncut
    obtain ⟨front, -, place⟩ := yields.split
    exact ⟨.empty, stopped, .stuck stuck, by rw [place]; rfl, by simp [Draft.empty, Pending.type?]⟩
  · obtain ⟨tokens, draft, stopped, yields, takes, halts⟩ := Draft.result_eq_iff.1 unread
    obtain ⟨front, -, place⟩ := yields.split
    exact ⟨draft, stopped, halts, by rw [place]; rfl, fun type => takes.isName_pending yields⟩

/-- No text breaks up the lines of a report. As long as the name of the text stays on one line, the
report of a fault in it has one line for the message, one for the place, one for the help and a
heading, and then one for each suggestion, of which there is at least one. All of these end with a
line feed, and nothing else in them ends a line. -/
theorem report_keeps_its_lines {text source : String} {fault : Fault} (named : OnOneLine source)
    (failed : tokenize text source = .error fault ∨ parse text source = .error fault) :
    ∃ words, fault.wording = .ok words ∧ 1 ≤ words.suggestions.length ∧
      (wholeLinesOf fault.report.toList).length = 4 + words.suggestions.length ∧
      wholeLinesOf fault.report.toList =
        ((fault.reportLines source words).map (· ++ "\n")).map String.toList := by
  obtain ⟨draft, scanner, halts, same, isName⟩ := exists_halts_of_error failed
  obtain ⟨words, worded⟩ := halts.exists_wording
  have keeps := Fault.keepsLines_of_wording worded (halts.onOneLine_repeated isName)
  have place : fault.location.source = source := by
    rw [halts.location_eq]
    exact same
  have lines : wholeLinesOf fault.report.toList =
      ((fault.reportLines source words).map (· ++ "\n")).map String.toList := by
    rw [Fault.report_eq worded, place]
    exact wholeLinesOf_join (Fault.onOneLine_of_mem_reportLines named keeps)
  refine ⟨words, worded, List.length_pos_iff.2 (Fault.suggests_of_wording worded).2, ?_, lines⟩
  rw [lines, List.length_map, List.length_map, Fault.reportLines, List.length_append,
    List.length_map]
  rfl

/-- Two names with a separator of lines between them, and a character behind a line feed that cannot
be printed. -/
theorem reports_of_broken_texts :
    OnOneLine "t" ∧
    parse "A\u2028B" "t" = .error (.duplicateName "A" ⟨.name, "B", ⟨"t", 1, 3, 2⟩⟩) ∧
    wholeLinesOf (Fault.duplicateName "A" ⟨.name, "B", ⟨"t", 1, 3, 2⟩⟩).report.toList =
      ["ERROR: [P001] expecting END, got name 'B'\n", "  --> t:1:3\n",
        "  help: 'B' follows 'A' without a separator.\n", "  suggestions:\n",
        "    - Separate the types with a comma: 'A, B'\n"].map String.toList ∧
    tokenize "A\n\x07" "t" = .error (.invalidCharacter "\x07" ⟨"t", 2, 1, 2⟩) ∧
    (wholeLinesOf (Fault.invalidCharacter "\x07" ⟨"t", 2, 1, 2⟩).report.toList).length = 6 := by
  have named : OnOneLine "t" := by decide
  have unread : parse "A\u2028B" "t" =
      .error (.duplicateName "A" ⟨.name, "B", ⟨"t", 1, 3, 2⟩⟩) := by
    decide +kernel
  have uncut : tokenize "A\n\x07" "t" = .error (.invalidCharacter "\x07" ⟨"t", 2, 1, 2⟩) := by
    decide +kernel
  obtain ⟨words, worded, -, -, lines⟩ := report_keeps_its_lines named (.inr unread)
  obtain ⟨words', worded', -, count, -⟩ := report_keeps_its_lines named (.inl uncut)
  cases worded
  cases worded'
  exact ⟨named, unread, lines.trans (congrArg _ (by decide +kernel)), uncut, count⟩

end TypeProse
