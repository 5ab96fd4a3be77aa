import TypeProse.Proofs.Arguments
import TypeProse.Proofs.Escape
import TypeProse.Proofs.Joining

/-!
# Texts are described one by one

What the command writes about a text does not depend on the texts beside it. It is what the
library says of the text, or the diagnostic of its fault, without escape sequences. So the
command on several texts writes what it writes about each of them, one after the other.
-/

namespace TypeProse

/-- A text lists the same types under any name. -/
theorem parse_eq_ok_of_source {text source : String} {types : List TypeExpr}
    (read : parse text source = .ok types) (source' : String) : parse text source' = .ok types := by
  obtain ⟨front, back, draft, whole, ⟨tokens, yields, takes⟩, halts⟩ := exists_readsTo read
  obtain ⟨tokens', cursor, yields', alike⟩ := yields.relocate source' .start
  have takes' := takes.behind alike []
  have halts' := halts.behind_ok [] source' cursor
  simp only [Draft.behind_nil] at takes' halts'
  rw [parse, readText, Scanner.start, whole]
  exact (takes'.result_eq yields').trans halts'.result_eq

/-- What is due has a spelling. -/
theorem Draft.exists_spellings (draft : Draft) :
    ∃ spelled, spellings [draft.closer] = .ok spelled := by
  unfold closer
  split
  · exact ⟨_, rfl⟩
  · rename_i frame _ _
    cases frame.bracket <;> exact ⟨_, rfl⟩

/-- One character can be named. -/
theorem Fault.exists_invalidCharacterHelp (char : Char) :
    ∃ help, invalidCharacterHelp (String.ofList [char]) = .ok help := by
  unfold invalidCharacterHelp
  split
  · exact ⟨_, rfl⟩
  · rw [String.toList_ofList]
    exact ⟨_, rfl⟩

/-- Where reading ends with a fault, the fault can be put into words. -/
theorem Draft.Halts.exists_wording {draft : Draft} {scanner : Scanner} {fault : Fault}
    (halts : draft.Halts scanner (.error fault)) : ∃ words, fault.wording = .ok words := by
  cases halts with
  | stuck stuck =>
      cases rest : scanner.rest with
      | nil =>
          rw [rest] at stuck
          cases stuck
      | cons char rest =>
          obtain ⟨help, found⟩ := Fault.exists_invalidCharacterHelp char
          rw [List.take_succ_cons, List.take_zero, Fault.wording, found]
          exact ⟨_, rfl⟩
  | rejected shown found rejects =>
      cases rejects with
      | mismatched | unclosed =>
          obtain ⟨spelled, spelling⟩ := draft.exists_spellings
          rw [Fault.wording, spelling]
          exact ⟨_, rfl⟩
      | named | missing | suffixed | full => exact ⟨_, rfl⟩

/-- A text that is refused has a diagnostic, and that is reported. -/
theorem exists_diagnostic {text source : String} {fault : Fault}
    (failed : parse text source = .error fault) :
    ∃ diagnostic, fault.diagnostic = .ok diagnostic ∧ fault.report = diagnostic.render := by
  obtain ⟨_, _, _, _, _, halts⟩ := exists_readsTo failed
  obtain ⟨words, worded⟩ := halts.exists_wording
  have found : ∃ diagnostic, fault.diagnostic = .ok diagnostic := by
    rw [Fault.diagnostic, worded]
    exact ⟨_, rfl⟩
  obtain ⟨diagnostic, found⟩ := found
  exact ⟨diagnostic, found, by rw [Fault.report, found]⟩

namespace Command

open Text

/-- Whether a text is refused. -/
def isRefused (text : String) : Bool :=
  match parse text textSource with
  | .ok _ => false
  | .error _ => true

/-- What the library says of a text: its outline or its description. -/
def Settings.said (settings : Settings) (text : String) : Except Fault String :=
  if settings.tree then
    (parse text unnamedSource).map fun types =>
      "\n".intercalate (types.flatMap fun type => type.outline 0)
  else describe text settings.separator settings.number

/-- What is printed about a text, if it lists types. -/
def Settings.printed? (settings : Settings) (text : String) : Option String :=
  match settings.said text with
  | .ok said => some (stripEscapes said ++ "\n")
  | .error _ => none

/-- What is complained of in a text, if it is refused. -/
def complaint? (text : String) : Option String :=
  match parse text textSource with
  | .ok _ => none
  | .error fault =>
      match fault.diagnostic with
      | .ok diagnostic => some (stripEscapes (text ++ "\n" ++ diagnostic.render))
      | .error _ => none

/-- One output after the other. It is a failure if either is. -/
def Output.andThen (first second : Output) : Output :=
  ⟨max first.exitCode second.exitCode, first.stdout ++ second.stdout,
    first.stderr ++ second.stderr⟩

/-- What is written about texts is put together from what is written about each of them. -/
structure DescribesAlone (settings : Settings) (output : List String → Output) : Prop where
  /-- What is said of the texts that list types goes to standard output. -/
  stdout : ∀ texts, texts ≠ [] →
    (output texts).stdout = String.join (texts.filterMap settings.printed?)
  /-- The other texts go to standard error, each with its diagnostic. -/
  stderr : ∀ texts, texts ≠ [] → (output texts).stderr = String.join (texts.filterMap complaint?)
  /-- The exit code says whether there are such texts. -/
  exitCode : ∀ texts, texts ≠ [] →
    (output texts).exitCode = if texts.any isRefused then 1 else 0
  /-- Texts may be described in two parts. -/
  append : ∀ front back, front ≠ [] → back ≠ [] →
    output (front ++ back) = (output front).andThen (output back)
  /-- A text that is refused leaves standard output as it is, and is complained of between the
  other texts. -/
  refused : ∀ front text back complaint, front ++ back ≠ [] → complaint? text = some complaint →
    (output (front ++ text :: back)).stdout = (output (front ++ back)).stdout ∧
    (output (front ++ text :: back)).stderr =
      String.join (front.filterMap complaint?) ++ complaint ++
        String.join (back.filterMap complaint?)

section Outcomes

variable {settings : Settings} {text : String} {types : List TypeExpr} {fault : Fault}

/-- What the library says of a text is what the command shows of its types. -/
theorem Settings.said_eq (settings : Settings) (text : String) :
    settings.said text = (parse text unnamedSource).map settings.show := by
  unfold said describe
  cases parse text unnamedSource with
  | error fault => split <;> rfl
  | ok types =>
      simp only [Except.map, Settings.show, TypeExpr.outlineAll_eq_flatMap]
      split <;> rfl

/-- About a text that lists types, what the library says is printed. -/
theorem printed?_of_ok (read : parse text textSource = .ok types) :
    settings.printed? text = some (stripEscapes (settings.show types) ++ "\n") := by
  simp only [Settings.printed?, settings.said_eq, parse_eq_ok_of_source read unnamedSource,
    Except.map]

/-- About a text that is refused, nothing is printed. -/
theorem printed?_of_error (failed : parse text textSource = .error fault) :
    settings.printed? text = none := by
  cases read : parse text unnamedSource with
  | ok types => cases failed.symm.trans (parse_eq_ok_of_source read textSource)
  | error fault => simp only [Settings.printed?, settings.said_eq, read, Except.map]

/-- A text that is refused is complained of by its fault. -/
theorem complaint?_of_error (failed : parse text textSource = .error fault) :
    complaint? text = some (stripEscapes (text ++ "\n" ++ fault.report)) := by
  obtain ⟨diagnostic, found, report⟩ := exists_diagnostic failed
  simp only [complaint?, failed, found, report]

/-- Without a trace, one text is printed or complained of. -/
theorem outputFor_singleton (quiet : settings.verbose = false) (text : String) :
    settings.outputFor [text] = ⟨if isRefused text then 1 else 0, (settings.printed? text).getD "",
      (complaint? text).getD ""⟩ := by
  have trace (reading : Reading) : settings.trace reading = [] := by simp [Settings.trace, quiet]
  cases read : parse text textSource with
  | ok types =>
      have result : (readText text textSource).result = .ok types := read
      simp [Settings.outputFor, Settings.outcome, result, trace, isRefused, read,
        printed?_of_ok read, complaint?]
  | error fault =>
      have result : (readText text textSource).result = .error fault := read
      simp [Settings.outputFor, Settings.outcome, result, trace, isRefused, read, Notice.render,
        printed?_of_error read, complaint?_of_error read]

/-- The greater of two exit codes says whether either is a failure. -/
theorem max_exitCode (first second : Bool) :
    max (if first then 1 else 0) (if second then 1 else 0) = if first || second then 1 else 0 := by
  cases first <;> cases second <;> rfl

theorem join_filterMap_cons (written? : String → Option String) (text : String)
    (texts : List String) :
    String.join ((text :: texts).filterMap written?) =
      (written? text).getD "" ++ String.join (texts.filterMap written?) := by
  cases written : written? text <;> simp [written]

/-- Texts in two parts are described one part after the other. -/
theorem outputFor_append (settings : Settings) (front back : List String) :
    settings.outputFor (front ++ back) =
      (settings.outputFor front).andThen (settings.outputFor back) := by
  simp only [Settings.outputFor, Output.andThen, max_exitCode, List.map_append, List.any_append,
    List.flatMap_append, String.join_append]

/-- Without a trace, every text is printed or complained of in its turn. -/
theorem outputFor_eq (quiet : settings.verbose = false) (texts : List String) :
    settings.outputFor texts =
      ⟨if texts.any isRefused then 1 else 0, String.join (texts.filterMap settings.printed?),
        String.join (texts.filterMap complaint?)⟩ := by
  induction texts with
  | nil => rfl
  | cons text texts ih =>
      have parts := outputFor_append settings [text] texts
      rw [List.singleton_append, outputFor_singleton quiet, ih] at parts
      simp only [parts, Output.andThen, max_exitCode, List.any_cons, join_filterMap_cons]
      rfl

/-- Without a trace, texts are described one by one. -/
theorem describesAlone_outputFor (quiet : settings.verbose = false) {output : List String → Output}
    (same : ∀ texts, texts ≠ [] → output texts = settings.outputFor texts) :
    DescribesAlone settings output where
  stdout texts filled := by rw [same texts filled, outputFor_eq quiet]
  stderr texts filled := by rw [same texts filled, outputFor_eq quiet]
  exitCode texts filled := by rw [same texts filled, outputFor_eq quiet]
  append front back filled filled' := by
    rw [same front filled, same back filled', same _ (by simp [filled]), outputFor_append]
  refused front text back complaint filled complained := by
    have failed : settings.printed? text = none := by
      cases read : parse text textSource with
      | ok types => simp [complaint?, read] at complained
      | error fault => exact printed?_of_error read
    rw [same _ filled, same _ (by simp), outputFor_eq quiet, outputFor_eq quiet]
    simp [failed, complained, String.append_assoc]

end Outcomes

/-- The arguments that ask for a separator, for a number and for outlines or descriptions. -/
def spelled (separator : String) (number : Prose.Number) (tree : Bool) : List String :=
  "-s" :: separator :: (match number with
    | .singular => []
    | .plural => ["--plural"]) ++ if tree then ["--tree"] else []

/-- Every setting but the trace and the input file is asked for by its arguments. -/
theorem asks_spelled (separator : String) (number : Prose.Number) (tree : Bool) :
    Asks (spelled separator number tree) ⟨separator, number, tree, false, "-", []⟩ := by
  have waits : optionCluster "-s" = .ok ⟨[], some .separator⟩ := rfl
  have plural : optionCluster "--plural" = .ok ⟨[.option .plural ""], none⟩ := rfl
  have outline : optionCluster "--tree" = .ok ⟨[.option .tree ""], none⟩ := rfl
  cases number <;> cases tree
  · exact ⟨_, .waiting rfl waits .none, rfl⟩
  · exact ⟨_, .waiting rfl waits (.whole rfl outline .none), rfl⟩
  · exact ⟨_, .waiting rfl waits (.whole rfl plural .none), rfl⟩
  · exact ⟨_, .waiting rfl waits (.whole rfl plural (.whole rfl outline .none)), rfl⟩

/-- The command describes texts one by one. What it writes about each is what the library says
of it, or the text with the diagnostic of its fault, without the escape sequences of terminals.
The exit code is one if any of the texts is refused. So texts may be given in two parts, and a
text that is refused changes nothing of what is written about the others. -/
theorem texts_are_described_alone :
    (∀ separator number tree,
      Asks (spelled separator number tree) ⟨separator, number, tree, false, "-", []⟩) ∧
    (∀ options settings environment content, Asks options settings → settings.verbose = false →
      settings.content? environment = some content →
      DescribesAlone settings fun texts => run (options ++ "--" :: texts) environment) ∧
    ∀ text shown : String, Removes EscapeStyle.terminal.Sequence text.toList shown.toList ↔
      stripEscapes text = shown := by
  refine ⟨asks_spelled, ?_, ?_⟩
  · intro options settings environment content asks quiet readable
    exact describesAlone_outputFor quiet fun texts filled => asks.run_append readable filled
  · intro text shown
    rw [removes_iff_withoutEscapes, stripEscapes, ← String.toList_inj, String.toList_ofList]

/-- An environment with nothing to read. -/
def Environment.empty : Environment :=
  ⟨"", fun _ => none⟩

/-- A bracket that is not closed between two texts that list types. -/
theorem refused_between_described :
    (run (spelled ", " .plural false ++ "--" :: (["A"] ++ "B<" :: ["c"])) .empty).stdout =
      (run (spelled ", " .plural false ++ "--" :: (["A"] ++ ["c"])) .empty).stdout := by
  obtain ⟨asked, alone, -⟩ := texts_are_described_alone
  have complained : ∃ complaint, complaint? "B<" = some complaint :=
    Option.isSome_iff_exists.1 (by decide +kernel)
  obtain ⟨complaint, complained⟩ := complained
  exact ((alone _ _ .empty "" (asked ", " .plural false) rfl rfl).refused ["A"] "B<" ["c"]
    complaint (by simp) complained).1

/-- An escape sequence that has a sign among its parameters is not written, though it is not
lettered. -/
theorem signed_sequence_is_removed :
    ∃ said, describe "A,B" "\x1b[>1m" .singular = .ok said ∧
      (∃ left, Removes EscapeStyle.lettered.Sequence said.toList left) ∧
      ∀ left, Removes EscapeStyle.lettered.Sequence said.toList left →
        (run ["-s", "\x1b[>1m", "--", "A,B"] .empty).stdout ≠ String.ofList left ++ "\n" := by
  have written : (run ["-s", "\x1b[>1m", "--", "A,B"] .empty).stdout = "an Aa B\n" := by
    decide +kernel
  refine ⟨"an A\x1b[>1ma B", by decide +kernel, exists_removes (fun _ one => one.ne_nil) _,
    ?_⟩
  intro left removes same
  have outside : ∀ found, EscapeStyle.lettered.Sequence found → '>' ∉ found := by
    intro found sequence inside
    rcases sequence.mem inside with equal | equal | allowed
    · exact absurd equal (by decide)
    · exact absurd equal (by decide)
    · exact absurd allowed (by decide)
  have kept : '>' ∈ left := removes.mem outside (by decide)
  have absent : '>' ∉ "an Aa B\n".toList := by decide
  rw [← written, same] at absent
  exact absent (by simp [kept])

end Command

end TypeProse
