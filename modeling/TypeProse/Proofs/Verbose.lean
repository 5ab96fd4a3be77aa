import TypeProse.Proofs.Independence
import TypeProse.Proofs.Tracing

/-!
# The trace of the command

The command writes the trace of its readings if it is asked to. The option may be added among
any arguments, and it changes one setting. So the same is printed with the same exit code, and
what is written to standard error differs by the events of the trace only.
-/

namespace TypeProse.Command

open TypeExpr

/-- Arguments with the option for a trace added to them, at a place where it is neither the value
of an option nor a text behind a double hyphen. -/
inductive AddsTrace : List String → List String → Prop where
  | here {flag : String} (asks : flag ∈ ["-v", "--verbose"]) (arguments : List String) :
      AddsTrace arguments (flag :: arguments)
  | whole {argument : String} {quiet verbose : List String} (more : argument ≠ "--")
      (alone : isOption argument = true →
        ∀ given switch, optionCluster argument ≠ .ok ⟨given, some switch⟩)
      (behind : AddsTrace quiet verbose) : AddsTrace (argument :: quiet) (argument :: verbose)
  | waiting {argument value : String} {quiet verbose : List String} {given : List Given}
      {switch : Switch} (option : isOption argument = true)
      (cluster : optionCluster argument = .ok ⟨given, some switch⟩)
      (behind : AddsTrace quiet verbose) :
      AddsTrace (argument :: value :: quiet) (argument :: value :: verbose)

/-- The settings with a trace. -/
def Settings.traced (settings : Settings) : Settings :=
  { settings with verbose := true }

/-- The request with a trace, if it is for a description. -/
def Request.traced : Request → Request
  | .describe settings => .describe settings.traced
  | request => request

section Arguments

variable {quiet verbose : List String}

/-- An argument that waits for no value is refused, or it asks for something that comes before
all that the arguments behind it ask for. -/
theorem givenBy_cons_cases {argument : String} (more : argument ≠ "--")
    (alone : isOption argument = true →
      ∀ given switch, optionCluster argument ≠ .ok ⟨given, some switch⟩) :
    (∃ error, ∀ rest, givenBy (argument :: rest) = .error error) ∨
      ∃ given, ∀ rest, givenBy (argument :: rest) = (givenBy rest).map (given ++ ·) := by
  by_cases option : isOption argument = true
  · cases found : optionCluster argument with
    | error error => exact .inl ⟨error, fun rest => by simp [givenBy, more, option, found]⟩
    | ok cluster =>
        obtain ⟨given, waiting⟩ := cluster
        cases waiting with
        | none => exact .inr ⟨given, fun rest => by simp [givenBy, more, option, found]⟩
        | some switch => exact absurd found (alone option given switch)
  · refine .inr ⟨[.text argument], fun rest => ?_⟩
    simp [givenBy, more, option]

/-- Arguments that are refused alike, or that ask for the same and for a trace somewhere in
between. -/
inductive GivesTrace : Except UsageError (List Given) → Except UsageError (List Given) → Prop where
  | refused (error : UsageError) : GivesTrace (.error error) (.error error)
  | asked (front back : List Given) :
      GivesTrace (.ok (front ++ back)) (.ok (front ++ .option .verbose "" :: back))

/-- It does not matter what else is asked for before. -/
theorem GivesTrace.behind {without withTrace : Except UsageError (List Given)}
    (gives : GivesTrace without withTrace) (given : List Given) :
    GivesTrace (without.map (given ++ ·)) (withTrace.map (given ++ ·)) := by
  cases gives with
  | refused error => exact .refused error
  | asked front back => simpa [Except.map] using GivesTrace.asked (given ++ front) back

/-- With the option for a trace, the same is asked for, and a trace somewhere in between. -/
theorem AddsTrace.givesTrace (adds : AddsTrace quiet verbose) :
    GivesTrace (givenBy quiet) (givenBy verbose) := by
  induction adds with
  | @here flag asks arguments =>
      have flagged : givenBy (flag :: arguments) =
          (givenBy arguments).map (Given.option .verbose "" :: ·) := by
        rcases List.mem_pair.1 asks with rfl | rfl <;> rfl
      rw [flagged]
      cases givenBy arguments with
      | error error => exact .refused error
      | ok given => exact .asked [] given
  | whole more alone _ ih =>
      rcases givenBy_cons_cases more alone with ⟨error, refused⟩ | ⟨given, goesOn⟩
      · rw [refused, refused]
        exact .refused error
      · rw [goesOn, goesOn]
        exact ih.behind given
  | @waiting argument value _ _ given switch option cluster _ ih =>
      have goesOn : ∀ rest, givenBy (argument :: value :: rest) =
          (givenBy rest).map (given ++ [.option switch value] ++ ·) := by
        intro rest
        simp [givenBy, ne_hyphens_of_cluster cluster, option, cluster]
      rw [goesOn, goesOn]
      exact ih.behind _

/-- No other option asks against a trace. -/
theorem Settings.traced_add (settings : Settings) (given : Given) :
    settings.traced.add given = (settings.add given).traced := by
  rcases given with _ | ⟨switch, _⟩
  · rfl
  · cases switch <;> rfl

theorem Settings.foldl_add_traced (given : List Given) (settings : Settings) :
    given.foldl Settings.add settings.traced = (given.foldl Settings.add settings).traced := by
  induction given generalizing settings with
  | nil => rfl
  | cons first given ih => rw [List.foldl_cons, traced_add, ih, List.foldl_cons]

/-- Wherever a trace is asked for, the request is the same with a trace. -/
theorem ofGiven_verbose (front back : List Given) :
    Request.ofGiven (front ++ .option .verbose "" :: back) =
      (Request.ofGiven (front ++ back)).traced := by
  have above : (front ++ .option .verbose "" :: back).findSome? Given.overriding? =
      (front ++ back).findSome? Given.overriding? := by
    rw [List.findSome?_append, List.findSome?_append]
    rfl
  have folded : (front ++ .option .verbose "" :: back).foldl Settings.add Settings.default =
      ((front ++ back).foldl Settings.add Settings.default).traced := by
    rw [List.foldl_append, List.foldl_cons, List.foldl_append]
    exact Settings.foldl_add_traced back _
  cases asked : (front ++ back).findSome? Given.overriding? with
  | none =>
      rw [ofGiven_eq_describe_iff.2 ⟨above.trans asked, folded⟩,
        ofGiven_eq_describe_iff.2 ⟨asked, rfl⟩]
      rfl
  | some request =>
      obtain ⟨first, -, found⟩ := List.exists_of_findSome?_eq_some asked
      simp only [Request.ofGiven, above, asked]
      unfold Given.overriding? at found
      split at found <;> cases found <;> rfl

/-- The option for a trace adds a trace to what is asked for. -/
theorem AddsTrace.ofArguments_eq (adds : AddsTrace quiet verbose) :
    Request.ofArguments verbose = (Request.ofArguments quiet).map Request.traced := by
  have gives := adds.givesTrace
  unfold Request.ofArguments
  generalize givenBy quiet = without, givenBy verbose = withTrace at gives
  cases gives with
  | refused error => rfl
  | asked front back => exact congrArg _ (ofGiven_verbose front back)

end Arguments

/-- Whether a notice is an event of the trace. -/
def Notice.isEvent : Notice → Bool
  | .event _ => true
  | .refusal .. => false

/-- All that can be said of a text on standard error: the trace of its reading, and behind it
the complaint if the text is refused. -/
def noticesOf (text : String) : List Notice :=
  (readText text textSource).events.map .event ++
    match parse text textSource with
    | .ok _ => []
    | .error fault => [.refusal text fault]

/-- Notices as they are written. -/
def written (notices : List Notice) : String :=
  String.join (notices.map Notice.render)

/-- What the option for a trace adds to a run. The same is printed with the same exit code.
Where texts are described without a trace, the notices of the trace are added to standard error,
each text's before the complaint about it; and otherwise nothing changes. -/
structure AddsOnlyTrace (quiet verbose : List String) (environment : Environment) : Prop where
  stdout : (run verbose environment).stdout = (run quiet environment).stdout
  exitCode : (run verbose environment).exitCode = (run quiet environment).exitCode
  stderr (settings : Settings) (content : String)
      (asked : Request.ofArguments quiet = .ok (.describe settings))
      (silent : settings.verbose = false)
      (readable : settings.content? environment = some content) :
      (run verbose environment).stderr =
          written ((settings.textsFrom content).flatMap noticesOf) ∧
        (run quiet environment).stderr =
          written (((settings.textsFrom content).flatMap noticesOf).filter
            fun notice => !notice.isEvent)
  unchanged (no : ¬ ∃ settings content,
      Request.ofArguments quiet = .ok (.describe settings) ∧ settings.verbose = false ∧
        settings.content? environment = some content) :
      run verbose environment = run quiet environment

section Output

variable (settings : Settings)

theorem show_traced (types : List TypeExpr) : settings.traced.show types = settings.show types :=
  rfl

theorem trace_traced (reading : Reading) :
    settings.traced.trace reading = reading.events.map .event :=
  rfl

/-- With a trace, the same is printed for a text, and all is said of it that can be. -/
theorem outcome_traced (text : String) :
    settings.traced.outcome text =
      ⟨(settings.outcome text).stdout, noticesOf text, (settings.outcome text).refused⟩ := by
  unfold Settings.outcome noticesOf parse
  cases result : (readText text textSource).result <;> simp [show_traced, trace_traced, result]

/-- Without a trace, what is said of a text is all but the events. -/
theorem notices_outcome {settings : Settings} (silent : settings.verbose = false) (text : String) :
    (settings.outcome text).notices = (noticesOf text).filter fun notice => !notice.isEvent := by
  unfold Settings.outcome noticesOf parse
  cases result : (readText text textSource).result <;>
    simp [Settings.trace, silent, Notice.isEvent, List.filter_map, Function.comp_def, result]

theorem stdout_traced (texts : List String) :
    (settings.traced.outputFor texts).stdout = (settings.outputFor texts).stdout := by
  simp [Settings.outputFor, outcome_traced, Function.comp_def]

theorem exitCode_traced (texts : List String) :
    (settings.traced.outputFor texts).exitCode = (settings.outputFor texts).exitCode := by
  simp [Settings.outputFor, outcome_traced, Function.comp_def]

theorem stderr_traced (texts : List String) :
    (settings.traced.outputFor texts).stderr = written (texts.flatMap noticesOf) := by
  simp [Settings.outputFor, outcome_traced, written, List.flatMap_map]

theorem stderr_silent {settings : Settings} (silent : settings.verbose = false)
    (texts : List String) :
    (settings.outputFor texts).stderr =
      written ((texts.flatMap noticesOf).filter fun notice => !notice.isEvent) := by
  simp [Settings.outputFor, notices_outcome silent, written, List.flatMap_map, List.filter_flatMap]

end Output

section Run

variable {quiet verbose : List String} {environment : Environment}

/-- Where texts are described, they are described with and without a trace. -/
theorem AddsTrace.run_eq {settings : Settings} {content : String} (adds : AddsTrace quiet verbose)
    (asked : Request.ofArguments quiet = .ok (.describe settings))
    (readable : settings.content? environment = some content) :
    run quiet environment = settings.outputFor (settings.textsFrom content) ∧
      run verbose environment = settings.traced.outputFor (settings.textsFrom content) := by
  have readable' : settings.traced.content? environment = some content := readable
  constructor
  · simp [run, asked, Request.output, readable]
  · simp only [run, adds.ofArguments_eq, asked, Except.map, Request.traced, Request.output,
      readable']
    rfl

/-- Where no text is described without a trace, nothing changes. -/
theorem AddsTrace.run_unchanged (adds : AddsTrace quiet verbose)
    (no : ¬ ∃ settings content, Request.ofArguments quiet = .ok (.describe settings) ∧
      settings.verbose = false ∧ settings.content? environment = some content) :
    run verbose environment = run quiet environment := by
  unfold run
  rw [adds.ofArguments_eq]
  cases asked : Request.ofArguments quiet with
  | error => rfl
  | ok request =>
      cases request with
      | showVersion | showHelp => rfl
      | describe settings =>
          cases silent : settings.verbose with
          | true =>
              have traced : settings.traced = settings := by rw [Settings.traced, ← silent]
              simp [Except.map, Request.traced, traced]
          | false =>
              have unreadable : settings.content? environment = none := by
                refine Option.eq_none_iff_forall_ne_some.2 fun content readable => ?_
                exact no ⟨settings, content, asked, silent, readable⟩
              have unreadable' : settings.traced.content? environment = none := unreadable
              simp only [Except.map, Request.traced, Request.output, unreadable, unreadable']
              rfl

/-- The option for a trace adds the trace and changes nothing else. -/
theorem AddsTrace.addsOnlyTrace (adds : AddsTrace quiet verbose) (environment : Environment) :
    AddsOnlyTrace quiet verbose environment := by
  by_cases describes : ∃ settings content, Request.ofArguments quiet = .ok (.describe settings) ∧
    settings.verbose = false ∧ settings.content? environment = some content
  · obtain ⟨settings, content, asked, -, readable⟩ := describes
    obtain ⟨without, withTrace⟩ := adds.run_eq asked readable
    refine ⟨?_, ?_, ?_, adds.run_unchanged⟩
    · rw [without, withTrace, stdout_traced]
    · rw [without, withTrace, exitCode_traced]
    · intro settings' content' asked' silent readable'
      obtain ⟨without, withTrace⟩ := adds.run_eq asked' readable'
      rw [without, withTrace]
      exact ⟨stderr_traced _ _, stderr_silent silent _⟩
  · have same := adds.run_unchanged describes
    refine ⟨by rw [same], by rw [same], ?_, adds.run_unchanged⟩
    intro settings content asked silent readable
    exact absurd ⟨settings, content, asked, silent, readable⟩ describes

end Run

end TypeProse.Command
