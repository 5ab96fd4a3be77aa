import TypeProse.Command.Run

/-!
# Options before texts

Arguments that are options only ask for settings. Behind a double hyphen the texts follow, and
these do not change what the options ask for. So the command runs on the texts with the
settings of the options, and without texts on those of the input file.
-/

namespace TypeProse.Command

/-- Arguments that are options only, with all that they ask for. An option that waits for its
value has it in the next argument. -/
inductive AreOptions : List String → List Given → Prop where
  | none : AreOptions [] []
  | whole {argument : String} {arguments : List String} {given others : List Given}
      (option : isOption argument = true) (cluster : optionCluster argument = .ok ⟨given, .none⟩)
      (more : AreOptions arguments others) : AreOptions (argument :: arguments) (given ++ others)
  | waiting {argument value : String} {arguments : List String} {given others : List Given}
      {switch : Switch} (option : isOption argument = true)
      (cluster : optionCluster argument = .ok ⟨given, some switch⟩)
      (more : AreOptions arguments others) :
      AreOptions (argument :: value :: arguments) (given ++ .option switch value :: others)

/-- The options ask for a description with these settings. -/
def Asks (options : List String) (settings : Settings) : Prop :=
  ∃ given, AreOptions options given ∧ Request.ofGiven given = .describe settings

/-- The text that is asked for, if it is one. -/
def Given.text? : Given → Option String
  | .text shown => some shown
  | .option .. => none

@[simp] theorem filterMap_text?_text (shown : String) (given : List Given) :
    (Given.text shown :: given).filterMap Given.text? = shown :: given.filterMap Given.text? := rfl

@[simp] theorem filterMap_text?_option (switch : Switch) (value : String) (given : List Given) :
    (Given.option switch value :: given).filterMap Given.text? = given.filterMap Given.text? := rfl

theorem filterMap_text?_map_text (texts : List String) :
    (texts.map Given.text).filterMap Given.text? = texts := by
  rw [List.filterMap_map]
  exact List.filterMap_some

/-- A computation that goes on with its value has a value exactly when it had one before. -/
theorem map_eq_ok_iff {ε α β : Type} {f : α → β} {x : Except ε α} {y : β} :
    x.map f = .ok y ↔ ∃ z, x = .ok z ∧ f z = y := by
  cases x <;> simp [Except.map]

section Options

variable {options arguments : List String} {given : List Given}

/-- A double hyphen is not an option. -/
theorem ne_hyphens_of_cluster {argument : String} {cluster : Cluster}
    (found : optionCluster argument = .ok cluster) : argument ≠ "--" := by
  rintro rfl
  have unknown : optionCluster "--" = .error (.unknownOption "--") := rfl
  cases unknown.symm.trans found

/-- Behind options, arguments ask for what they ask for alone. -/
theorem AreOptions.givenBy_append (areOptions : AreOptions options given)
    (arguments : List String) :
    givenBy (options ++ arguments) = (givenBy arguments).map (given ++ ·) := by
  induction areOptions with
  | none =>
      rw [List.nil_append]
      cases givenBy arguments <;> rfl
  | whole option cluster _ ih =>
      rw [List.cons_append, givenBy, if_neg (ne_hyphens_of_cluster cluster), if_pos option, cluster]
      simp only [ih]
      cases givenBy arguments <;> simp [Except.map]
  | waiting option cluster _ ih =>
      rw [List.cons_append, List.cons_append, givenBy, if_neg (ne_hyphens_of_cluster cluster),
        if_pos option, cluster]
      simp only [ih]
      cases givenBy arguments <;> simp [Except.map]

/-- Letters written together ask for no text. -/
theorem no_text_of_shortOptions {letters : List Char} {cluster : Cluster}
    (found : shortOptions letters = .ok cluster) : cluster.given.filterMap Given.text? = [] := by
  fun_induction shortOptions letters generalizing cluster with
  | case1 | case3 | case4 => cases found; rfl
  | case2 => cases found
  | case5 letter letters switch _ _ ih =>
      obtain ⟨others, rest, rfl⟩ := map_eq_ok_iff.1 found
      simpa using ih rest

/-- An argument that is read as options asks for no text. -/
theorem no_text_of_optionCluster {argument : String} {cluster : Cluster}
    (found : optionCluster argument = .ok cluster) :
    cluster.given.filterMap Given.text? = [] := by
  simp only [optionCluster] at found
  split at found
  · unfold longOption at found
    split at found <;> split at found <;> cases found <;> rfl
  · split at found
    · cases found
    · exact no_text_of_shortOptions found

/-- Options ask for no text. -/
theorem AreOptions.no_text (areOptions : AreOptions options given) :
    given.filterMap Given.text? = [] := by
  induction areOptions with
  | none => rfl
  | whole _ cluster _ ih =>
      rw [List.filterMap_append, no_text_of_optionCluster cluster, ih, List.append_nil]
  | waiting _ cluster _ ih =>
      rw [List.filterMap_append, no_text_of_optionCluster cluster, filterMap_text?_option, ih,
        List.append_nil]

/-- Arguments that ask for no text are options, but for a double hyphen at their end. -/
theorem exists_areOptions (asked : givenBy arguments = .ok given)
    (none : given.filterMap Given.text? = []) :
    ∃ options, AreOptions options given ∧
      (arguments = options ∨ arguments = options ++ ["--"]) := by
  fun_induction givenBy arguments generalizing given with
  | case1 => cases asked; exact ⟨[], .none, .inl rfl⟩
  | case2 rest =>
      cases asked
      rw [filterMap_text?_map_text] at none
      subst none
      exact ⟨[], .none, .inr rfl⟩
  | case3 | case5 => cases asked
  | case4 argument rest _ option first cluster ih =>
      obtain ⟨others, more, rfl⟩ := map_eq_ok_iff.1 asked
      rw [List.filterMap_append, no_text_of_optionCluster cluster, List.nil_append] at none
      obtain ⟨options, areOptions, whole⟩ := ih more none
      exact ⟨_, .whole option cluster areOptions, by simpa using whole⟩
  | case6 argument _ option first switch cluster value rest ih =>
      obtain ⟨others, more, rfl⟩ := map_eq_ok_iff.1 asked
      rw [List.filterMap_append, no_text_of_optionCluster cluster, List.nil_append] at none
      obtain ⟨options, areOptions, whole⟩ := ih more none
      exact ⟨_, .waiting option cluster areOptions, by simpa using whole⟩
  | case7 argument =>
      obtain ⟨others, -, rfl⟩ := map_eq_ok_iff.1 asked
      cases none

end Options

section Settings

variable {options : List String} {settings : Settings}

/-- The texts that are asked for are collected in their order. -/
theorem texts_foldl_add (given : List Given) (settings : Settings) :
    (given.foldl Settings.add settings).texts =
      settings.texts ++ given.filterMap Given.text? := by
  induction given generalizing settings with
  | nil => simp
  | cons first given ih =>
      rw [List.foldl_cons, ih]
      rcases first with shown | ⟨switch, value⟩
      · simp [Settings.add]
      · cases switch <;> simp [Settings.add]

/-- Texts change no setting but the texts. -/
theorem foldl_add_texts (texts : List String) (settings : Settings) :
    (texts.map Given.text).foldl Settings.add settings =
      { settings with texts := settings.texts ++ texts } := by
  induction texts generalizing settings with
  | nil => simp
  | cons text texts ih => simp [ih, Settings.add]

/-- A description is what is asked for exactly if nothing stands above the settings. -/
theorem ofGiven_eq_describe_iff {given : List Given} :
    Request.ofGiven given = .describe settings ↔
      given.findSome? Given.overriding? = none ∧
        given.foldl Settings.add Settings.default = settings := by
  unfold Request.ofGiven
  cases above : given.findSome? Given.overriding? with
  | none => simp
  | some request =>
      obtain ⟨first, -, found⟩ := List.exists_of_findSome?_eq_some above
      simp only [reduceCtorEq, false_and, iff_false]
      rintro rfl
      unfold Given.overriding? at found
      split at found <;> cases found

/-- What stands above the settings is answered whatever comes behind it, if that can be used. -/
theorem AreOptions.ofArguments_of_overriding {given more : List Given} {arguments : List String}
    {request : Request} (areOptions : AreOptions options given)
    (above : given.findSome? Given.overriding? = some request)
    (usable : givenBy arguments = .ok more) :
    Request.ofArguments (options ++ arguments) = .ok request := by
  have first : (given ++ more).findSome? Given.overriding? = some request := by
    rw [List.findSome?_append, above, Option.some_or]
  rw [Request.ofArguments, areOptions.givenBy_append, usable]
  simp only [Except.map, Request.ofGiven, first]

/-- Texts behind what asks for a description are the texts to describe. -/
theorem ofGiven_append_texts {given : List Given} (none : given.filterMap Given.text? = [])
    (asked : Request.ofGiven given = .describe settings) (texts : List String) :
    Request.ofGiven (given ++ texts.map .text) = .describe { settings with texts := texts } := by
  obtain ⟨above, rfl⟩ := ofGiven_eq_describe_iff.1 asked
  refine ofGiven_eq_describe_iff.2 ⟨?_, ?_⟩
  · rw [List.findSome?_append, above, Option.none_or, List.findSome?_map]
    exact List.findSome?_eq_none_iff.2 fun _ _ => rfl
  · rw [List.foldl_append, foldl_add_texts, texts_foldl_add, none]
    rfl

namespace Asks

/-- Options give no text. -/
theorem texts_eq_nil (asks : Asks options settings) : settings.texts = [] := by
  obtain ⟨given, areOptions, asked⟩ := asks
  obtain ⟨-, rfl⟩ := ofGiven_eq_describe_iff.1 asked
  rw [texts_foldl_add, areOptions.no_text]
  rfl

/-- The options alone ask for the description. -/
theorem ofArguments_eq (asks : Asks options settings) :
    Request.ofArguments options = .ok (.describe settings) := by
  obtain ⟨given, areOptions, asked⟩ := asks
  have alone := areOptions.givenBy_append []
  rw [List.append_nil] at alone
  rw [Request.ofArguments, alone, ← asked]
  simp [givenBy, Except.map]

/-- With texts behind a double hyphen, these are to be described. -/
theorem ofArguments_append (asks : Asks options settings) (texts : List String) :
    Request.ofArguments (options ++ "--" :: texts) =
      .ok (.describe { settings with texts := texts }) := by
  obtain ⟨given, areOptions, asked⟩ := asks
  rw [Request.ofArguments, areOptions.givenBy_append, givenBy, if_pos rfl,
    ← ofGiven_append_texts areOptions.no_text asked texts]
  rfl

variable {environment : Environment} {content : String}

/-- With options alone, the command runs on the texts of the input file. -/
theorem run_eq (asks : Asks options settings)
    (readable : settings.content? environment = some content) :
    run options environment = settings.outputFor (textsOfFile content) := by
  rw [run, asks.ofArguments_eq]
  simp [Request.output, readable, Settings.textsFrom, asks.texts_eq_nil]

/-- With texts behind a double hyphen, the command runs on them. -/
theorem run_append (asks : Asks options settings)
    (readable : settings.content? environment = some content) {texts : List String}
    (filled : texts ≠ []) :
    run (options ++ "--" :: texts) environment = settings.outputFor texts := by
  have readable' : Settings.content? { settings with texts := texts } environment = some content :=
    readable
  rw [run, asks.ofArguments_append]
  simp only [Request.output, readable', Settings.textsFrom, List.isEmpty_iff, filled, if_false]
  rfl

end Asks

/-- Arguments that ask for a description and give no text are options that ask for it, but for a
double hyphen at their end. -/
theorem exists_asks {arguments : List String}
    (asked : Request.ofArguments arguments = .ok (.describe settings))
    (none : settings.texts = []) :
    ∃ options, Asks options settings ∧ (arguments = options ∨ arguments = options ++ ["--"]) := by
  obtain ⟨given, found, request⟩ := map_eq_ok_iff.1 asked
  have texts : given.filterMap Given.text? = [] := by
    obtain ⟨-, rfl⟩ := ofGiven_eq_describe_iff.1 request
    rw [texts_foldl_add] at none
    exact (List.append_eq_nil_iff.1 none).2
  obtain ⟨options, areOptions, whole⟩ := exists_areOptions found texts
  exact ⟨options, ⟨given, areOptions, request⟩, whole⟩

end Settings

end TypeProse.Command
