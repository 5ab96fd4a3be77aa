import TypeProse.Proofs.Checked
import TypeProse.Proofs.Independence
import TypeProse.Proofs.Lead
import TypeProse.Proofs.Locating
import TypeProse.Proofs.Writing
import TypeProse.TypeExpr.Outline

/-!
# No operation fails

From no text is a breach reached. Each operation is safe for a reason of its own: a scanner that
is stuck stands in its text and not at its end; only closers and single characters are put into
words; the names in a draft have a character because no token but the end of input is empty, and
so have those in all types that are read.
-/

namespace TypeProse.Checked

open TypeExpr Prose

/-- A computation without a breach gives the value, or it reports the fault in words. -/
inductive Reports {α : Type} : Except Breach (Except Refusal α) → Except Fault α → Prop where
  | value (value : α) : Reports (.ok (.ok value)) (.ok value)
  | refusal {fault : Fault} {diagnostic : Diagnostic} (words : fault.diagnostic = .ok diagnostic) :
      Reports (.ok (.error ⟨fault, diagnostic⟩)) (.error fault)

/-- What is done with the value later changes nothing else. -/
theorem Reports.map {α β : Type} {checked : Except Breach (Except Refusal α)}
    {result : Except Fault α} (reports : Reports checked result) (f : α → β) :
    Reports (checked.map fun inner => inner.map f) (result.map f) := by
  cases reports with
  | value value => exact .value (f value)
  | refusal words => exact .refusal words

/-- A fault that can be put into words is reported. -/
theorem refuse_eq {fault : Fault} {diagnostic : Diagnostic}
    (words : fault.diagnostic = .ok diagnostic) : refuse fault = .ok ⟨fault, diagnostic⟩ := by
  simp [refuse, words]

/-- Where reading fails, the fault can be put into words. -/
theorem exists_words {draft : Draft} {scanner : Scanner} {fault : Fault}
    (failed : (draft.read scanner).result = .error fault) :
    ∃ diagnostic, fault.diagnostic = .ok diagnostic := by
  obtain ⟨_, _, _, _, _, halts⟩ := Draft.result_eq_iff.1 failed
  obtain ⟨words, worded⟩ := halts.exists_wording
  rw [Fault.diagnostic, worded]
  exact ⟨_, rfl⟩

section Scanning

variable {text source : String} {scanner after : Scanner} {token : Token} {fault : Fault}

/-- The scanner stays in its text when it is asked for a token. -/
theorem standsIn_next {answer : Except Fault Token} (stands : scanner.StandsIn text source)
    (found : scanner.next = (answer, after)) : after.StandsIn text source := by
  have served := ((scanner.serves_perform .next).standsIn stands).1
  rwa [Scanner.perform_next, found] at served

/-- The next token is found without a breach. -/
theorem next_of_token (chars : List Char) (found : scanner.next = (.ok token, after)) :
    next chars scanner = .ok (.ok token, after) := by
  unfold Scanner.next Scanner.nextHere at found
  unfold next nextHere
  cases isLexeme : lexemeAt? scanner.skipBlanks.rest with
  | some lexeme =>
      rw [isLexeme] at found
      cases found
      rfl
  | none =>
      rw [isLexeme] at found
      cases found

/-- Where no token starts, there is a character in the text, and it can be named. -/
theorem next_of_fault (stands : scanner.StandsIn text source)
    (found : scanner.next = (.error fault, after)) :
    ∃ diagnostic, fault.diagnostic = .ok diagnostic ∧
      next text.toList scanner = .ok (.error ⟨fault, diagnostic⟩, after) := by
  obtain ⟨diagnostic, words⟩ :=
    exists_words (congrArg Reading.result (Draft.empty.read_of_error found))
  refine ⟨diagnostic, words, ?_⟩
  have stands' := standsIn_next stands found
  unfold Scanner.next Scanner.nextHere at found
  unfold next nextHere
  cases stuck : lexemeAt? scanner.skipBlanks.rest with
  | some lexeme =>
      rw [stuck] at found
      cases found
  | none =>
      rw [stuck] at found
      cases found
      have unread := stands'.unread
      cases rest : scanner.skipBlanks.rest with
      | nil =>
          rw [rest] at stuck
          cases stuck
      | cons char others =>
          have there : text.toList[scanner.skipBlanks.cursor.offset]? = some char := by
            have first := congrArg List.head? (rest.symm.trans unread)
            rw [List.head?_drop] at first
            exact first.symm
          rw [rest, List.take_succ_cons, List.take_zero] at words
          simp only [there, orBreach, List.take_succ_cons, List.take_zero]
          exact bind_eq_ok_iff.2 ⟨char, rfl, bind_eq_ok_iff.2 ⟨_, refuse_eq words, rfl⟩⟩

theorem tokenizeFrom_of_refusal {chars : List Char} {refusal : Refusal}
    (found : next chars scanner = .ok (.error refusal, after)) :
    tokenizeFrom chars scanner = .ok (.error refusal) := by
  rw [tokenizeFrom]
  split <;> simp_all

theorem tokenizeFrom_of_token {chars : List Char}
    (found : next chars scanner = .ok (.ok token, after)) :
    tokenizeFrom chars scanner =
      if token.kind = .endOfInput then .ok (.ok [token])
      else (tokenizeFrom chars after).map fun tokens => tokens.map (token :: ·) := by
  rw [tokenizeFrom]
  split <;> simp_all

/-- What is reported behind a token is reported together with the token. -/
theorem Reports.behind_token {chars : List Char} {result : Except Fault (List Token)}
    (reports : Reports (tokenizeFrom chars after) result)
    (found : scanner.next = (.ok token, after)) (more : token.kind ≠ .endOfInput) :
    Reports (tokenizeFrom chars scanner) (result.map (token :: ·)) := by
  rw [tokenizeFrom_of_token (next_of_token _ found), if_neg more]
  exact reports.map (token :: ·)

/-- Cutting a text into tokens leads to no breach. -/
theorem tokenizeFrom_reports (stands : scanner.StandsIn text source) :
    Reports (tokenizeFrom text.toList scanner) scanner.tokenize.1 := by
  fun_induction Scanner.tokenize scanner with
  | case1 scanner fault after found =>
      obtain ⟨diagnostic, words, found'⟩ := next_of_fault stands found
      rw [tokenizeFrom_of_refusal found']
      exact .refusal words
  | case2 scanner token after found last =>
      rw [tokenizeFrom_of_token (next_of_token _ found), if_pos last]
      exact .value _
  | case3 scanner token after found more _ fault stopped rest ih =>
      have reports := ih (standsIn_next stands found)
      rw [rest] at reports
      exact reports.behind_token found more
  | case4 scanner token after found more _ tokens stopped rest ih =>
      have reports := ih (standsIn_next stands found)
      rw [rest] at reports
      exact reports.behind_token found more

end Scanning

/-- A draft of which every name has a character. -/
structure IsNamed (draft : Draft) : Prop where
  frames : ∀ frame ∈ draft.frames, frame.name ≠ ""
  pending : draft.pending ≠ .name ""

section Reading

variable {draft following : Draft} {token : Token}

theorem finish_eq {pending : Pending} (named : pending ≠ .name "") :
    finish pending = .ok pending.type? := by
  cases pending with
  | empty | type => rfl
  | name text =>
      have filled : text ≠ "" := fun empty => named (by rw [empty])
      exact congrArg (Except.map some) (make_eq (.simple text) filled)

theorem leave_eq {frame : Frame} (named : frame.name ≠ "") (frames : List Frame)
    (types : List TypeExpr) : leave frame frames types = .ok (Draft.leave frame frames types) := by
  cases bracket : frame.bracket <;>
    simp [leave, Draft.leave, bracket, make, Unnamed.ofName?, TypeExpr.name, named, Except.map]

theorem terminate_eq (named : IsNamed draft) (token : Token) :
    terminate draft token = .ok (draft.terminate token) := by
  unfold terminate Draft.terminate
  rw [finish_eq named.pending]
  cases draft.pending.type? with
  | none => rfl
  | some type =>
      simp only [bind, Except.bind]
      split
      · cases stack : draft.frames with
        | nil => rfl
        | cons frame frames =>
            simp only [leave_eq (named.frames frame (by simp [stack]))]
            rfl
      · split <;> rfl

/-- Where every name has a character, a token is taken into account without a breach. -/
theorem step_eq (named : IsNamed draft) (token : Token) :
    step draft token = .ok (draft.step token) := by
  unfold step
  split
  · rename_i separates
    cases pending : draft.pending.type? <;>
      simp only [separate, finish_eq named.pending, pending, Draft.step, separates,
        Draft.separate, Except.map]
  · split
    · rename_i ends
      rw [Draft.step_of_isTerminator ends, terminate_eq named]
    · rfl

/-- The empty draft has no name. -/
theorem isNamed_empty : IsNamed .empty :=
  ⟨by simp [Draft.empty], by simp [Draft.empty]⟩

/-- A bracket takes a name with a character. -/
theorem ne_empty_of_head {pending : Pending} {bracket : Bracket} {name : String}
    (named : pending ≠ .name "") (head : pending.head? bracket = some name) : name ≠ "" := by
  rintro rfl
  cases pending with
  | empty =>
      have isName := bracket.isName_defaultName
      rw [Option.some.inj head] at isName
      exact isName.ne_nil rfl
  | name text =>
      cases head
      exact named rfl
  | type => cases head

/-- Names with a character lead to drafts whose names have one. -/
theorem IsNamed.of_moves (named : IsNamed draft) (filled : token.lexeme ≠ "")
    (move : draft.Moves token following) : IsNamed following := by
  cases move with
  | name => exact ⟨named.frames, by simpa using filled⟩
  | separate => exact ⟨named.frames, by simp⟩
  | enter _ head =>
      have filled := ne_empty_of_head named.pending head
      exact ⟨List.forall_mem_cons.2 ⟨filled, named.frames⟩, by simp⟩
  | @leave frame frames type stack =>
      have all := named.frames
      rw [stack, List.forall_mem_cons] at all
      rcases Draft.leave_cases frame frames (type :: draft.finished).reverse with
        left | ⟨whole, left⟩
      · rw [left]
        exact ⟨List.forall_mem_cons.2 all, by simp⟩
      · rw [left]
        exact ⟨all.2, by simp⟩

theorem read_of_refusal {chars : List Char} {scanner after : Scanner} {refusal : Refusal}
    (found : next chars scanner = .ok (.error refusal, after)) :
    read chars draft scanner = .ok (.error refusal) := by
  rw [read]
  split <;> simp_all

theorem read_of_token {chars : List Char} {scanner after : Scanner}
    (found : next chars scanner = .ok (.ok token, after)) :
    read chars draft scanner = (step draft token).bind fun
      | .rejected fault => (refuse fault).map .error
      | .complete types => .ok (.ok types)
      | .reading following => read chars following after := by
  rw [read]
  split
  · simp_all
  · simp_all
  · rename_i found'
    cases found'.symm.trans found
    split <;> rename_i taken <;> simp [taken, Except.bind]

/-- Reading a text leads to no breach. -/
theorem read_reports {text source : String} {scanner : Scanner} (named : IsNamed draft)
    (stands : scanner.StandsIn text source) :
    Reports (read text.toList draft scanner) (draft.read scanner).result := by
  fun_induction Draft.read draft scanner with
  | case1 draft scanner fault after found =>
      obtain ⟨diagnostic, words, found'⟩ := next_of_fault stands found
      rw [read_of_refusal found']
      exact .refusal words
  | case2 draft scanner token after found fault rejected =>
      obtain ⟨diagnostic, words⟩ :=
        exists_words (congrArg Reading.result (Draft.read_of_rejected found rejected))
      rw [read_of_token (next_of_token _ found), step_eq named token, rejected]
      simp only [Except.bind, refuse_eq words]
      exact .refusal words
  | case3 draft scanner token after found types complete =>
      rw [read_of_token (next_of_token _ found), step_eq named token, complete]
      exact .value types
  | case4 draft scanner token after found following goesOn _ _ ih =>
      rw [read_of_token (next_of_token _ found), step_eq named token, goesOn]
      refine ih ?_ (standsIn_next stands found)
      rcases scanner.next_outcomes with ⟨_, _, next, more, one⟩ | ⟨_, _, next, last, _⟩ |
        ⟨_, _, _, next⟩
      · cases found.symm.trans next
        have inside := List.mem_singleton_self token
        have move := (Draft.step_eq_reading_iff (one.kind_ne token inside).1).1 goesOn
        exact named.of_moves (one.matches token inside).1 move
      · cases found.symm.trans next
        exact absurd last (Draft.kind_ne_endOfInput_of_reading goesOn)
      · cases found.symm.trans next

end Reading

section Rendering

/-- What a name stands for is found if it has a character. -/
theorem senseOf_eq {name : String} (filled : name ≠ "") :
    senseOf name = .ok (NameSense.ofName name) := by
  unfold senseOf NameSense.ofName
  cases first : name.toList.head? with
  | none => exact absurd (by simpa using first) filled
  | some char => by_cases duck : char = '#' <;> simp [duck, orBreach, Except.map]

theorem pluralOf_eq {name : String} (filled : name ≠ "") :
    pluralOf name = .ok (Prose.pluralOf name) := by
  unfold pluralOf Prose.pluralOf
  cases last : name.toList.getLast? with
  | none => exact absurd (by simpa using last) filled
  | some char => simp [orBreach, Except.map]

theorem namePhrase_eq {name : String} (filled : name ≠ "") (number : Number) :
    namePhrase name number = .ok (Prose.namePhrase name number) := by
  unfold namePhrase Prose.namePhrase
  rw [senseOf_eq filled]
  cases NameSense.ofName name with
  | duck | constant => cases number <;> rfl
  | ofClass =>
      cases number with
      | singular => rfl
      | plural => exact pluralOf_eq filled

mutual

/-- A type is described without a breach if every name in it has a character. -/
theorem phrase_eq (number : Number) : (type : TypeExpr) →
    (∀ inner ∈ type.walk, inner.name ≠ "") → phrase type number = .ok (Prose.phrase type number)
  | .simple name, named => by
      have filled : name ≠ "" := named (.simple name) (by simp [walk])
      rw [phrase, Prose.phrase, namePhrase_eq filled]
  | .collection name types, named => by
      have inside := phrases_eq .plural types fun inner member =>
        named inner (by simp [walk, member])
      rw [phrase, Prose.phrase, inside]
      rfl
  | .fixedCollection name types, named => by
      have inside := phrases_eq .singular types fun inner member =>
        named inner (by simp [walk, member])
      rw [phrase, Prose.phrase, inside]
      rfl
  | .hashCollection name keys values, named => by
      have first := phrases_eq .plural keys fun inner member =>
        named inner (by simp [walk, member])
      have second := phrases_eq .plural values fun inner member =>
        named inner (by simp [walk, member])
      rw [phrase, Prose.phrase, first, second]
      rfl

theorem phrases_eq (number : Number) : (types : List TypeExpr) →
    (∀ inner ∈ walkAll types, inner.name ≠ "") →
      phrases types number = .ok (Prose.phrases types number)
  | [], _ => rfl
  | type :: types, named => by
      have first := phrase_eq number type fun inner member =>
        named inner (by simp [walkAll, member])
      have others := phrases_eq number types fun inner member =>
        named inner (by simp [walkAll, member])
      rw [phrases, Prose.phrases, first, others]
      rfl

end

mutual

/-- A walk passes everything inside a type that it comes to. -/
theorem walk_subset_walk {inner : TypeExpr} :
    (type : TypeExpr) → inner ∈ type.walk → inner.walk ⊆ type.walk
  | .simple name, member => by
      rw [walk, List.mem_singleton] at member
      rw [member]
      exact List.Subset.refl _
  | .collection name types, member | .fixedCollection name types, member => by
      rw [walk, List.mem_cons] at member
      rcases member with same | member
      · rw [same]
        exact List.Subset.refl _
      · rw [walk]
        exact List.subset_cons_of_subset _ (walk_subset_walkAll types member)
  | .hashCollection name keys values, member => by
      rw [walk, List.mem_cons, List.mem_append] at member
      rcases member with same | member | member
      · rw [same]
        exact List.Subset.refl _
      · rw [walk]
        exact List.subset_cons_of_subset _
          (List.subset_append_of_subset_left _ (walk_subset_walkAll keys member))
      · rw [walk]
        exact List.subset_cons_of_subset _
          (List.subset_append_of_subset_right _ (walk_subset_walkAll values member))

theorem walk_subset_walkAll {inner : TypeExpr} :
    (types : List TypeExpr) → inner ∈ walkAll types → inner.walk ⊆ walkAll types
  | type :: types, member => by
      rw [walkAll, List.mem_append] at member
      rw [walkAll]
      rcases member with member | member
      · exact List.subset_append_of_subset_left _ (walk_subset_walk type member)
      · exact List.subset_append_of_subset_right _ (walk_subset_walkAll types member)

end

/-- Types of which every name has a character are described without a breach. -/
theorem describeAll_eq {types : List TypeExpr} (named : ∀ inner ∈ walkAll types, inner.name ≠ "")
    (separator : String) (number : Number) :
    describeAll types separator number = .ok (Prose.describeAll types separator number) :=
  congrArg (Except.map separator.intercalate) (phrases_eq number types named)

end Rendering

section Texts

variable {text source : String}

theorem tokenize_reports (text source : String) :
    Reports (tokenize text source) (TypeProse.tokenize text source) :=
  tokenizeFrom_reports (Scanner.standsIn_start text source)

theorem parse_reports (text source : String) :
    Reports (parse text source) (TypeProse.parse text source) :=
  read_reports isNamed_empty (Scanner.standsIn_start text source)

/-- Every name that is read has a character. -/
theorem ne_empty_of_parse_eq {types : List TypeExpr}
    (read : TypeProse.parse text source = .ok types) :
    ∀ inner ∈ walkAll types, inner.name ≠ "" := by
  intro inner member empty
  have isName := (wellFormed_of_parse_eq read).named inner member
  rw [empty] at isName
  exact isName.ne_nil rfl

theorem describe_reports (text separator : String) (number : Number) :
    Reports (describe text separator number) (TypeProse.describe text separator number) := by
  have reports := parse_reports text unnamedSource
  unfold describe TypeProse.describe
  cases read : TypeProse.parse text unnamedSource with
  | ok types =>
      rw [read] at reports
      generalize parse text unnamedSource = checked at reports
      cases reports
      simp only [bind, Except.bind, describeAll_eq (ne_empty_of_parse_eq read)]
      exact .value _
  | error fault =>
      rw [read] at reports
      generalize parse text unnamedSource = checked at reports
      cases reports with
      | refusal words => exact .refusal words

/-- A diagnostic shows the code of its fault. -/
theorem code_of_words {fault : Fault} {diagnostic : Diagnostic}
    (words : fault.diagnostic = .ok diagnostic) : diagnostic.code = some fault.code.label := by
  obtain ⟨wording, -, rfl⟩ := Command.map_eq_ok_iff.1 words
  rfl

/-- What is reported is the fault, under its code. -/
theorem Reports.code_eq {α : Type} {checked : Except Breach (Except Refusal α)}
    {result : Except Fault α} {refusal : Refusal} (reports : Reports checked result)
    (refused : checked = .ok (.error refusal)) :
    result = .error refusal.fault ∧ refusal.diagnostic.code = some refusal.fault.code.label := by
  cases reports with
  | value => cases refused
  | refusal words =>
      cases refused
      exact ⟨rfl, code_of_words words⟩

/-- No operation fails on the way from a text to its description. Cutting a text into tokens
gives them, or it reports the one fault of a character at which no token starts. Reading a text
gives at least one type, or it reports a fault under one of the codes that there are. All types
that are read and all types inside them could be made again and are described as one or as many,
and they have an outline; so a text is described, or its fault is reported. -/
theorem no_breach_is_reached (text source : String) :
    Reports (tokenize text source) (TypeProse.tokenize text source) ∧
    (∀ refusal, tokenize text source = .ok (.error refusal) →
      refusal.diagnostic.code = some "L001") ∧
    Reports (parse text source) (TypeProse.parse text source) ∧
    (∀ refusal, parse text source = .ok (.error refusal) →
      ∃ code ∈ FaultCode.all, refusal.diagnostic.code = some code.label) ∧
    (∀ types, TypeProse.parse text source = .ok types → types ≠ [] ∧
      (∀ type ∈ walkAll types, make type = .ok type ∧
        ∀ number, phrase type number = .ok (Prose.phrase type number)) ∧
      (∀ separator number, describeAll types separator number =
        .ok (Prose.describeAll types separator number)) ∧
      ∀ indent, outlineAll types indent ≠ []) ∧
    ∀ separator number,
      Reports (describe text separator number) (TypeProse.describe text separator number) := by
  refine ⟨tokenize_reports text source, ?_, parse_reports text source, ?_, ?_, ?_⟩
  · intro refusal refused
    obtain ⟨failed, code⟩ := (tokenize_reports text source).code_eq refused
    obtain ⟨_, _, _, _, invalid⟩ := tokenize_eq_error_iff.1 failed
    rw [code, invalid]
    rfl
  · intro refusal refused
    obtain ⟨-, code⟩ := (parse_reports text source).code_eq refused
    exact ⟨refusal.fault.code, by cases refusal.fault.code <;> decide, code⟩
  · intro types read
    have named := ne_empty_of_parse_eq read
    have filled := (wellFormed_of_parse_eq read).filled
    refine ⟨filled, ?_, describeAll_eq named, outlineAll_ne_nil filled⟩
    intro type member
    refine ⟨make_eq type (named type member), fun number => phrase_eq number type ?_⟩
    exact fun inner inside => named inner (walk_subset_walkAll types member inside)
  · exact describe_reports text

/-- A character outside ASCII where no token starts, and a collection that is described. -/
theorem no_breach_in_two_texts :
    (∃ refusal, tokenize "A\u00e9" "t" = .ok (.error refusal) ∧
      refusal.diagnostic.code = some "L001") ∧
    describeAll [.collection "A" [.simple "b"]] ", " .plural = .ok "an A of (b)" := by
  have failed : TypeProse.tokenize "A\u00e9" "t" =
      .error (.invalidCharacter "\u00e9" ⟨"t", 1, 2, 1⟩) := by
    decide +kernel
  have read : TypeProse.parse "A<b>" "t" = .ok [.collection "A" [.simple "b"]] := by
    decide +kernel
  constructor
  · obtain ⟨reports, coded, -⟩ := no_breach_is_reached "A\u00e9" "t"
    rw [failed] at reports
    generalize same : tokenize "A\u00e9" "t" = checked at reports
    cases reports
    exact ⟨_, rfl, coded _ same⟩
  · exact ((no_breach_is_reached "A<b>" "t").2.2.2.2.1 _ read).2.2.1 ", " .plural

end Texts

end TypeProse.Checked
