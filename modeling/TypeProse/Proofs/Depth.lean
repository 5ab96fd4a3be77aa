import TypeProse.Proofs.Joining
import TypeProse.Proofs.Lookback

/-!
# How deep brackets may be nested

A draft has room for a fixed number of open brackets, and a `Lookback` for any number of
them. So the two differ only on a text that overflows: some front part of its tokens is
without a fault and leaves more brackets open than a draft has room for. Such a text is
refused at the bracket that is one too many, whatever comes behind it, and every other text
comes to the end to which a `Lookback` comes.
-/

namespace TypeProse

namespace Lookback

/-- Look at several tokens, up to the first that is rejected. -/
def past (lookback : Lookback) (tokens : List Token) : Except Fault Lookback :=
  tokens.foldlM step lookback

@[simp] theorem past_nil (lookback : Lookback) : lookback.past [] = .ok lookback :=
  rfl

/-- Several tokens are without a fault if the first is and the others behind it are. -/
theorem past_cons_eq_ok_iff {lookback behind : Lookback} {token : Token} {tokens : List Token} :
    lookback.past (token :: tokens) = .ok behind ↔
      ∃ middle, lookback.step token = .ok middle ∧ middle.past tokens = .ok behind := by
  rw [past, List.foldlM_cons]
  cases lookback.step token with
  | error fault => simp [bind, Except.bind]
  | ok middle => simp [bind, Except.bind, past]

/-- Tokens are looked at one after the other. -/
theorem past_append {lookback middle : Lookback} {front : List Token}
    (passed : lookback.past front = .ok middle) (back : List Token) :
    lookback.past (front ++ back) = middle.past back := by
  rw [past, List.foldlM_append, ← past, passed]
  rfl

section Mirroring

variable {lookback behind : Lookback} {draft next : Draft} {tokens : List Token} {token : Token}

/-- What the draft takes is without a fault. -/
theorem Mirrors.past_of_takes (mirrors : lookback.Mirrors draft) (takes : draft.Takes tokens next) :
    ∃ behind : Lookback, lookback.past tokens = .ok behind ∧ behind.Mirrors next := by
  induction takes generalizing lookback with
  | none => exact ⟨lookback, rfl, mirrors⟩
  | @token _ _ _ first others move _ ih =>
      obtain ⟨goesOn, mirrors'⟩ := mirrors.step_of_moves move
      obtain ⟨behind, passed, mirrors''⟩ := ih mirrors'
      exact ⟨behind, past_cons_eq_ok_iff.2 ⟨_, goesOn, passed⟩, mirrors''⟩

/-- A bracket for which the draft has no room is without a fault. -/
theorem Mirrors.step_of_full {bracket : Bracket} {name : String} (mirrors : lookback.Mirrors draft)
    (opens : token.kind.opens? = some bracket)
    (head : draft.pending.head? bracket = some name) :
    lookback.step token = .ok (lookback.take token) := by
  rw [step, mirrors.pending.verdict_of_opens _ opens, head]
  rfl

/-- A token without a fault is taken by the draft, unless the draft has no room for it. -/
theorem Mirrors.moves_of_step (mirrors : lookback.Mirrors draft)
    (passed : lookback.step token = .ok behind) (shown : token.kind ≠ .blank)
    (more : token.kind ≠ .endOfInput) :
    (∃ next, draft.Moves token next ∧ behind.Mirrors next) ∨
      draft.Rejects token (.tooDeep token.location) := by
  cases progress : draft.step token with
  | reading next =>
      have move := (Draft.step_eq_reading_iff shown).1 progress
      obtain ⟨goesOn, mirrors'⟩ := mirrors.step_of_moves move
      cases goesOn.symm.trans passed
      exact .inl ⟨next, move, mirrors'⟩
  | complete types => exact absurd (Draft.step_eq_complete_iff.1 progress).1 more
  | rejected fault =>
      have rejects := Draft.step_eq_rejected_iff.1 progress
      by_cases full : fault = .tooDeep token.location
      · exact .inr (full ▸ rejects)
      · cases (mirrors.step_of_rejects rejects full).symm.trans passed

/-- Tokens without a fault are taken by the draft, unless reading comes to a bracket for which
there is no room. -/
theorem Mirrors.takes_of_past {scanner after : Scanner} (mirrors : lookback.Mirrors draft)
    (yields : scanner.Yields tokens after) (passed : lookback.past tokens = .ok behind) :
    (∃ next, draft.Takes tokens next ∧ behind.Mirrors next) ∨
      ∃ location, (draft.read scanner).result = .error (.tooDeep location) := by
  induction yields generalizing lookback draft with
  | here =>
      cases passed
      exact .inl ⟨draft, .none draft, mirrors⟩
  | blank blank _ ih =>
      rw [Draft.read_congr (Scanner.next_blank blank _)]
      exact ih mirrors passed
  | token found shown more _ ih =>
      obtain ⟨middle, goesOn, passed⟩ := past_cons_eq_ok_iff.1 passed
      rcases mirrors.moves_of_step goesOn shown more with ⟨next, move, mirrors'⟩ | full
      · rw [Draft.read_of_reading (Scanner.next_lexeme found shown)
          ((Draft.step_eq_reading_iff shown).2 move)]
        rcases ih mirrors' passed with ⟨last, takes, mirrors''⟩ | deep
        · exact .inl ⟨last, .token move takes, mirrors''⟩
        · exact .inr deep
      · rw [Draft.read_of_rejected (Scanner.next_lexeme found shown)
          (Draft.step_eq_rejected_iff.2 full)]
        exact .inr ⟨_, rfl⟩

end Mirroring

/-- Before any token nothing is kept, and the draft is empty. -/
theorem mirrors_empty : Lookback.start.Mirrors Draft.empty :=
  ⟨rfl, .empty rfl⟩

end Lookback

/-- Some front part of the tokens of a text is without a fault and leaves more than `limit`
brackets open. -/
def Scanner.Overflows (limit : Nat) (scanner : Scanner) : Prop :=
  ∃ tokens after lookback, scanner.Yields tokens after ∧
    Lookback.start.past tokens = .ok lookback ∧ limit < openBrackets tokens

/-- A text that keeps within a limit does not overflow. -/
theorem Scanner.NestsWithin.not_overflows {limit : Nat} {scanner : Scanner}
    (nested : scanner.NestsWithin limit) : ¬ scanner.Overflows limit := by
  rintro ⟨tokens, after, _, yields, _, deep⟩
  have few := nested tokens after yields
  omega

/-- A text is refused because it is nested too deeply exactly when it overflows. -/
theorem parse_eq_tooDeep_iff {text source : String} :
    (∃ location, parse text source = .error (.tooDeep location)) ↔
      (Scanner.start text source).Overflows Draft.nestingLimit := by
  constructor
  · rintro ⟨location, deep⟩
    obtain ⟨tokens, draft, here, yields, takes, halts⟩ := Draft.result_eq_iff.1 deep
    obtain ⟨lookback, passed, mirrors⟩ := Lookback.mirrors_empty.past_of_takes takes
    cases halts with
    | @rejected _ _ kind _ _ _ shown found rejects =>
        cases rejects with
        | full opens head full =>
            have more : kind ≠ .endOfInput := by
              rintro rfl
              cases opens
            have passed' := (Lookback.past_append passed [_]).trans
              (Lookback.past_cons_eq_ok_iff.2 ⟨_, mirrors.step_of_full opens head, rfl⟩)
            refine ⟨_, _, _, yields.trans (.token found shown more (.here _)), passed', ?_⟩
            have frames := takes.length_frames
            simp only [Draft.empty, List.length_nil] at frames
            simp only [openBrackets_append, openBrackets_cons, openBrackets_nil,
              TokenKind.nesting_of_opens opens]
            omega
  · rintro ⟨tokens, after, lookback, yields, passed, deep⟩
    rcases Lookback.mirrors_empty.takes_of_past yields passed with ⟨draft, takes, -⟩ | full
    · have frames := takes.length_frames
      have room := takes.length_frames_le (Nat.zero_le _)
      simp only [Draft.empty, List.length_nil] at frames
      omega
    · exact full

/-- An opening bracket is a mark of one character. -/
theorem mem_marks_of_opens {kind : TokenKind} {bracket : Bracket} {chars lexeme : List Char}
    (opens : kind.opens? = some bracket) (found : kind.lexeme? chars = some lexeme) :
    (kind, lexeme) ∈ marks ∧ lexeme.length = 1 := by
  have single : ∀ pair ∈ marks, pair.1.opens?.isSome = true → pair.2.length = 1 := by decide
  have mark : (kind, lexeme) ∈ marks := by
    refine mem_marks_of_lexeme? found ?_ ?_ ?_ <;> rintro rfl <;> cases opens
  exact ⟨mark, single _ mark (by rw [opens]; rfl)⟩

/-- What comes behind the bracket that is one too many is not looked at. -/
theorem parse_append_of_tooDeep {text source : String} {location : Location}
    (deep : parse text source = .error (.tooDeep location)) :
    ∃ front back, text = front ++ back ∧ location.offset + 1 = front.length ∧
      ∀ more, parse (front ++ more) source = .error (.tooDeep location) := by
  obtain ⟨front, back, draft, whole, reads, halts⟩ := exists_readsTo deep
  have place : location.offset = front.length := halts.offset_eq
  cases halts with
  | @rejected _ _ kind lexeme rest _ shown found rejects =>
      cases rejects with
      | full opens head full =>
          obtain ⟨mark, single⟩ := mem_marks_of_opens opens found
          have text' : ∀ more, String.ofList (front ++ lexeme) ++ more =
              String.ofList (front ++ (lexeme ++ more.toList)) := by
            intro more
            rw [← String.toList_inj]
            simp
          refine ⟨String.ofList (front ++ lexeme), String.ofList rest, ?_, ?_, fun more => ?_⟩
          · rw [text', String.toList_ofList, ← whole, String.ofList_toList]
          · rw [place, String.length_ofList, List.length_append, single]
            rfl
          · have reads' := reads.exchange (keepsNames_mark mark (lexeme ++ rest) more.toList)
            have halts' : draft.Halts ⟨source, Cursor.start.past front, lexeme ++ more.toList⟩
                (.error (.tooDeep _)) :=
              .rejected shown (lexeme?_of_mem_marks mark more.toList) (.full opens head full)
            rw [text', reads'.parse_eq, halts'.result_eq]

/-- A text is refused because it is nested too deeply exactly when some front part of its
tokens, without a fault, has more brackets open at once than the limit. The limit is one
number for all texts. What comes behind the bracket that is one too many does not matter. A
text that does not overflow comes to the end to which looking at its tokens comes, where
brackets are not counted, so that no fault is replaced that comes earlier. And a text that
keeps within the limit is never refused for its depth, however many brackets it opens one
after the other. -/
theorem nesting_is_refused_by_depth :
    100 ≤ Draft.nestingLimit ∧ Draft.nestingLimit ≤ 4999 ∧
    ∀ text source,
      ((∃ location, parse text source = .error (.tooDeep location)) ↔
        (Scanner.start text source).Overflows Draft.nestingLimit) ∧
      (∀ location, parse text source = .error (.tooDeep location) →
        ∃ front back, text = front ++ back ∧ location.offset + 1 = front.length ∧
          ∀ more, parse (front ++ more) source = .error (.tooDeep location)) ∧
      (¬ (Scanner.start text source).Overflows Draft.nestingLimit →
        (parse text source).map (fun _ => ()) = Lookback.start.run (.start text source)) ∧
      ((Scanner.start text source).NestsWithin Draft.nestingLimit →
        ∀ location, parse text source ≠ .error (.tooDeep location)) := by
  refine ⟨by decide, by decide, fun text source => ⟨parse_eq_tooDeep_iff, ?_, ?_, ?_⟩⟩
  · exact fun location => parse_append_of_tooDeep
  · intro within
    obtain ⟨tokens, draft, here, yields, takes, halts⟩ :=
      Draft.result_eq_iff.1 (rfl : parse text source = _)
    obtain ⟨behind, mirrors, run⟩ := Lookback.mirrors_empty.run_of_takes takes yields
    rw [run, mirrors.run_of_halts halts]
    exact fun location deep => within (parse_eq_tooDeep_iff.1 ⟨location, deep⟩)
  · exact fun nested location deep => nested.not_overflows (parse_eq_tooDeep_iff.1 ⟨_, deep⟩)

/-- Opening brackets alone are without a fault, as many as there are. -/
theorem Lookback.past_openings {lookback : Lookback}
    (ready : closedCollection lookback.previous = false) (source : String) (cursor : Cursor)
    (count : Nat) (more : List Char) :
    ∃ tokens after behind,
      Scanner.Yields ⟨source, cursor, List.replicate count '<' ++ more⟩ tokens after ∧
        lookback.past tokens = .ok behind ∧ openBrackets tokens = count := by
  induction count generalizing lookback cursor with
  | zero => exact ⟨[], _, lookback, .here _, rfl, rfl⟩
  | succ count ih =>
      have mark : (TokenKind.openCollection, ['<']) ∈ marks := by decide
      obtain ⟨token, kind, one⟩ :=
        Scanner.Yields.of_mark source cursor mark (List.replicate count '<' ++ more)
      have goesOn : lookback.step token = .ok (lookback.take token) := by
        simp [step, kind, verdict, ready]
      have ready' : closedCollection (lookback.take token).previous = false := by
        simp only [take, kind]
        rfl
      obtain ⟨tokens, after, behind, yields, passed, opened⟩ := ih ready' (cursor.past ['<'])
      refine ⟨token :: tokens, after, behind, one.trans yields, ?_, ?_⟩
      · exact past_cons_eq_ok_iff.2 ⟨_, goesOn, passed⟩
      · rw [openBrackets_cons, opened, kind, TokenKind.nesting]
        omega

/-- One bracket more than there is room for, before a character at which no token starts. -/
theorem too_many_brackets_before_colon :
    ∃ location, parse (String.ofList (List.replicate (Draft.nestingLimit + 1) '<' ++ [':', ')']))
      unnamedSource = .error (.tooDeep location) := by
  refine (nesting_is_refused_by_depth.2.2 _ _).1.2 ?_
  rw [Scanner.start, String.toList_ofList]
  have ready : closedCollection Lookback.start.previous = false := rfl
  obtain ⟨tokens, after, behind, yields, passed, opened⟩ :=
    Lookback.past_openings ready unnamedSource .start (Draft.nestingLimit + 1) [':', ')']
  refine ⟨tokens, after, behind, yields, passed, ?_⟩
  rw [opened]
  omega

end TypeProse
