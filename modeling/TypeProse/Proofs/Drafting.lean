import TypeProse.Proofs.Scanning
import TypeProse.Reading

/-!
# Drafting step by step

`Draft.Moves` says all that a token can do to a draft when reading goes on, and
`Draft.Takes` follows the draft over several tokens. `Draft.Halts` says how reading
ends: where no token starts, at a token that is rejected, or at the end of the text.
Reading is described by the three together with `Scanner.Yields`.
-/

namespace TypeProse

/-- The bracket that a kind of token opens. -/
def TokenKind.opens? : TokenKind → Option Bracket
  | .openCollection => some .collection
  | .openFixed => some .fixed
  | .openHash => some .hashKeys
  | _ => none

/-- Every bracket is closed by a terminator. -/
theorem Bracket.isTerminator_closer (bracket : Bracket) : bracket.closer.isTerminator = true := by
  cases bracket <;> rfl

/-- The name of a collection that is opened behind a pending type, if one can be. -/
def Pending.head? (bracket : Bracket) : Pending → Option String
  | .empty => some bracket.defaultName
  | .name text => some text
  | .type _ => none

namespace Draft

/-- What a token does to a draft when reading goes on. -/
inductive Moves : Draft → Token → Draft → Prop where
  | name {draft : Draft} {token : Token} (kind : token.kind = .name)
      (free : draft.pending = .empty) :
      Moves draft token { draft with pending := .name token.lexeme }
  | separate {draft : Draft} {token : Token} {type : TypeExpr} (kind : token.kind = .separator)
      (pending : draft.pending.type? = some type) :
      Moves draft token ⟨draft.frames, type :: draft.finished, .empty⟩
  | enter {draft : Draft} {token : Token} {bracket : Bracket} {name : String}
      (kind : token.kind.opens? = some bracket) (head : draft.pending.head? bracket = some name)
      (room : draft.frames.length < nestingLimit) :
      Moves draft token ⟨⟨name, bracket, draft.finished⟩ :: draft.frames, [], .empty⟩
  | leave {draft : Draft} {token : Token} {frame : Frame} {frames : List Frame} {type : TypeExpr}
      (stack : draft.frames = frame :: frames) (kind : token.kind = frame.bracket.closer)
      (pending : draft.pending.type? = some type) :
      Moves draft token (leave frame frames (type :: draft.finished).reverse)

/-- A kind that opens a bracket makes the draft open it. -/
theorem step_of_opens {draft : Draft} {token : Token} {bracket : Bracket}
    (opens : token.kind.opens? = some bracket) :
    draft.step token = draft.openBracket bracket token := by
  cases kind : token.kind <;> simp [kind, TokenKind.opens?] at opens <;> simp [step, kind, opens]

/-- A terminator makes the draft end its innermost list. -/
theorem step_of_isTerminator {draft : Draft} {token : Token}
    (ends : token.kind.isTerminator = true) : draft.step token = draft.terminate token := by
  cases kind : token.kind <;> simp [kind, TokenKind.isTerminator] at ends <;> simp [step, kind]

/-- Where there is room, the list inside the bracket begins. -/
theorem enter_eq_reading_iff {draft next : Draft} {name : String} {bracket : Bracket}
    {token : Token} :
    draft.enter name bracket token = .reading next ↔
      draft.frames.length < nestingLimit ∧
        next = ⟨⟨name, bracket, draft.finished⟩ :: draft.frames, [], .empty⟩ := by
  unfold enter
  split
  · rename_i room
    simp [room, eq_comm]
  · rename_i full
    simp [full]

/-- A bracket is opened if the pending type can be its head and there is room for it. -/
theorem openBracket_eq_reading_iff {draft next : Draft} {bracket : Bracket} {token : Token} :
    draft.openBracket bracket token = .reading next ↔
      ∃ name, draft.pending.head? bracket = some name ∧ draft.frames.length < nestingLimit ∧
        next = ⟨⟨name, bracket, draft.finished⟩ :: draft.frames, [], .empty⟩ := by
  unfold openBracket
  split <;> rename_i pending <;> simp [pending, Pending.head?, enter_eq_reading_iff]

/-- A terminator lets reading go on only if it closes the innermost bracket. -/
theorem terminate_eq_reading_iff {draft next : Draft} {token : Token} :
    draft.terminate token = .reading next ↔
      ∃ frame frames type, draft.frames = frame :: frames ∧ token.kind = frame.bracket.closer ∧
        draft.pending.type? = some type ∧
        next = Draft.leave frame frames (type :: draft.finished).reverse := by
  unfold terminate closer
  split
  · rename_i absent
    simp [absent]
  · rename_i type pending
    cases stack : draft.frames with
    | nil => grind
    | cons frame frames => grind

/-- `Moves` says exactly when reading goes on, and with which draft. -/
theorem step_eq_reading_iff {draft next : Draft} {token : Token} (shown : token.kind ≠ .blank) :
    draft.step token = .reading next ↔ draft.Moves token next := by
  constructor
  · intro goesOn
    unfold step at goesOn
    split at goesOn <;> rename_i kind
    case h_1 =>
      unfold addName at goesOn
      split at goesOn
      · cases goesOn
      · rename_i free
        cases goesOn
        refine .name kind ?_
        cases pending : draft.pending <;> simp [pending, Pending.type?] at free ⊢
    case h_2 =>
      unfold separate at goesOn
      split at goesOn
      · cases goesOn
      · rename_i pending
        cases goesOn
        exact .separate kind pending
    case h_6 => exact absurd kind shown
    case h_3 | h_4 | h_5 =>
      obtain ⟨name, head, room, rfl⟩ := openBracket_eq_reading_iff.1 goesOn
      exact .enter (by rw [kind]; rfl) head room
    all_goals
      obtain ⟨frame, frames, type, stack, due, pending, rfl⟩ := terminate_eq_reading_iff.1 goesOn
      exact .leave stack due pending
  · intro moves
    cases moves with
    | name kind free => simp [step, kind, addName, free, Pending.type?]
    | separate kind pending => simp [step, kind, separate, pending]
    | enter kind head room =>
        rw [step_of_opens kind]
        exact openBracket_eq_reading_iff.2 ⟨_, head, room, rfl⟩
    | @leave frame _ _ stack kind pending =>
        rw [step_of_isTerminator (kind ▸ frame.bracket.isTerminator_closer)]
        exact terminate_eq_reading_iff.2 ⟨_, _, _, stack, kind, pending, rfl⟩

/-- Only the end of input completes a draft, where no bracket is open and a type is
pending. -/
theorem step_eq_complete_iff {draft : Draft} {token : Token} {types : List TypeExpr} :
    draft.step token = .complete types ↔
      token.kind = .endOfInput ∧ draft.frames = [] ∧
        ∃ type, draft.pending.type? = some type ∧ types = (type :: draft.finished).reverse := by
  constructor
  · intro completes
    cases opens : token.kind.opens? with
    | some bracket =>
        rw [step_of_opens opens] at completes
        grind [openBracket, enter]
    | none =>
        cases ends : token.kind.isTerminator with
        | true =>
            rw [step_of_isTerminator ends] at completes
            grind [terminate, closer]
        | false =>
            cases kind : token.kind <;>
              simp [kind, TokenKind.opens?, TokenKind.isTerminator] at opens ends <;>
              grind [step, addName, separate]
  · rintro ⟨last, stack, type, pending, rfl⟩
    rw [step_of_isTerminator (by rw [last]; rfl)]
    simp [terminate, closer, stack, pending, last]

/-- Why a draft rejects a token. -/
inductive Rejects : Draft → Token → Fault → Prop where
  | named {draft : Draft} {token : Token} {type : TypeExpr} (kind : token.kind = .name)
      (pending : draft.pending.type? = some type) :
      Rejects draft token (.duplicateName type.name token)
  | missing {draft : Draft} {token : Token}
      (kind : token.kind = .separator ∨ token.kind.isTerminator = true)
      (pending : draft.pending.type? = none) : Rejects draft token (.missingName token)
  | suffixed {draft : Draft} {token : Token} {bracket : Bracket} {type : TypeExpr}
      (kind : token.kind.opens? = some bracket) (pending : draft.pending = .type type) :
      Rejects draft token (.duplicateSuffix type.name token)
  | full {draft : Draft} {token : Token} {bracket : Bracket} {name : String}
      (kind : token.kind.opens? = some bracket) (head : draft.pending.head? bracket = some name)
      (full : nestingLimit ≤ draft.frames.length) : Rejects draft token (.tooDeep token.location)
  | mismatched {draft : Draft} {token : Token} {type : TypeExpr}
      (kind : token.kind.isTerminator = true) (pending : draft.pending.type? = some type)
      (due : token.kind ≠ draft.closer) (more : token.kind ≠ .endOfInput) :
      Rejects draft token (.mismatched [draft.closer] token)
  | unclosed {draft : Draft} {token : Token} {type : TypeExpr}
      (pending : draft.pending.type? = some type) (due : token.kind ≠ draft.closer)
      (last : token.kind = .endOfInput) : Rejects draft token (.unclosed [draft.closer] token)

/-- A bracket is rejected behind a collection, and where there is no room for it. -/
theorem openBracket_rejects {draft : Draft} {bracket : Bracket} {token : Token} {fault : Fault}
    (kind : token.kind.opens? = some bracket)
    (rejects : draft.openBracket bracket token = .rejected fault) : draft.Rejects token fault := by
  unfold openBracket enter at rejects
  split at rejects
  case h_3 type pending =>
    cases rejects
    exact .suffixed kind pending
  all_goals
    rename_i pending
    split at rejects
    · cases rejects
    · rename_i full
      cases rejects
      exact .full kind (by rw [pending]; rfl) (by omega)

/-- A terminator is rejected without a type before it, and where another one is due. -/
theorem terminate_rejects {draft : Draft} {token : Token} {fault : Fault}
    (kind : token.kind.isTerminator = true) (rejects : draft.terminate token = .rejected fault) :
    draft.Rejects token fault := by
  unfold terminate at rejects
  split at rejects
  · rename_i absent
    cases rejects
    exact .missing (.inr kind) absent
  · rename_i type pending
    split at rejects
    · split at rejects <;> cases rejects
    · rename_i due
      split at rejects
      · rename_i last
        cases rejects
        exact .unclosed pending due last
      · rename_i more
        cases rejects
        exact .mismatched kind pending due more

/-- `Rejects` says exactly when a token is rejected, and with which fault. -/
theorem step_eq_rejected_iff {draft : Draft} {token : Token} {fault : Fault} :
    draft.step token = .rejected fault ↔ draft.Rejects token fault := by
  constructor
  · intro rejects
    unfold step at rejects
    split at rejects <;> rename_i kind
    case h_1 =>
      unfold addName at rejects
      split at rejects
      · rename_i pending
        cases rejects
        exact .named kind pending
      · cases rejects
    case h_2 =>
      unfold separate at rejects
      split at rejects
      · rename_i absent
        cases rejects
        exact .missing (.inl kind) absent
      · cases rejects
    case h_6 => cases rejects
    case h_3 | h_4 | h_5 => exact openBracket_rejects (by rw [kind]; rfl) rejects
    all_goals exact terminate_rejects (by rw [kind]; rfl) rejects
  · intro rejects
    cases rejects with
    | named kind pending => simp [step, kind, addName, pending]
    | missing kind pending =>
        rcases kind with kind | kind
        · simp [step, kind, separate, pending]
        · simp [step_of_isTerminator kind, terminate, pending]
    | suffixed kind pending => simp [step_of_opens kind, openBracket, pending]
    | full kind head full =>
        rw [step_of_opens kind]
        cases pending : draft.pending <;> simp [pending, Pending.head?] at head <;>
          simp [openBracket, pending, enter, Nat.not_lt.2 full]
    | mismatched kind pending due more =>
        simp [step_of_isTerminator kind, terminate, pending, due, more]
    | unclosed pending due last =>
        have kind : token.kind.isTerminator = true := by rw [last]; rfl
        rw [last] at due
        simp [step_of_isTerminator kind, terminate, pending, due, last]

/-- Zero or more tokens with which reading goes on. -/
inductive Takes : Draft → List Token → Draft → Prop where
  | none (draft : Draft) : Takes draft [] draft
  | token {draft next after : Draft} {token : Token} {tokens : List Token}
      (move : draft.Moves token next) (behind : Takes next tokens after) :
      Takes draft (token :: tokens) after

/-- Two stretches of tokens that meet at a draft make up one. -/
theorem Takes.trans {draft middle after : Draft} {front back : List Token}
    (first : draft.Takes front middle) (second : middle.Takes back after) :
    draft.Takes (front ++ back) after := by
  induction first with
  | none => exact second
  | token move _ ih => exact .token move (ih second)

/-- One token with which reading goes on. -/
theorem Moves.takes {draft next : Draft} {token : Token} (move : draft.Moves token next) :
    draft.Takes [token] next :=
  .token move (.none next)

/-- How reading ends: where no token starts, at a token that is rejected, or at the end of
the text with a type pending and no bracket open. -/
inductive Halts : Draft → Scanner → Except Fault (List TypeExpr) → Prop where
  | stuck {draft : Draft} {scanner : Scanner} (stuck : lexemeAt? scanner.rest = none) :
      Halts draft scanner
        (.error (.invalidCharacter (String.ofList (scanner.rest.take 1)) scanner.location))
  | rejected {draft : Draft} {source : String} {cursor : Cursor} {kind : TokenKind}
      {lexeme rest : List Char} {fault : Fault} (shown : kind ≠ .blank)
      (found : kind.lexeme? (lexeme ++ rest) = some lexeme)
      (rejects : draft.Rejects
        ⟨kind, String.ofList lexeme, ⟨source, cursor.line, cursor.column, cursor.offset⟩⟩ fault) :
      Halts draft ⟨source, cursor, lexeme ++ rest⟩ (.error fault)
  | complete {draft : Draft} {source : String} {cursor : Cursor} {type : TypeExpr}
      (closed : draft.frames = []) (pending : draft.pending.type? = some type) :
      Halts draft ⟨source, cursor, []⟩ (.ok (type :: draft.finished).reverse)

/-- Reading depends on the scanner only by its next token. -/
theorem read_congr {scanner scanner' : Scanner} (same : scanner.next = scanner'.next)
    (draft : Draft) : draft.read scanner = draft.read scanner' := by
  rcases next : scanner'.next with ⟨fault | token, after⟩
  · rw [read_of_error (same.trans next), read_of_error next]
  · rw [next] at same
    cases progress : draft.step token with
    | rejected fault => rw [read_of_rejected same progress, read_of_rejected next progress]
    | complete types => rw [read_of_complete same progress, read_of_complete next progress]
    | reading following => rw [read_of_reading same progress, read_of_reading next progress]

/-- Where reading ends, it ends with that result. -/
theorem Halts.result_eq {draft : Draft} {scanner : Scanner}
    {result : Except Fault (List TypeExpr)} (halts : draft.Halts scanner result) :
    (draft.read scanner).result = result := by
  cases halts with
  | stuck stuck => rw [read_of_error (Scanner.next_stuck stuck)]
  | rejected shown found rejects =>
      rw [read_of_rejected (Scanner.next_lexeme found shown) (step_eq_rejected_iff.2 rejects)]
  | complete closed pending =>
      rw [read_of_complete (Scanner.next_end _ _)
        (step_eq_complete_iff.2 ⟨rfl, closed, _, pending, rfl⟩)]

/-- Reading goes on behind the tokens that are taken. -/
theorem Takes.result_eq {draft next : Draft} {scanner after : Scanner} {tokens : List Token}
    (takes : draft.Takes tokens next) (yields : scanner.Yields tokens after) :
    (draft.read scanner).result = (next.read after).result := by
  induction yields generalizing draft with
  | here =>
      cases takes
      rfl
  | blank blank _ ih => rw [read_congr (Scanner.next_blank blank _), ih takes]
  | token found shown _ _ ih =>
      cases takes with
      | token move behind =>
          rw [read_of_reading (Scanner.next_lexeme found shown)
            ((step_eq_reading_iff shown).2 move)]
          exact ih behind

/-- Reading comes to an end: the scanner hands out tokens that the draft takes, up to a
place where reading ends. -/
theorem exists_halts (draft : Draft) (scanner : Scanner) :
    ∃ tokens next here result, scanner.Yields tokens here ∧ draft.Takes tokens next ∧
      next.Halts here result := by
  obtain ⟨size, bound⟩ : ∃ size, scanner.rest.length < size := ⟨_, Nat.lt_succ_self _⟩
  induction size generalizing draft scanner with
  | zero => exact absurd bound (Nat.not_lt_zero _)
  | succ size ih =>
      rcases scanner.next_cases with
        ⟨cursor, kind, lexeme, rest, shown, found, passes⟩ | ⟨cursor, rest, stuck, passes⟩
      · cases progress : draft.step ⟨kind, String.ofList lexeme,
            ⟨scanner.source, cursor.line, cursor.column, cursor.offset⟩⟩ with
        | rejected fault =>
            have rejects := step_eq_rejected_iff.1 progress
            exact ⟨[], draft, _, _, passes, .none draft, .rejected shown found rejects⟩
        | complete types =>
            obtain ⟨rfl, closed, type, pending, rfl⟩ := step_eq_complete_iff.1 progress
            obtain ⟨rfl, rfl⟩ : lexeme = [] ∧ rest = [] :=
              List.append_eq_nil_iff.1 (chars_eq_nil_of_endOfInput found)
            exact ⟨[], draft, _, _, passes, .none draft, .complete closed pending⟩
        | reading next =>
            have more : kind ≠ .endOfInput := kind_ne_endOfInput_of_reading progress
            have one := passes.trans (Scanner.Yields.token found shown more (.here _))
            have shorter := one.length_le
            obtain ⟨tokens, final, here, result, yields, takes, halts⟩ :=
              ih next ⟨scanner.source, cursor.past lexeme, rest⟩ (by simp at shorter ⊢; omega)
            have move := (step_eq_reading_iff shown).1 progress
            exact ⟨_, final, here, result, one.trans yields, .token move takes, halts⟩
      · exact ⟨[], draft, _, _, passes, .none draft, .stuck stuck⟩

/-- Reading has a result exactly when it ends with it behind the tokens that are taken. -/
theorem result_eq_iff {draft : Draft} {scanner : Scanner}
    {result : Except Fault (List TypeExpr)} :
    (draft.read scanner).result = result ↔
      ∃ tokens next here, scanner.Yields tokens here ∧ draft.Takes tokens next ∧
        next.Halts here result := by
  constructor
  · rintro rfl
    obtain ⟨tokens, next, here, result, yields, takes, halts⟩ := draft.exists_halts scanner
    rw [takes.result_eq yields, halts.result_eq]
    exact ⟨tokens, next, here, yields, takes, halts⟩
  · rintro ⟨tokens, next, here, yields, takes, halts⟩
    rw [takes.result_eq yields, halts.result_eq]

end Draft

end TypeProse
