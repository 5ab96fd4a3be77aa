import Mathlib.Control.Monad.Basic
import TypeProse.Proofs.Nesting

/-!
# Reading accepts the grammar

A draft always spells the tokens that it has taken: the open brackets with what
stands before them, the finished types with their separators, and the pending type
are derived from consecutive parts of these tokens. So a list of types that is read
is derived from its tokens. Conversely a draft takes the tokens of every list of types
that is derived, as long as there is room for its brackets. Together they say that a
text is read exactly when its tokens form a list of types, and that what is read is
the list that is derived.
-/

namespace TypeProse

/-- Finished types, latest first, each of which has a separator behind it. -/
inductive AreFinished : List Token → List TypeExpr → Prop where
  | none : AreFinished [] []
  | next {front tokens : List Token} {separator : Token} {types : List TypeExpr} {type : TypeExpr}
      (before : AreFinished front types) (spec : IsTypeSpec tokens type)
      (separates : separator.kind = .separator) :
      AreFinished (front ++ (tokens ++ [separator])) (type :: types)

/-- A list of types behind finished types makes up a list with them. -/
theorem AreFinished.isTypeList {front tokens : List Token} {types types' : List TypeExpr}
    (before : AreFinished front types) (list : IsTypeList tokens types') :
    IsTypeList (front ++ tokens) (types.reverse ++ types') := by
  induction before generalizing tokens types' with
  | none => exact list
  | next _ spec separates ih => simpa using ih (.next spec separates list)

/-- The tokens of a pending type. -/
inductive Pending.Spells : Pending → List Token → Prop where
  | empty : Spells .empty []
  | name {token : Token} (names : token.kind = .name) : Spells (.name token.lexeme) [token]
  | type {tokens : List Token} {whole : TypeExpr} (spec : IsTypeSpec tokens whole) :
      Spells (.type whole) tokens

namespace Pending.Spells

/-- What is pending is derived from its tokens as it stands. -/
theorem isTypeSpec {pending : Pending} {tokens : List Token} {type : TypeExpr}
    (spells : pending.Spells tokens) (whole : pending.type? = some type) :
    IsTypeSpec tokens type := by
  cases spells with
  | empty => cases whole
  | name names =>
      cases whole
      exact .name names
  | type spec =>
      cases whole
      exact spec

/-- A suffix goes on with a pending type that can be its head. -/
theorem isTypeSpec_append {pending : Pending} {tokens tokens' : List Token} {name : String}
    {suffix : Suffix} (spells : pending.Spells tokens) (body : IsSuffix tokens' suffix)
    (head : pending.head? suffix.bracket = some name) :
    IsTypeSpec (tokens ++ tokens') (suffix.named name) := by
  cases spells with
  | empty =>
      cases head
      exact .unnamed body
  | name names =>
      cases head
      exact .named names body
  | type spec => cases head

end Pending.Spells

/-- The tokens from the name of a collection to behind its bracket: whatever list is
derived from what follows them, the closer makes it a collection of that name. Behind
the bracket of a hash, its keys and an arrow lead to its values. -/
def Frame.Opens (frame : Frame) (tokens : List Token) : Prop :=
  match frame.bracket with
  | .collection => ∀ {inside types closer}, IsTypeList inside types →
      closer.kind = .closeCollection →
      IsTypeSpec (tokens ++ (inside ++ [closer])) (.collection frame.name types)
  | .fixed => ∀ {inside types closer}, IsTypeList inside types → closer.kind = .closeFixed →
      IsTypeSpec (tokens ++ (inside ++ [closer])) (.fixedCollection frame.name types)
  | .hashKeys => ∀ {first keys arrow second values closer}, IsTypeList first keys →
      arrow.kind = .arrow → IsTypeList second values → closer.kind = .closeHash →
      IsTypeSpec (tokens ++ (first ++ arrow :: (second ++ [closer])))
        (.hashCollection frame.name keys values)
  | .hashValues keys => ∀ {inside values closer}, IsTypeList inside values →
      closer.kind = .closeHash →
      IsTypeSpec (tokens ++ (inside ++ [closer])) (.hashCollection frame.name keys values)

/-- The tokens of open brackets, innermost first, with the types finished before each. -/
inductive AreOpen : List Frame → List Token → Prop where
  | none : AreOpen [] []
  | frame {frame : Frame} {frames : List Frame} {outer before tokens : List Token}
      (around : AreOpen frames outer) (finished : AreFinished before frame.before)
      (opens : frame.Opens tokens) : AreOpen (frame :: frames) (outer ++ (before ++ tokens))

/-- The tokens of a draft: those of its open brackets, of its finished types and of the
pending one. -/
def Draft.Spells (draft : Draft) (tokens : List Token) : Prop :=
  ∃ outer before last, tokens = outer ++ (before ++ last) ∧ AreOpen draft.frames outer ∧
    AreFinished before draft.finished ∧ draft.pending.Spells last

/-- A bracket opens behind a pending type that can be its head. -/
theorem Frame.opens_of_head {pending : Pending} {last : List Token} {token : Token}
    {bracket : Bracket} {name : String} (spells : pending.Spells last)
    (opens : token.kind.opens? = some bracket) (head : pending.head? bracket = some name)
    (before : List TypeExpr) : Frame.Opens ⟨name, bracket, before⟩ (last ++ [token]) := by
  cases kind : token.kind <;> rw [kind] at opens <;> cases opens
  · intro inside types closer list closes
    simpa [Suffix.named] using spells.isTypeSpec_append (.collection kind list closes) head
  · intro inside types closer list closes
    simpa [Suffix.named] using spells.isTypeSpec_append (.fixed kind list closes) head
  · intro first keys arrow second values closer keyList points valueList closes
    have body := IsSuffix.hash kind keyList points valueList closes
    simpa [Suffix.named] using spells.isTypeSpec_append body head

/-- Behind the list inside a bracket, the draft spells what it spelled before with the list
and its closer. -/
theorem Draft.spells_leave {frame : Frame} {frames : List Frame} {tokens inside : List Token}
    {types : List TypeExpr} {closer : Token} (isOpen : AreOpen (frame :: frames) tokens)
    (list : IsTypeList inside types) (closes : closer.kind = frame.bracket.closer) :
    (Draft.leave frame frames types).Spells (tokens ++ (inside ++ [closer])) := by
  cases isOpen with
  | @frame _ _ outer before tokens around finished opens =>
      have regrouped : ∀ last : List Token,
          outer ++ (before ++ tokens) ++ last = outer ++ (before ++ (tokens ++ last)) := by
        simp
      obtain ⟨name, bracket, finishedBefore⟩ := frame
      cases bracket with
      | collection | fixed | hashValues =>
          exact ⟨outer, before, _, regrouped _, around, finished, .type (opens list closes)⟩
      | hashKeys =>
          have values : Frame.Opens ⟨name, .hashValues types, finishedBefore⟩
              (tokens ++ (inside ++ [closer])) := by
            intro second values last valueList closed
            simpa using opens list closes valueList closed
          exact ⟨outer ++ (before ++ (tokens ++ (inside ++ [closer]))), [], [], by simp,
            .frame around finished values, .none, .empty⟩

/-- A draft that spells its tokens spells them after each move. -/
theorem Draft.Moves.spells {draft next : Draft} {token : Token} {tokens : List Token}
    (move : draft.Moves token next) (spells : draft.Spells tokens) :
    next.Spells (tokens ++ [token]) := by
  obtain ⟨outer, before, last, rfl, around, finished, pending⟩ := spells
  cases move with
  | name kind free =>
      rw [free] at pending
      cases pending
      exact ⟨outer, before, [token], by simp, around, finished, .name kind⟩
  | separate kind whole =>
      exact ⟨outer, before ++ (last ++ [token]), [], by simp, around,
        .next finished (pending.isTypeSpec whole) kind, .empty⟩
  | enter kind head room =>
      exact ⟨outer ++ (before ++ (last ++ [token])), [], [], by simp,
        .frame around finished (Frame.opens_of_head pending kind head _), .none, .empty⟩
  | leave stack kind whole =>
      rw [stack] at around
      have list := finished.isTypeList (.last (pending.isTypeSpec whole))
      simpa using Draft.spells_leave around list kind

/-- A draft spells the tokens that it has taken. -/
theorem Draft.Takes.spells {draft next : Draft} {tokens before : List Token}
    (takes : draft.Takes tokens next) (spells : draft.Spells before) :
    next.Spells (before ++ tokens) := by
  induction takes generalizing before with
  | none => simpa using spells
  | token move _ ih => simpa using ih (move.spells spells)

/-- The list of types of a draft without open brackets is derived from its tokens. -/
theorem Draft.Spells.isTypeList {draft : Draft} {tokens : List Token} {type : TypeExpr}
    (spells : draft.Spells tokens) (closed : draft.frames = [])
    (whole : draft.pending.type? = some type) :
    IsTypeList tokens (type :: draft.finished).reverse := by
  obtain ⟨outer, before, last, rfl, around, finished, pending⟩ := spells
  rw [closed] at around
  cases around
  simpa using finished.isTypeList (.last (pending.isTypeSpec whole))

open TypeExpr

namespace Draft

/-- A draft takes tokens as a list of types: its brackets remain, and behind the types that
were finished come those of the list, of which the last is pending. -/
def TakesList (draft : Draft) (tokens : List Token) (types : List TypeExpr) : Prop :=
  ∃ next type, draft.Takes tokens next ∧ next.frames = draft.frames ∧
    next.pending.type? = some type ∧
    (type :: next.finished).reverse = draft.finished.reverse ++ types

/-- Behind a list of types in a bracket the draft takes the closer. -/
theorem TakesList.leave {frame : Frame} {frames : List Frame} {inside : List Token}
    {types : List TypeExpr} {closer : Token}
    (list : TakesList ⟨frame :: frames, [], .empty⟩ inside types)
    (closes : closer.kind = frame.bracket.closer) :
    Takes ⟨frame :: frames, [], .empty⟩ (inside ++ [closer]) (Draft.leave frame frames types) := by
  obtain ⟨next, type, takes, stack, whole, listed⟩ := list
  have move : next.Moves closer (Draft.leave frame frames types) := by
    rw [show types = (type :: next.finished).reverse by simpa using listed.symm]
    exact .leave stack closes whole
  exact takes.trans move.takes

end Draft

mutual

/-- A draft takes the tokens of a list of types if there is room for its brackets. -/
theorem IsTypeList.takes {tokens : List Token} {types : List TypeExpr} (draft : Draft) :
    IsTypeList tokens types → draft.pending = .empty →
      depthAll types + draft.frames.length ≤ Draft.nestingLimit → draft.TakesList tokens types
  | .last spec, free, room => by
      obtain ⟨pending, whole, takes⟩ := spec.takes free (by simpa [depthAll] using room)
      exact ⟨_, _, takes, rfl, whole, by simp⟩
  | @IsTypeList.next _ _ separator type types spec separates rest, free, room => by
      simp only [depthAll] at room
      obtain ⟨pending, whole, takes⟩ := spec.takes free (by omega)
      have move : Draft.Moves { draft with pending := pending } separator
          ⟨draft.frames, type :: draft.finished, .empty⟩ := .separate separates whole
      obtain ⟨next, last, behind, stack, pending, listed⟩ :=
        rest.takes ⟨draft.frames, type :: draft.finished, .empty⟩ rfl (by simp; omega)
      exact ⟨next, last, takes.trans (.token move behind), stack, pending, by simpa using listed⟩

/-- A draft in which no type is pending takes the tokens of a type, which is then pending. -/
theorem IsTypeSpec.takes {tokens : List Token} {type : TypeExpr} {draft : Draft} :
    IsTypeSpec tokens type → draft.pending = .empty →
      type.depth + draft.frames.length ≤ Draft.nestingLimit →
      ∃ pending, pending.type? = some type ∧ draft.Takes tokens { draft with pending := pending }
  | .name names, free, _ => ⟨_, rfl, (Draft.Moves.name names free).takes⟩
  | .named names body, free, room =>
      ⟨_, rfl, .token (.name names free) (body.takes rfl room)⟩
  | .unnamed body, free, room => ⟨_, rfl, body.takes (by rw [free]; rfl) room⟩

/-- A draft takes the tokens of a suffix behind a pending type that can be its head. -/
theorem IsSuffix.takes {tokens : List Token} {suffix : Suffix} {draft : Draft} {name : String} :
    IsSuffix tokens suffix → draft.pending.head? suffix.bracket = some name →
      (suffix.named name).depth + draft.frames.length ≤ Draft.nestingLimit →
      draft.Takes tokens { draft with pending := .type (suffix.named name) }
  | .collection opens list closes, head, room => by
      simp only [Suffix.named, depth] at room
      have inside := list.takes ⟨⟨name, .collection, draft.finished⟩ :: draft.frames, [], .empty⟩
        rfl (by simp; omega)
      exact .token (.enter (by rw [opens]; rfl) head (by omega)) (inside.leave closes)
  | .fixed opens list closes, head, room => by
      simp only [Suffix.named, depth] at room
      have inside := list.takes ⟨⟨name, .fixed, draft.finished⟩ :: draft.frames, [], .empty⟩
        rfl (by simp; omega)
      exact .token (.enter (by rw [opens]; rfl) head (by omega)) (inside.leave closes)
  | @IsSuffix.hash _ _ _ _ _ keys _ opens keyList points valueList closes, head, room => by
      simp only [Suffix.named, depth] at room
      have first := keyList.takes ⟨⟨name, .hashKeys, draft.finished⟩ :: draft.frames, [], .empty⟩
        rfl (by simp; omega)
      have second := valueList.takes
        ⟨⟨name, .hashValues keys, draft.finished⟩ :: draft.frames, [], .empty⟩ rfl (by simp; omega)
      have both := (first.leave points).trans (second.leave closes)
      rw [List.append_assoc, List.singleton_append] at both
      exact .token (.enter (by rw [opens]; rfl) head (by omega)) both

end

namespace Draft

/-- The tokens of a list of types that fits under the nesting limit lead from the empty
draft to one that the end of input completes with that list. -/
theorem empty_takes_of_isTypeList {tokens : List Token} {types : List TypeExpr}
    (list : IsTypeList tokens types) (fits : depthAll types ≤ nestingLimit) :
    ∃ next type, empty.Takes tokens next ∧ next.frames = [] ∧
      next.pending.type? = some type ∧ (type :: next.finished).reverse = types := by
  obtain ⟨next, type, takes, closed, whole, listed⟩ := list.takes empty rfl fits
  exact ⟨next, type, takes, closed, whole, by simpa [empty] using listed⟩

/-- The tokens that the empty draft takes on the way to a list of types derive that list. -/
theorem isTypeList_of_empty_takes {tokens : List Token} {next : Draft} {type : TypeExpr}
    (takes : empty.Takes tokens next) (closed : next.frames = [])
    (whole : next.pending.type? = some type) :
    IsTypeList tokens (type :: next.finished).reverse := by
  have start : empty.Spells [] := ⟨[], [], [], rfl, .none, .none, .empty⟩
  exact (takes.spells start).isTypeList closed whole

/-- A list of types that is derived from tokens which the empty draft takes fits under the
nesting limit. -/
theorem depthAll_le_of_empty_takes {tokens : List Token} {types : List TypeExpr} {next : Draft}
    (takes : empty.Takes tokens next) (list : IsTypeList tokens types) :
    depthAll types ≤ nestingLimit := by
  obtain ⟨front, back, rfl, deep⟩ := list.reaches
  obtain ⟨middle, onTheWay⟩ := takes.of_append
  have counted := onTheWay.length_frames
  have bounded := onTheWay.length_frames_le (Nat.zero_le _)
  simp only [empty, List.length_nil] at counted
  omega

end Draft

/-- A text is read as a list of types exactly when the scanner comes to its end with tokens
that derive that list, and the list fits under the nesting limit. -/
theorem parse_eq_ok_iff {text source : String} {types : List TypeExpr} :
    parse text source = .ok types ↔
      ∃ tokens cursor, (Scanner.start text source).Yields tokens ⟨source, cursor, []⟩ ∧
        IsTypeList tokens types ∧ depthAll types ≤ Draft.nestingLimit := by
  constructor
  · intro read
    obtain ⟨tokens, next, here, yields, takes, halts⟩ := Draft.result_eq_iff.1 read
    obtain ⟨front, -, place⟩ := yields.split
    cases halts with
    | complete closed whole =>
        have list := Draft.isTypeList_of_empty_takes takes closed whole
        obtain ⟨rfl, -⟩ := Scanner.mk.inj place
        exact ⟨tokens, _, yields, list, Draft.depthAll_le_of_empty_takes takes list⟩
  · rintro ⟨tokens, cursor, yields, list, fits⟩
    obtain ⟨next, type, takes, closed, whole, rfl⟩ := Draft.empty_takes_of_isTypeList list fits
    exact Draft.result_eq_iff.2 ⟨tokens, next, _, yields, takes, .complete closed whole⟩

/-- A list of types that is derived from the tokens of a text fits under the nesting limit if
the text keeps within it. -/
theorem Scanner.NestsWithin.depthAll_le {scanner after : Scanner} {limit : Nat}
    {tokens : List Token} {types : List TypeExpr} (nested : scanner.NestsWithin limit)
    (yields : scanner.Yields tokens after) (list : IsTypeList tokens types) :
    depthAll types ≤ limit := by
  obtain ⟨front, back, rfl, deep⟩ := list.reaches
  obtain ⟨middle, onTheWay⟩ := yields.of_append
  have bounded := nested front middle onTheWay
  omega

/-- As long as a text keeps its brackets within the nesting limit, reading it gives a list of
types exactly when the text is cut into tokens from which the grammar derives that list, with
the end of input behind them. From any tokens the grammar derives at most one list. -/
theorem parse_eq_ok_iff_isTypeList (text source : String)
    (nested : (Scanner.start text source).NestsWithin Draft.nestingLimit) :
    (∀ types, parse text source = .ok types ↔
      ∃ tokens last, tokenize text source = .ok (tokens ++ [last]) ∧
        last.kind = .endOfInput ∧ IsTypeList tokens types) ∧
    ∀ tokens types types', IsTypeList tokens types → IsTypeList tokens types' → types = types' := by
  refine ⟨fun types => ?_, fun tokens types types' list list' => list.types_unique list'⟩
  constructor
  · intro read
    obtain ⟨tokens, cursor, yields, list, -⟩ := parse_eq_ok_iff.1 read
    exact ⟨tokens, _, tokenize_eq_ok_iff.2 ⟨tokens, cursor, yields, rfl⟩, rfl, list⟩
  · rintro ⟨tokens, last, cut, -, list⟩
    obtain ⟨tokens', cursor, yields, same⟩ := tokenize_eq_ok_iff.1 cut
    obtain ⟨rfl, -⟩ := List.append_inj' same rfl
    exact parse_eq_ok_iff.2 ⟨tokens, cursor, yields, list, nested.depthAll_le yields list⟩

/-- A text with all three sorts of brackets, one without a name, and both separators. -/
theorem isTypeList_of_nested_text :
    (Scanner.start "Set<A, \x7bB => (C; D)\x7d>" unnamedSource).NestsWithin Draft.nestingLimit ∧
      ∃ tokens last,
        tokenize "Set<A, \x7bB => (C; D)\x7d>" unnamedSource = .ok (tokens ++ [last]) ∧
        last.kind = .endOfInput ∧
        IsTypeList tokens [.collection "Set" [.simple "A", .hashCollection "Hash" [.simple "B"]
          [.fixedCollection "Array" [.simple "C", .simple "D"]]]] := by
  have nested := Scanner.nestsWithin_of_length_le
    (show (Scanner.start "Set<A, \x7bB => (C; D)\x7d>" unnamedSource).rest.length ≤
      Draft.nestingLimit by decide)
  exact ⟨nested, ((parse_eq_ok_iff_isTypeList _ _ nested).1 _).1 (by decide +kernel)⟩

end TypeProse
