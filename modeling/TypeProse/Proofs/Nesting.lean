import TypeProse.Proofs.Grammar

/-!
# Nesting

How many brackets are open at once can be counted in three ways: over the tokens of a
text, over the frames of a draft, and over the types that are nested in a type. The
frames of a draft are as many as the tokens that it has taken leave open, and the
depth of a list of types is reached by some front part of every derivation of it.
-/

namespace TypeProse

/-- By how much a kind of token changes the number of open brackets. -/
def TokenKind.nesting : TokenKind → Int
  | .openCollection => 1
  | .openFixed => 1
  | .openHash => 1
  | .closeCollection => -1
  | .closeFixed => -1
  | .closeHash => -1
  | _ => 0

/-- A kind that opens a bracket adds one. -/
theorem TokenKind.nesting_of_opens {kind : TokenKind} {bracket : Bracket}
    (opens : kind.opens? = some bracket) : kind.nesting = 1 := by
  cases kind <;> simp [TokenKind.opens?] at opens <;> rfl

/-- The number of brackets that tokens open, less the number that they close. -/
def openBrackets : List Token → Int
  | [] => 0
  | token :: tokens => token.kind.nesting + openBrackets tokens

@[simp] theorem openBrackets_nil : openBrackets [] = 0 :=
  rfl

@[simp] theorem openBrackets_cons (token : Token) (tokens : List Token) :
    openBrackets (token :: tokens) = token.kind.nesting + openBrackets tokens :=
  rfl

@[simp] theorem openBrackets_append (front back : List Token) :
    openBrackets (front ++ back) = openBrackets front + openBrackets back := by
  induction front with
  | nil => simp
  | cons token front ih =>
      simp only [List.cons_append, openBrackets_cons, ih]
      omega

/-- Tokens open at most one bracket each. -/
theorem openBrackets_le_length (tokens : List Token) : openBrackets tokens ≤ tokens.length := by
  induction tokens with
  | nil => simp
  | cons token tokens ih =>
      have one : token.kind.nesting ≤ 1 := by cases token.kind <;> decide
      simp only [openBrackets_cons, List.length_cons]
      omega

namespace Scanner

/-- Never more than `limit` of the brackets in a text are open at once. -/
def NestsWithin (limit : Nat) (scanner : Scanner) : Prop :=
  ∀ tokens after, scanner.Yields tokens after → openBrackets tokens ≤ limit

/-- A text that is not longer than the limit keeps within it. -/
theorem nestsWithin_of_length_le {limit : Nat} {scanner : Scanner}
    (short : scanner.rest.length ≤ limit) : scanner.NestsWithin limit := by
  intro tokens after yields
  have few := yields.length_le
  have some := openBrackets_le_length tokens
  omega

/-- Some of the tokens on the way to a place lead to a place on that way. -/
theorem Yields.of_append {scanner after : Scanner} {front back : List Token}
    (yields : scanner.Yields (front ++ back) after) : ∃ middle, scanner.Yields front middle := by
  generalize whole : front ++ back = tokens at yields
  induction yields generalizing front with
  | here scanner =>
      obtain ⟨rfl, -⟩ := List.append_eq_nil_iff.1 whole
      exact ⟨scanner, .here scanner⟩
  | blank blank _ ih =>
      obtain ⟨middle, yields⟩ := ih whole
      exact ⟨middle, .blank blank yields⟩
  | token found shown more _ ih =>
      cases front with
      | nil => exact ⟨_, .here _⟩
      | cons token front =>
          obtain ⟨rfl, behind⟩ := List.cons.inj whole
          obtain ⟨middle, yields⟩ := ih behind
          exact ⟨middle, .token found shown more yields⟩

end Scanner

namespace Draft

/-- A move opens and closes frames as its token opens and closes brackets. -/
theorem Moves.length_frames {draft next : Draft} {token : Token} (move : draft.Moves token next) :
    (next.frames.length : Int) = draft.frames.length + token.kind.nesting := by
  cases move with
  | name kind free => simp [kind, TokenKind.nesting]
  | separate kind pending => simp [kind, TokenKind.nesting]
  | enter kind head room => simp [TokenKind.nesting_of_opens kind]
  | @leave frame _ _ stack kind pending =>
      cases bracket : frame.bracket <;>
        simp only [Draft.leave, bracket, stack, kind, Bracket.closer, TokenKind.nesting,
          List.length_cons] <;> omega

/-- The frames of a draft are the brackets that its tokens leave open. -/
theorem Takes.length_frames {draft next : Draft} {tokens : List Token}
    (takes : draft.Takes tokens next) :
    (next.frames.length : Int) = draft.frames.length + openBrackets tokens := by
  induction takes with
  | none => simp
  | token move _ ih =>
      have one := move.length_frames
      simp only [openBrackets_cons]
      omega

/-- No move opens more frames than may be open at once. -/
theorem Moves.length_frames_le {draft next : Draft} {token : Token}
    (move : draft.Moves token next) (few : draft.frames.length ≤ nestingLimit) :
    next.frames.length ≤ nestingLimit := by
  cases move with
  | name kind free => exact few
  | separate kind pending => exact few
  | enter kind head room => exact room
  | @leave frame _ _ stack kind pending =>
      rw [stack, List.length_cons] at few
      cases bracket : frame.bracket <;> simp [Draft.leave, bracket] <;> omega

theorem Takes.length_frames_le {draft next : Draft} {tokens : List Token}
    (takes : draft.Takes tokens next) (few : draft.frames.length ≤ nestingLimit) :
    next.frames.length ≤ nestingLimit := by
  induction takes with
  | none => exact few
  | token move _ ih => exact ih (move.length_frames_le few)

/-- Some of the tokens that a draft takes lead to a draft on the way. -/
theorem Takes.of_append {draft after : Draft} {front back : List Token}
    (takes : draft.Takes (front ++ back) after) : ∃ middle, draft.Takes front middle := by
  induction front generalizing draft with
  | nil => exact ⟨draft, .none draft⟩
  | cons token front ih =>
      cases takes with
      | token move behind =>
          obtain ⟨middle, takes⟩ := ih behind
          exact ⟨middle, .token move takes⟩

end Draft

namespace TypeExpr

mutual

/-- How many collections are nested in a type, the type itself included. -/
def depth : TypeExpr → Nat
  | .simple _ => 0
  | .collection _ types => depthAll types + 1
  | .fixedCollection _ types => depthAll types + 1
  | .hashCollection _ keys values => max (depthAll keys) (depthAll values) + 1

/-- How many collections are nested in the deepest of several types. -/
def depthAll : List TypeExpr → Nat
  | [] => 0
  | type :: types => max type.depth (depthAll types)

end

end TypeExpr

open TypeExpr

mutual

/-- A list of types closes the brackets that it opens. -/
theorem IsTypeList.openBrackets_eq {tokens : List Token} {types : List TypeExpr} :
    IsTypeList tokens types → openBrackets tokens = 0
  | .last spec => spec.openBrackets_eq
  | .next spec separates rest => by
      have first := spec.openBrackets_eq
      have others := rest.openBrackets_eq
      simp [first, others, separates, TokenKind.nesting]

theorem IsTypeSpec.openBrackets_eq {tokens : List Token} {type : TypeExpr} :
    IsTypeSpec tokens type → openBrackets tokens = 0
  | .name names => by simp [names, TokenKind.nesting]
  | .named names body => by
      have inside := body.openBrackets_eq
      simp [inside, names, TokenKind.nesting]
  | .unnamed body => body.openBrackets_eq

theorem IsSuffix.openBrackets_eq {tokens : List Token} {suffix : Suffix} :
    IsSuffix tokens suffix → openBrackets tokens = 0
  | .collection opens list closes => by
      have inside := list.openBrackets_eq
      simp [inside, opens, closes, TokenKind.nesting]
  | .fixed opens list closes => by
      have inside := list.openBrackets_eq
      simp [inside, opens, closes, TokenKind.nesting]
  | .hash opens keyList points valueList closes => by
      have first := keyList.openBrackets_eq
      have second := valueList.openBrackets_eq
      simp [first, second, opens, points, closes, TokenKind.nesting]

end

/-- Some front part of the tokens leaves that many brackets open. -/
def Reaches (tokens : List Token) (depth : Nat) : Prop :=
  ∃ front back, tokens = front ++ back ∧ (depth : Int) ≤ openBrackets front

namespace Reaches

/-- The front part with no tokens leaves no bracket open. -/
theorem zero (tokens : List Token) : Reaches tokens 0 :=
  ⟨[], tokens, rfl, by simp⟩

/-- What is reached is reached when tokens follow. -/
theorem append {tokens : List Token} {depth : Nat} (reaches : Reaches tokens depth)
    (more : List Token) : Reaches (tokens ++ more) depth := by
  obtain ⟨front, back, rfl, deep⟩ := reaches
  exact ⟨front, back ++ more, by simp, deep⟩

/-- Behind tokens that leave brackets open, that many more are open. -/
theorem behind {tokens : List Token} {depth : Nat} (reaches : Reaches tokens depth)
    (before : List Token) {extra : Nat} (opened : openBrackets before = extra) :
    Reaches (before ++ tokens) (depth + extra) := by
  obtain ⟨front, back, rfl, deep⟩ := reaches
  refine ⟨before ++ front, back, by simp, ?_⟩
  rw [openBrackets_append]
  omega

/-- Of two depths that are reached, so is the greater one. -/
theorem greater {tokens : List Token} {first second : Nat} (reaches : Reaches tokens first)
    (reaches' : Reaches tokens second) : Reaches tokens (max first second) := by
  rcases Nat.le_total first second with less | less
  · rwa [Nat.max_eq_right less]
  · rwa [Nat.max_eq_left less]

end Reaches

mutual

/-- The tokens of a list of types open as many brackets at once as the types are deep. -/
theorem IsTypeList.reaches {tokens : List Token} {types : List TypeExpr} :
    IsTypeList tokens types → Reaches tokens (depthAll types)
  | .last spec => spec.reaches.greater (.zero _)
  | @IsTypeList.next front _ separator _ _ spec separates rest => by
      have balanced : openBrackets (front ++ [separator]) = (0 : Nat) := by
        simp [spec.openBrackets_eq, separates, TokenKind.nesting]
      have others := rest.reaches.behind (front ++ [separator]) balanced
      exact (spec.reaches.append _).greater (by simpa using others)

theorem IsTypeSpec.reaches {tokens : List Token} {type : TypeExpr} :
    IsTypeSpec tokens type → Reaches tokens type.depth
  | .name _ => .zero _
  | @IsTypeSpec.named token _ _ names body => by
      have balanced : openBrackets [token] = (0 : Nat) := by simp [names, TokenKind.nesting]
      exact (body.reaches _).behind [token] balanced
  | .unnamed body => body.reaches _

theorem IsSuffix.reaches {tokens : List Token} {suffix : Suffix} (name : String) :
    IsSuffix tokens suffix → Reaches tokens (suffix.named name).depth
  | @IsSuffix.collection opener _ _ _ opens list _ => by
      have one : openBrackets [opener] = (1 : Nat) := by simp [opens, TokenKind.nesting]
      exact (list.reaches.append _).behind [opener] one
  | @IsSuffix.fixed opener _ _ _ opens list _ => by
      have one : openBrackets [opener] = (1 : Nat) := by simp [opens, TokenKind.nesting]
      exact (list.reaches.append _).behind [opener] one
  | @IsSuffix.hash opener arrow closer first second _ _ opens keyList points valueList _ => by
      have one : openBrackets [opener] = (1 : Nat) := by simp [opens, TokenKind.nesting]
      have balanced : openBrackets (first ++ [arrow]) = (0 : Nat) := by
        simp [keyList.openBrackets_eq, points, TokenKind.nesting]
      have keys := keyList.reaches.append (arrow :: (second ++ [closer]))
      have values := (valueList.reaches.append [closer]).behind (first ++ [arrow]) balanced
      exact (keys.greater (by simpa using values)).behind [opener] one

end

end TypeProse
