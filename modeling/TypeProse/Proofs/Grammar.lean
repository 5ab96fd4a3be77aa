import TypeProse.Proofs.Drafting

/-!
# The grammar of type lists

`IsTypeList` derives lists of types from tokens. A list is one or more types with
separators between them. A type is a name, or a suffix with or without a name before
it. A suffix is a bracket with a list of types inside, or with the keys and the
values of a hash. The grammar does not say how deep brackets may be nested. From any
tokens it derives at most one list.
-/

namespace TypeProse

/-- A collection that has not been given its name. -/
inductive Suffix where
  | collection (types : List TypeExpr)
  | fixed (types : List TypeExpr)
  | hash (keys values : List TypeExpr)
  deriving DecidableEq, Repr

namespace Suffix

/-- The collection with a name. -/
def named (name : String) : Suffix → TypeExpr
  | .collection types => .collection name types
  | .fixed types => .fixedCollection name types
  | .hash keys values => .hashCollection name keys values

/-- The bracket that begins the collection. -/
def bracket : Suffix → Bracket
  | .collection _ => .collection
  | .fixed _ => .fixed
  | .hash _ _ => .hashKeys

end Suffix

mutual

/-- One or more types, with separators between them. -/
inductive IsTypeList : List Token → List TypeExpr → Prop where
  | last {tokens : List Token} {type : TypeExpr} (spec : IsTypeSpec tokens type) :
      IsTypeList tokens [type]
  | next {front back : List Token} {separator : Token} {type : TypeExpr} {types : List TypeExpr}
      (spec : IsTypeSpec front type) (separates : separator.kind = .separator)
      (rest : IsTypeList back types) :
      IsTypeList (front ++ separator :: back) (type :: types)

/-- A name, a name with a suffix, or a suffix that has its default name. -/
inductive IsTypeSpec : List Token → TypeExpr → Prop where
  | name {token : Token} (names : token.kind = .name) :
      IsTypeSpec [token] (.simple token.lexeme)
  | named {token : Token} {tokens : List Token} {suffix : Suffix} (names : token.kind = .name)
      (body : IsSuffix tokens suffix) :
      IsTypeSpec (token :: tokens) (suffix.named token.lexeme)
  | unnamed {tokens : List Token} {suffix : Suffix} (body : IsSuffix tokens suffix) :
      IsTypeSpec tokens (suffix.named suffix.bracket.defaultName)

/-- A list of types in brackets, or two of them with an arrow between. -/
inductive IsSuffix : List Token → Suffix → Prop where
  | collection {opener closer : Token} {inside : List Token} {types : List TypeExpr}
      (opens : opener.kind = .openCollection) (list : IsTypeList inside types)
      (closes : closer.kind = .closeCollection) :
      IsSuffix (opener :: (inside ++ [closer])) (.collection types)
  | fixed {opener closer : Token} {inside : List Token} {types : List TypeExpr}
      (opens : opener.kind = .openFixed) (list : IsTypeList inside types)
      (closes : closer.kind = .closeFixed) :
      IsSuffix (opener :: (inside ++ [closer])) (.fixed types)
  | hash {opener arrow closer : Token} {first second : List Token} {keys values : List TypeExpr}
      (opens : opener.kind = .openHash) (keyList : IsTypeList first keys)
      (points : arrow.kind = .arrow) (valueList : IsTypeList second values)
      (closes : closer.kind = .closeHash) :
      IsSuffix (opener :: (first ++ arrow :: (second ++ [closer]))) (.hash keys values)

end

/-- Tokens behind which a type cannot go on: none, or first a separator or a terminator. -/
def EndsType (tokens : List Token) : Prop :=
  ∀ token ∈ tokens.head?, token.kind = .separator ∨ token.kind.isTerminator = true

/-- Tokens behind which a list of types cannot go on: none, or first a terminator. -/
def EndsList (tokens : List Token) : Prop :=
  ∀ token ∈ tokens.head?, token.kind.isTerminator = true

theorem EndsType.separator {separator : Token} {rest : List Token}
    (separates : separator.kind = .separator) : EndsType (separator :: rest) := by
  rintro token ⟨⟩
  exact .inl separates

theorem EndsList.terminator {token : Token} {rest : List Token} {kind : TokenKind}
    (found : token.kind = kind) (terminates : kind.isTerminator = true) :
    EndsList (token :: rest) := by
  rintro token ⟨⟩
  exact found ▸ terminates

theorem EndsList.not_separator {separator : Token} {rest : List Token}
    (separates : separator.kind = .separator) (ends : EndsList (separator :: rest)) : False := by
  have terminates := ends separator rfl
  rw [separates] at terminates
  cases terminates

theorem EndsList.endsType {tokens : List Token} (ends : EndsList tokens) : EndsType tokens :=
  fun token first => .inr (ends token first)

/-- A suffix begins with a token that opens a bracket. -/
theorem IsSuffix.opens {tokens : List Token} {suffix : Suffix} (body : IsSuffix tokens suffix)
    (back : List Token) :
    ∃ opener rest, tokens ++ back = opener :: rest ∧ opener.kind.opens? = some suffix.bracket := by
  cases body with
  | collection opens => exact ⟨_, _, rfl, by rw [opens]; rfl⟩
  | fixed opens => exact ⟨_, _, rfl, by rw [opens]; rfl⟩
  | hash opens => exact ⟨_, _, rfl, by rw [opens]; rfl⟩

/-- No suffix begins with a name. -/
theorem IsSuffix.not_name {tokens front back : List Token} {suffix : Suffix} {token : Token}
    (body : IsSuffix tokens suffix) (names : token.kind = .name)
    (same : tokens ++ back = token :: front) : False := by
  obtain ⟨opener, rest, shape, opens⟩ := body.opens back
  rw [shape] at same
  obtain ⟨rfl, -⟩ := List.cons.inj same
  simp [names, TokenKind.opens?] at opens

/-- No suffix begins where a type ends. -/
theorem IsSuffix.not_endsType {tokens back : List Token} {suffix : Suffix}
    (body : IsSuffix tokens suffix) (ends : EndsType (tokens ++ back)) : False := by
  obtain ⟨opener, rest, shape, opens⟩ := body.opens back
  rw [shape] at ends
  rcases ends opener rfl with separates | terminates
  · simp [separates, TokenKind.opens?] at opens
  · cases kind : opener.kind <;> simp [kind, TokenKind.opens?, TokenKind.isTerminator] at *

/-- Tokens that begin alike begin with the same kind. -/
theorem kind_eq_of_cons_eq {token token' : Token} {rest rest' : List Token}
    {kind kind' : TokenKind} (found : token.kind = kind) (found' : token'.kind = kind')
    (same : token :: rest = token' :: rest') : kind = kind' := by
  obtain ⟨rfl, -⟩ := List.cons.inj same
  exact found.symm.trans found'

mutual

/-- Of two lists of types at the front of the same tokens, each before its end, both are the
same. -/
theorem IsTypeList.unique {front front' back back' : List Token} {types types' : List TypeExpr} :
    IsTypeList front types → IsTypeList front' types' → EndsList back → EndsList back' →
      front ++ back = front' ++ back' → front = front' ∧ types = types'
  | .last spec, .last spec', ends, ends', same => by
      obtain ⟨rfl, rfl⟩ := spec.unique spec' ends.endsType ends'.endsType same
      exact ⟨rfl, rfl⟩
  | .last spec, .next spec' separates rest, ends, ends', same => by
      rw [List.append_assoc, List.cons_append] at same
      obtain ⟨rfl, rfl⟩ := spec.unique spec' ends.endsType (.separator separates) same
      rw [List.append_cancel_left_eq] at same
      exact (EndsList.not_separator separates (same ▸ ends)).elim
  | .next spec separates rest, .last spec', ends, ends', same => by
      rw [List.append_assoc, List.cons_append] at same
      obtain ⟨rfl, rfl⟩ := spec.unique spec' (.separator separates) ends'.endsType same
      rw [List.append_cancel_left_eq] at same
      exact (EndsList.not_separator separates (same ▸ ends')).elim
  | .next spec separates rest, .next spec' separates' rest', ends, ends', same => by
      simp only [List.append_assoc, List.cons_append] at same
      obtain ⟨rfl, rfl⟩ := spec.unique spec' (.separator separates) (.separator separates') same
      rw [List.append_cancel_left_eq, List.cons.injEq] at same
      obtain ⟨rfl, behind⟩ := same
      obtain ⟨rfl, rfl⟩ := rest.unique rest' ends ends' behind
      exact ⟨rfl, rfl⟩

/-- Of two types at the front of the same tokens, each before its end, both are the same. -/
theorem IsTypeSpec.unique {front front' back back' : List Token} {type type' : TypeExpr} :
    IsTypeSpec front type → IsTypeSpec front' type' → EndsType back → EndsType back' →
      front ++ back = front' ++ back' → front = front' ∧ type = type'
  | .name _, .name _, _, _, same => by
      obtain ⟨rfl, -⟩ := List.cons.inj same
      exact ⟨rfl, rfl⟩
  | .name _, .named _ body', ends, _, same => by
      obtain ⟨rfl, rfl⟩ := List.cons.inj same
      exact (body'.not_endsType ends).elim
  | .name names, .unnamed body', _, _, same => (body'.not_name names same.symm).elim
  | .named _ body, .name _, _, ends', same => by
      obtain ⟨rfl, rfl⟩ := List.cons.inj same
      exact (body.not_endsType ends').elim
  | .named _ body, .named _ body', _, _, same => by
      obtain ⟨rfl, behind⟩ := List.cons.inj same
      obtain ⟨rfl, rfl⟩ := body.unique body' behind
      exact ⟨rfl, rfl⟩
  | .named names _, .unnamed body', _, _, same => (body'.not_name names same.symm).elim
  | .unnamed body, .name names', _, _, same => (body.not_name names' same).elim
  | .unnamed body, .named names' _, _, _, same => (body.not_name names' same).elim
  | .unnamed body, .unnamed body', _, _, same => by
      obtain ⟨rfl, rfl⟩ := body.unique body' same
      exact ⟨rfl, rfl⟩

/-- Of two suffixes at the front of the same tokens, both are the same. -/
theorem IsSuffix.unique {front front' back back' : List Token} {suffix suffix' : Suffix} :
    IsSuffix front suffix → IsSuffix front' suffix' → front ++ back = front' ++ back' →
      front = front' ∧ suffix = suffix'
  | .collection opens list closes, .collection opens' list' closes', same => by
      simp only [List.cons_append, List.append_assoc, List.nil_append, List.cons.injEq] at same
      obtain ⟨rfl, inside⟩ := same
      obtain ⟨rfl, rfl⟩ :=
        list.unique list' (.terminator closes rfl) (.terminator closes' rfl) inside
      rw [List.append_cancel_left_eq, List.cons.injEq] at inside
      exact ⟨by rw [inside.1], rfl⟩
  | .fixed opens list closes, .fixed opens' list' closes', same => by
      simp only [List.cons_append, List.append_assoc, List.nil_append, List.cons.injEq] at same
      obtain ⟨rfl, inside⟩ := same
      obtain ⟨rfl, rfl⟩ :=
        list.unique list' (.terminator closes rfl) (.terminator closes' rfl) inside
      rw [List.append_cancel_left_eq, List.cons.injEq] at inside
      exact ⟨by rw [inside.1], rfl⟩
  | .hash opens keyList points valueList closes,
      .hash opens' keyList' points' valueList' closes', same => by
      simp only [List.cons_append, List.append_assoc, List.nil_append, List.cons.injEq] at same
      obtain ⟨rfl, inside⟩ := same
      obtain ⟨rfl, rfl⟩ :=
        keyList.unique keyList' (.terminator points rfl) (.terminator points' rfl) inside
      rw [List.append_cancel_left_eq, List.cons.injEq] at inside
      obtain ⟨rfl, inside⟩ := inside
      obtain ⟨rfl, rfl⟩ :=
        valueList.unique valueList' (.terminator closes rfl) (.terminator closes' rfl) inside
      rw [List.append_cancel_left_eq, List.cons.injEq] at inside
      exact ⟨by rw [inside.1], rfl⟩
  | .collection opens _ _, .fixed opens' _ _, same => nomatch kind_eq_of_cons_eq opens opens' same
  | .collection opens _ _, .hash opens' .., same => nomatch kind_eq_of_cons_eq opens opens' same
  | .fixed opens _ _, .collection opens' _ _, same => nomatch kind_eq_of_cons_eq opens opens' same
  | .fixed opens _ _, .hash opens' .., same => nomatch kind_eq_of_cons_eq opens opens' same
  | .hash opens .., .collection opens' _ _, same => nomatch kind_eq_of_cons_eq opens opens' same
  | .hash opens .., .fixed opens' _ _, same => nomatch kind_eq_of_cons_eq opens opens' same

end

/-- From any tokens at most one list of types is derived. -/
theorem IsTypeList.types_unique {tokens : List Token} {types types' : List TypeExpr}
    (list : IsTypeList tokens types) (list' : IsTypeList tokens types') : types = types' := by
  have ends : EndsList [] := by simp [EndsList]
  exact (list.unique list' ends ends rfl).2

end TypeProse
