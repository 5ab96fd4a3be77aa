import TypeProse.Proofs.Unambiguity

/-!
# Names are kept

On a walk through the types that a text lists, the names of the text are met in their order. The
only other names are the default names of collections whose bracket has no name before it.
`Accounts` marks these in the walk and says which token each of the other names and each collection
comes from. Lists of tokens are accounted for piece by piece, along the derivation of the types.
-/

namespace TypeProse

open TypeExpr

/-- The bracket that a collection is written with. -/
def TypeExpr.bracket? : TypeExpr → Option Bracket
  | .simple _ => none
  | .collection .. => some .collection
  | .fixedCollection .. => some .fixed
  | .hashCollection .. => some .hashKeys

/-- The lexemes of the names among tokens. -/
def writtenNames (tokens : List Token) : List String :=
  (tokens.filter fun token => token.kind = .name).map Token.lexeme

/-- The opening brackets among tokens, each with whether it has no name right before it. The kind of
the token in front of all of them is given, if there is one. -/
def openings : Option TokenKind → List Token → List (Bracket × Bool)
  | _, [] => []
  | previous, token :: tokens =>
      match token.kind.opens? with
      | some bracket => (bracket, previous != some .name) :: openings (some token.kind) tokens
      | none => openings (some token.kind) tokens

/-- A type of a walk, with whether its name was left out. -/
abbrev Marked := TypeExpr × Bool

/-- Where the names and the collections of a walk come from, if the names that were left out are
marked in it. -/
structure Accounts (previous : Option TokenKind) (tokens : List Token) (marked : List Marked) :
    Prop where
  /-- A name that was left out is the default name of a collection. -/
  omitted : ∀ type, (type, true) ∈ marked → type.bracket?.map Bracket.defaultName = some type.name
  /-- The other names are those that are written. -/
  written : (marked.filter fun entry => !entry.2).map (fun entry => entry.1.name) =
    writtenNames tokens
  /-- The collections come from the brackets, and where a bracket has no name right before it, the
  name of the collection was left out. -/
  opened : marked.filterMap (fun entry => entry.1.bracket?.map fun bracket => (bracket, entry.2)) =
    openings previous tokens

@[simp] theorem writtenNames_append (front back : List Token) :
    writtenNames (front ++ back) = writtenNames front ++ writtenNames back := by
  simp [writtenNames]

theorem writtenNames_cons_of_name {token : Token} (names : token.kind = .name)
    (tokens : List Token) :
    writtenNames (token :: tokens) = token.lexeme :: writtenNames tokens := by
  simp [writtenNames, names]

theorem writtenNames_cons_of_ne {token : Token} (unnamed : token.kind ≠ .name)
    (tokens : List Token) : writtenNames (token :: tokens) = writtenNames tokens := by
  simp [writtenNames, unnamed]

/-- A token that opens no bracket divides the brackets before it from those behind it. -/
theorem openings_append_cons {token : Token} (plain : token.kind.opens? = none)
    (previous : Option TokenKind) (front back : List Token) :
    openings previous (front ++ token :: back) =
      openings previous front ++ openings (some token.kind) back := by
  induction front generalizing previous with
  | nil => simp [openings, plain]
  | cons first front ih =>
      rw [List.cons_append, openings, openings, ih]
      split <;> rfl

/-- Without the marks these are the opening brackets. -/
theorem map_fst_openings (previous : Option TokenKind) (tokens : List Token) :
    (openings previous tokens).map Prod.fst = tokens.filterMap fun token => token.kind.opens? := by
  induction tokens generalizing previous with
  | nil => rfl
  | cons token tokens ih =>
      rw [openings, List.filterMap_cons]
      split <;> simp [*]

namespace Accounts

variable {previous : Option TokenKind} {token opener : Token} {front back rest : List Token}
  {marked marked' : List Marked} {type : TypeExpr} {bracket : Bracket}

theorem nil : Accounts previous [] [] := ⟨by simp, rfl, rfl⟩

/-- Two lists of tokens with a token between them that is no name and opens no bracket. -/
theorem append_cons (first : Accounts previous front marked) (unnamed : token.kind ≠ .name)
    (plain : token.kind.opens? = none) (second : Accounts (some token.kind) back marked') :
    Accounts previous (front ++ token :: back) (marked ++ marked') where
  omitted := by
    intro type inside
    rcases List.mem_append.1 inside with before | behind
    · exact first.omitted type before
    · exact second.omitted type behind
  written := by
    rw [List.filter_append, List.map_append, first.written, second.written, writtenNames_append,
      writtenNames_cons_of_ne unnamed]
  opened := by
    rw [List.filterMap_append, first.opened, second.opened, openings_append_cons plain]

/-- A name on its own. -/
theorem name (names : token.kind = .name) :
    Accounts previous [token] [(.simple token.lexeme, false)] where
  omitted := by simp
  written := by simp [writtenNames, names, TypeExpr.name]
  opened := by simp [openings, names, TokenKind.opens?, bracket?]

/-- A bracket with a name right before it. -/
theorem named (inside : Accounts (some opener.kind) rest marked) (names : token.kind = .name)
    (opens : opener.kind.opens? = some bracket) (shape : type.bracket? = some bracket)
    (same : type.name = token.lexeme) :
    Accounts previous (token :: opener :: rest) ((type, false) :: marked) where
  omitted := by simpa using inside.omitted
  written := by
    have unnamed : opener.kind ≠ .name := by
      intro names
      simp [names, TokenKind.opens?] at opens
    rw [writtenNames_cons_of_name names, writtenNames_cons_of_ne unnamed, ← inside.written, ← same]
    simp
  opened := by
    have plain : TokenKind.name.opens? = none := rfl
    simp [openings, names, plain, opens, shape, inside.opened]

/-- A bracket without a name right before it. -/
theorem unnamed (inside : Accounts (some opener.kind) rest marked) (free : previous ≠ some .name)
    (opens : opener.kind.opens? = some bracket) (shape : type.bracket? = some bracket)
    (default : type.name = bracket.defaultName) :
    Accounts previous (opener :: rest) ((type, true) :: marked) where
  omitted := by
    intro type' inside'
    rcases List.mem_cons.1 inside' with same | behind
    · cases same
      rw [shape, default]
      rfl
    · exact inside.omitted type' behind
  written := by
    have unnamed : opener.kind ≠ .name := by
      intro names
      simp [names, TokenKind.opens?] at opens
    rw [writtenNames_cons_of_ne unnamed, ← inside.written]
    simp
  opened := by
    have marks : (previous != some .name) = true := by simpa using free
    simp [openings, opens, shape, marks, inside.opened]

end Accounts

/-- The types of a walk can be marked so that their names are accounted for. -/
def AccountsFor (previous : Option TokenKind) (tokens : List Token) (types : List TypeExpr) :
    Prop :=
  ∃ marked : List Marked, marked.map Prod.fst = types ∧ Accounts previous tokens marked

namespace AccountsFor

variable {previous : Option TokenKind} {token : Token} {front back : List Token}
  {types types' : List TypeExpr}

theorem append_cons (first : AccountsFor previous front types) (unnamed : token.kind ≠ .name)
    (plain : token.kind.opens? = none) (second : AccountsFor (some token.kind) back types') :
    AccountsFor previous (front ++ token :: back) (types ++ types') := by
  obtain ⟨marked, rfl, accounts⟩ := first
  obtain ⟨marked', rfl, accounts'⟩ := second
  exact ⟨marked ++ marked', List.map_append, accounts.append_cons unnamed plain accounts'⟩

/-- A token that closes a bracket adds nothing. -/
theorem concat (first : AccountsFor previous front types) (unnamed : token.kind ≠ .name)
    (plain : token.kind.opens? = none) : AccountsFor previous (front ++ [token]) types := by
  have none : AccountsFor (some token.kind) [] [] := ⟨[], rfl, .nil⟩
  simpa using first.append_cons unnamed plain none

end AccountsFor

/-- The bracket of a collection does not depend on its name. -/
theorem Suffix.bracket?_named (suffix : Suffix) (name : String) :
    (suffix.named name).bracket? = some suffix.bracket := by
  cases suffix <;> rfl

/-- The walk through what a collection has in it. -/
def Suffix.walkInside : Suffix → List TypeExpr
  | .collection types => walkAll types
  | .fixed types => walkAll types
  | .hash keys values => walkAll keys ++ walkAll values

theorem Suffix.walk_named (suffix : Suffix) (name : String) :
    (suffix.named name).walk = suffix.named name :: suffix.walkInside := by
  cases suffix <;> simp [named, walk, walkInside]

mutual

/-- The names of a list of types that no name stands right before. -/
theorem IsTypeList.accountsFor {tokens : List Token} {types : List TypeExpr}
    {previous : Option TokenKind} (free : previous ≠ some .name) :
    IsTypeList tokens types → AccountsFor previous tokens (walkAll types)
  | .last spec => by
      simpa [walkAll] using spec.accountsFor free
  | .next spec separates rest => by
      refine (spec.accountsFor free).append_cons ?_ ?_ (rest.accountsFor ?_) <;>
        simp [separates, TokenKind.opens?]

/-- The names of a type that no name stands right before. -/
theorem IsTypeSpec.accountsFor {tokens : List Token} {type : TypeExpr}
    {previous : Option TokenKind} (free : previous ≠ some .name) :
    IsTypeSpec tokens type → AccountsFor previous tokens type.walk
  | .name names => ⟨_, by simp [walk], .name names⟩
  | .named names body => by
      obtain ⟨opener, rest, rfl, opens, marked, walked, accounts⟩ := body.accountsFor
      refine ⟨_, ?_, accounts.named names opens (Suffix.bracket?_named ..) (Suffix.name_named ..)⟩
      rw [Suffix.walk_named, List.map_cons, walked]
  | .unnamed body => by
      obtain ⟨opener, rest, rfl, opens, marked, walked, accounts⟩ := body.accountsFor
      refine ⟨_, ?_, accounts.unnamed free opens (Suffix.bracket?_named ..) (Suffix.name_named ..)⟩
      rw [Suffix.walk_named, List.map_cons, walked]

/-- The names inside a bracket, behind the token that opens it. -/
theorem IsSuffix.accountsFor {tokens : List Token} {suffix : Suffix} :
    IsSuffix tokens suffix → ∃ opener rest, tokens = opener :: rest ∧
      opener.kind.opens? = some suffix.bracket ∧
      AccountsFor (some opener.kind) rest suffix.walkInside
  | .collection opens list closes => by
      refine ⟨_, _, rfl, by rw [opens]; rfl, ?_⟩
      refine (list.accountsFor ?_).concat ?_ ?_ <;> simp [opens, closes, TokenKind.opens?]
  | .fixed opens list closes => by
      refine ⟨_, _, rfl, by rw [opens]; rfl, ?_⟩
      refine (list.accountsFor ?_).concat ?_ ?_ <;> simp [opens, closes, TokenKind.opens?]
  | .hash opens keyList points valueList closes => by
      refine ⟨_, _, rfl, by rw [opens]; rfl, ?_⟩
      -- The arrow divides the names of the keys from those of the values.
      refine (keyList.accountsFor ?_).append_cons ?_ ?_
          ((valueList.accountsFor ?_).concat ?_ ?_) <;>
        simp [opens, points, closes, TokenKind.opens?]

end

/-- A walk that is accounted for meets the collections in the order of their opening brackets. -/
theorem Accounts.filterMap_bracket? {previous : Option TokenKind} {tokens : List Token}
    {marked : List Marked} (accounts : Accounts previous tokens marked) :
    (marked.map Prod.fst).filterMap bracket? =
      tokens.filterMap fun token => token.kind.opens? := by
  rw [← map_fst_openings previous, ← accounts.opened, List.filterMap_map, List.map_filterMap]
  congr 1
  funext entry
  simp [Option.map_map, Function.comp_def]

/-- Reading keeps the names of a text and their order. The types of the walk can be marked so that
those with a mark are collections with their default name, one for each bracket that has no name
right before it, and the names of the others are the names of the text. The collections of the walk
come from the opening brackets, one from each and in the same order. -/
theorem names_are_kept_in_order {text source : String} {types : List TypeExpr}
    (read : parse text source = .ok types) :
    ∃ tokens last marked, tokenize text source = .ok (tokens ++ [last]) ∧
      last.kind = .endOfInput ∧ marked.map Prod.fst = walkAll types ∧
      Accounts none tokens marked ∧
      (walkAll types).filterMap bracket? = tokens.filterMap fun token => token.kind.opens? := by
  obtain ⟨tokens, cursor, yields, list, -⟩ := parse_eq_ok_iff.1 read
  have unled : (none : Option TokenKind) ≠ some .name := by simp
  obtain ⟨marked, walked, accounts⟩ := list.accountsFor unled
  refine ⟨tokens, _, marked, tokenize_eq_ok_iff.2 ⟨tokens, cursor, yields, rfl⟩, rfl, walked,
    accounts, ?_⟩
  rw [← walked]
  exact accounts.filterMap_bracket?

/-- Two of the three collections have their default names. -/
theorem names_of_nested_text :
    parse "Set<A, \x7bB => (C; D)\x7d>" unnamedSource =
        .ok [.collection "Set" [.simple "A", .hashCollection "Hash" [.simple "B"]
          [.fixedCollection "Array" [.simple "C", .simple "D"]]]] ∧
      ∃ tokens last marked,
        tokenize "Set<A, \x7bB => (C; D)\x7d>" unnamedSource = .ok (tokens ++ [last]) ∧
        last.kind = .endOfInput ∧
        marked.map Prod.fst = walkAll [.collection "Set" [.simple "A",
          .hashCollection "Hash" [.simple "B"]
            [.fixedCollection "Array" [.simple "C", .simple "D"]]]] ∧
        Accounts none tokens marked ∧
        (walkAll [.collection "Set" [.simple "A", .hashCollection "Hash" [.simple "B"]
          [.fixedCollection "Array" [.simple "C", .simple "D"]]]]).filterMap bracket? =
            tokens.filterMap fun token => token.kind.opens? := by
  have read : parse "Set<A, \x7bB => (C; D)\x7d>" unnamedSource =
      .ok [.collection "Set" [.simple "A", .hashCollection "Hash" [.simple "B"]
        [.fixedCollection "Array" [.simple "C", .simple "D"]]]] := by
    decide +kernel
  exact ⟨read, names_are_kept_in_order read⟩

end TypeProse
