import TypeProse.Description
import TypeProse.Proofs.Lead
import TypeProse.Proofs.Writing

/-!
# Descriptions are unambiguous

A description says which types it is about. The beginning of a phrase shows what it is
about, and behind every phrase inside a description stands the end of a bracket or a joint
to the next phrase, so the types are told one by one. `Joints` holds what joins phrases:
alternatives are joined in another way than the members of a fixed collection, and these
in another way than the types of a whole description.
-/

namespace TypeProse

namespace Prose

/-- What joins phrases: what stands before the last of several, and before each of the
others but the first. -/
structure Joints where
  between : List Char
  final : List Char

/-- The joints of alternatives. -/
def Joints.alternatives : Joints :=
  ⟨", ".toList, " or ".toList⟩

/-- Joints that are all the same. -/
def Joints.uniform (separator : String) : Joints :=
  ⟨separator.toList, separator.toList⟩

/-- What stands before a phrase, behind which there are those of the given types. -/
def Joints.before (joints : Joints) : List TypeExpr → List Char
  | [] => joints.final
  | _ :: _ => joints.between

theorem Joints.before_uniform (separator : String) (types : List TypeExpr) :
    (uniform separator).before types = separator.toList := by
  cases types <;> rfl

/-- The phrases behind the first one, each behind its joint, and what follows them. -/
def joined (joints : Joints) (number : Number) (rest : List Char) : List TypeExpr → List Char
  | [] => rest
  | type :: types =>
      joints.before types ++ ((phrase type number).toList ++ joined joints number rest types)

/-- The phrases with their joints, and what follows them. -/
def listed (joints : Joints) (number : Number) (rest : List Char) : List TypeExpr → List Char
  | [] => rest
  | type :: types => (phrase type number).toList ++ joined joints number rest types

/-- An enumeration has the joints of alternatives. -/
theorem enumerate_append (types : List TypeExpr) (number : Number) (rest : List Char) :
    (enumerate "or" (phrases types number)).toList ++ rest =
      listed .alternatives number rest types := by
  cases types with
  | nil => simp [phrases, enumerate, listed]
  | cons type types =>
      rw [listed]
      induction types generalizing type with
      | nil => simp [phrases, enumerate, joined]
      | cons second types ih =>
          have later := ih second
          cases types with
          | nil => simp [phrases, enumerate, joined, Joints.before, Joints.alternatives]
          | cons third types =>
              rw [joined, ← later]
              simp [phrases, enumerate, Joints.before, Joints.alternatives]

/-- A separator makes all joints the same. -/
theorem intercalate_append (separator : String) (types : List TypeExpr) (number : Number)
    (rest : List Char) :
    (separator.intercalate (phrases types number)).toList ++ rest =
      listed (.uniform separator) number rest types := by
  cases types with
  | nil => simp [phrases, listed]
  | cons type types =>
      rw [listed, String.toList_intercalate]
      induction types generalizing type with
      | nil => simp [phrases, joined]
      | cons second types ih =>
          have later := ih second
          rw [joined, ← later, Joints.before_uniform]
          simp [phrases, List.intercalate_cons_cons]

end Prose

/-- The members of a collection as they are said, and what follows them. -/
def Suffix.inside (rest : List Char) : Suffix → List Char
  | .collection types => Prose.listed .alternatives .plural (')' :: rest) types
  | .fixed types => Prose.listed (.uniform " followed by ") .singular (')' :: rest) types
  | .hash keys values =>
      Prose.listed .alternatives .plural
        (')' :: (" and values of (".toList ++
          Prose.listed .alternatives .plural (')' :: rest) values)) keys

/-- The name that a collection is given is its name. -/
theorem Suffix.name_named (suffix : Suffix) (name : String) : (suffix.named name).name = name := by
  cases suffix <;> rfl

/-- A type is a name on its own, or a collection with a name. -/
theorem TypeExpr.simple_or_named (type : TypeExpr) :
    (∃ name, type = .simple name) ∨ ∃ name, ∃ suffix : Suffix, type = suffix.named name := by
  cases type with
  | simple name => exact .inl ⟨name, rfl⟩
  | collection name types => exact .inr ⟨name, .collection types, rfl⟩
  | fixedCollection name types => exact .inr ⟨name, .fixed types, rfl⟩
  | hashCollection name keys values => exact .inr ⟨name, .hash keys values, rfl⟩

namespace Prose

open TypeExpr

/-- The phrase for a collection begins with an article and the name. -/
theorem phrase_named_append (suffix : Suffix) (name : String) (number : Number)
    (rest : List Char) :
    (phrase (suffix.named name) number).toList ++ rest =
      (article name).toList ++
        ' ' :: (name.toList ++ (suffix.opening ++ suffix.inside rest)) := by
  cases suffix <;>
    simp only [Suffix.named, Suffix.inside, phrase, ← enumerate_append, ← intercalate_append,
      String.toList_append, List.append_assoc] <;>
    rfl

/-- What the beginning of the phrase for a type shows of the type. -/
def leadOfType : TypeExpr → Lead
  | .simple name => .alone name.toList
  | .collection name _ => .collection name.toList
  | .fixedCollection name _ => .collection name.toList
  | .hashCollection name _ _ => .collection name.toList

theorem leadOfType_named (suffix : Suffix) (name : String) :
    leadOfType (suffix.named name) = .collection name.toList := by
  cases suffix <;> rfl

/-- What a type is about is read off its phrase. -/
theorem lead_phrase {type : TypeExpr} {number : Number} {rest : List Char}
    (isName : IsName type.name.toList) (ends : EndsPhrase rest) :
    lead number ((phrase type number).toList ++ rest) = leadOfType type := by
  rcases type.simple_or_named with ⟨name, rfl⟩ | ⟨name, suffix, rfl⟩
  · rw [phrase]
    exact lead_namePhrase isName ends number
  · rw [Suffix.name_named] at isName
    rw [phrase_named_append, leadOfType_named]
    exact lead_collection isName number suffix _

/-- The last of several alternatives is not taken for what opens a bracket. -/
theorem opens_phrase {type : TypeExpr} (isName : IsName type.name.toList) (rest : List Char) :
    opens (' ' :: ((phrase type .plural).toList ++ ')' :: rest)) = false := by
  rcases type.simple_or_named with ⟨name, rfl⟩ | ⟨name, suffix, rfl⟩
  · rw [phrase]
    exact opens_namePhrase isName rest
  · rw [phrase_named_append, Bool.eq_false_iff]
    intro opened
    have word := (word_of_opens (isRun_article name) rfl opened).1
    revert word
    unfold article
    split <;> decide

/-- Joints between phrases, and what follows the phrases, that show where each phrase ends
and whether another one comes. -/
structure Joints.Divide (joints : Joints) (number : Number) (rest : List Char) : Prop where
  ends : EndsPhrase rest
  between : ∀ back, EndsPhrase (joints.between ++ back)
  final : ∀ type : TypeExpr, IsName type.name.toList →
    EndsPhrase (joints.final ++ ((phrase type number).toList ++ rest))
  before_inj : ∀ types types' back back',
    joints.before types ++ back = joints.before types' ++ back' → back = back'
  before_ne : ∀ types back, joints.before types ++ back ≠ rest

theorem divide_alternatives (rest : List Char) :
    Joints.alternatives.Divide .plural (')' :: rest) where
  ends := .bracket
  between _ := .comma
  final _ isName := .alternative (opens_phrase isName rest)
  before_inj types types' back back' same := by
    cases types <;> cases types' <;> simp_all [Joints.before, Joints.alternatives]
  before_ne types back same := by
    cases types <;> simp [Joints.before, Joints.alternatives] at same

theorem divide_sequence (number : Number) (rest : List Char) :
    (Joints.uniform " followed by ").Divide number (')' :: rest) where
  ends := .bracket
  between _ := .followed
  final _ _ := .followed
  before_inj types types' back back' same := by simpa [Joints.before_uniform] using same
  before_ne types back same := by simp [Joints.before_uniform] at same

theorem divide_separate (number : Number) : (Joints.uniform defaultSeparator).Divide number [] where
  ends := .done
  between _ := .semicolon
  final _ _ := .semicolon
  before_inj types types' back back' same := by simpa [Joints.before_uniform] using same
  before_ne types back same := by simp [Joints.before_uniform, defaultSeparator] at same

/-- Whether the phrase for a type tells it apart from all other types. -/
def Tells (type : TypeExpr) : Prop :=
  ∀ ⦃type' : TypeExpr⦄ ⦃number : Number⦄ ⦃rest rest' : List Char⦄,
    (∀ inner ∈ type'.walk, inner.IsRegular) → EndsPhrase rest → EndsPhrase rest' →
      (phrase type number).toList ++ rest = (phrase type' number).toList ++ rest' →
      type = type' ∧ rest = rest'

theorem isName_of_regular {type : TypeExpr} (regular : ∀ inner ∈ type.walk, inner.IsRegular) :
    IsName type.name.toList :=
  (regular type (by rw [walk_eq]; exact .head _)).1

section

variable {joints : Joints} {number : Number} {rest rest' : List Char}
  {types types' : List TypeExpr}

theorem Joints.Divide.ends_joined (divide : joints.Divide number rest)
    (regular : ∀ inner ∈ walkAll types, inner.IsRegular) :
    EndsPhrase (joined joints number rest types) := by
  match types with
  | [] => exact divide.ends
  | [type] =>
      simp only [walkAll, List.append_nil] at regular
      exact divide.final type (isName_of_regular regular)
  | type :: second :: types => exact divide.between _

/-- Types whose phrases tell them apart are told apart in a list. -/
theorem listed_inj (divide : joints.Divide number rest) (divide' : joints.Divide number rest')
    (tells : ∀ type ∈ types, Tells type) (regular : ∀ inner ∈ walkAll types, inner.IsRegular)
    (regular' : ∀ inner ∈ walkAll types', inner.IsRegular) (filled : types ≠ [])
    (filled' : types' ≠ [])
    (same : listed joints number rest types = listed joints number rest' types') :
    types = types' ∧ rest = rest' := by
  induction types generalizing types' with
  | nil => exact absurd rfl filled
  | cons type types ih =>
      obtain ⟨type', types', rfl⟩ := List.exists_cons_of_ne_nil filled'
      simp only [walkAll, List.forall_mem_append] at regular regular'
      obtain ⟨first, others⟩ := List.forall_mem_cons.1 tells
      obtain ⟨rfl, behind⟩ := first regular'.1 (divide.ends_joined regular.2)
        (divide'.ends_joined regular'.2) same
      -- What stands behind the first phrase shows whether another one comes.
      cases types with
      | nil =>
          cases types' with
          | nil => exact ⟨rfl, behind⟩
          | cons => exact absurd behind.symm (divide.before_ne _ _)
      | cons =>
          cases types' with
          | nil => exact absurd behind (divide'.before_ne _ _)
          | cons =>
              have later := divide.before_inj _ _ _ _ behind
              obtain ⟨equal, ended⟩ := ih others regular.2 regular'.2 (by simp) (by simp) later
              exact ⟨by rw [equal], ended⟩

end

/-- Types with the same phrase begin it in the same way. -/
theorem leadOfType_eq {type type' : TypeExpr} {number : Number} {rest rest' : List Char}
    (regular : ∀ inner ∈ type.walk, inner.IsRegular)
    (regular' : ∀ inner ∈ type'.walk, inner.IsRegular) (ends : EndsPhrase rest)
    (ends' : EndsPhrase rest')
    (same : (phrase type number).toList ++ rest = (phrase type' number).toList ++ rest') :
    leadOfType type = leadOfType type' := by
  rw [← lead_phrase (isName_of_regular regular) ends, same,
    lead_phrase (isName_of_regular regular') ends']

/-- A name on its own is told by its phrase. -/
theorem tells_simple {name : String}
    (regular : ∀ inner ∈ (TypeExpr.simple name).walk, inner.IsRegular) :
    Tells (.simple name) := by
  intro type' number rest rest' regular' ends ends' same
  have leads := leadOfType_eq regular regular' ends ends' same
  cases type' with
  | simple name' =>
      obtain rfl : name = name' := String.toList_inj.1 (Lead.alone.inj leads)
      exact ⟨rfl, List.append_cancel_left same⟩
  | collection | fixedCollection | hashCollection => cases leads

/-- Collections of one sort with one name are told by what is said of their members. -/
theorem inside_inj {suffix suffix' : Suffix} {name : String} {rest rest' : List Char}
    (regular : ∀ inner ∈ (suffix.named name).walk, inner.IsRegular)
    (regular' : ∀ inner ∈ (suffix'.named name).walk, inner.IsRegular)
    (tells : ∀ list ∈ (suffix.named name).memberLists, ∀ type ∈ list, Tells type)
    (bracket : suffix.bracket = suffix'.bracket)
    (same : suffix.inside rest = suffix'.inside rest') : suffix = suffix' ∧ rest = rest' := by
  match suffix, suffix' with
  | .collection types, .collection types' =>
      simp only [Suffix.named, walk, List.forall_mem_cons] at regular regular'
      obtain ⟨⟨-, filled⟩, members⟩ := regular
      obtain ⟨⟨-, filled'⟩, members'⟩ := regular'
      obtain ⟨rfl, equal⟩ := listed_inj (divide_alternatives rest) (divide_alternatives rest')
        (tells _ (.head _)) members members' (filled _ (.head _)) (filled' _ (.head _)) same
      exact ⟨rfl, (List.cons.inj equal).2⟩
  | .fixed types, .fixed types' =>
      simp only [Suffix.named, walk, List.forall_mem_cons] at regular regular'
      obtain ⟨⟨-, filled⟩, members⟩ := regular
      obtain ⟨⟨-, filled'⟩, members'⟩ := regular'
      obtain ⟨rfl, equal⟩ := listed_inj (divide_sequence _ rest) (divide_sequence _ rest')
        (tells _ (.head _)) members members' (filled _ (.head _)) (filled' _ (.head _)) same
      exact ⟨rfl, (List.cons.inj equal).2⟩
  | .hash keys values, .hash keys' values' =>
      simp only [Suffix.named, walk, List.forall_mem_cons, List.forall_mem_append]
        at regular regular'
      obtain ⟨⟨-, filled⟩, inKeys, inValues⟩ := regular
      obtain ⟨⟨-, filled'⟩, inKeys', inValues'⟩ := regular'
      obtain ⟨rfl, behind⟩ := listed_inj (divide_alternatives _) (divide_alternatives _)
        (tells _ (.head _)) inKeys inKeys' (filled _ (.head _)) (filled' _ (.head _)) same
      rw [List.cons.injEq, List.append_cancel_left_eq] at behind
      obtain ⟨rfl, equal⟩ := listed_inj (divide_alternatives rest) (divide_alternatives rest')
        (tells _ (.tail _ (.head _))) inValues inValues' (filled _ (.tail _ (.head _)))
        (filled' _ (.tail _ (.head _))) behind.2
      exact ⟨rfl, (List.cons.inj equal).2⟩

/-- A collection is told by its phrase if its members are told by theirs. -/
theorem tells_named {suffix : Suffix} {name : String}
    (regular : ∀ inner ∈ (suffix.named name).walk, inner.IsRegular)
    (tells : ∀ list ∈ (suffix.named name).memberLists, ∀ type ∈ list, Tells type) :
    Tells (suffix.named name) := by
  intro type' number rest rest' regular' ends ends' same
  have leads := leadOfType_eq regular regular' ends ends' same
  rw [leadOfType_named] at leads
  rcases type'.simple_or_named with ⟨name', rfl⟩ | ⟨name', suffix', rfl⟩
  · cases leads
  · rw [leadOfType_named] at leads
    obtain rfl : name = name' := String.toList_inj.1 (Lead.collection.inj leads)
    simp only [phrase_named_append, List.append_cancel_left_eq, List.cons.injEq, true_and] at same
    obtain ⟨bracket, inside⟩ := opening_append_inj same
    obtain ⟨rfl, equal⟩ := inside_inj regular regular' tells bracket inside
    exact ⟨rfl, equal⟩

mutual

/-- A regular type is told by its phrase. -/
theorem tells : (type : TypeExpr) → (∀ inner ∈ type.walk, inner.IsRegular) → Tells type
  | .simple name, regular => tells_simple regular
  | .collection name types, regular => by
      have members := tellsAll types (List.forall_mem_cons.1 regular).2
      exact @tells_named (.collection types) name regular (List.forall_mem_singleton.2 members)
  | .fixedCollection name types, regular => by
      have members := tellsAll types (List.forall_mem_cons.1 regular).2
      exact @tells_named (.fixed types) name regular (List.forall_mem_singleton.2 members)
  | .hashCollection name keys values, regular => by
      obtain ⟨inKeys, inValues⟩ := List.forall_mem_append.1 (List.forall_mem_cons.1 regular).2
      exact @tells_named (.hash keys values) name regular (List.forall_mem_cons.2
        ⟨tellsAll keys inKeys, List.forall_mem_singleton.2 (tellsAll values inValues)⟩)

theorem tellsAll : (types : List TypeExpr) → (∀ inner ∈ walkAll types, inner.IsRegular) →
    ∀ type ∈ types, Tells type
  | [], _ => by simp
  | type :: types, regular => by
      simp only [walkAll, List.forall_mem_append] at regular
      exact List.forall_mem_cons.2 ⟨tells type regular.1, tellsAll types regular.2⟩

end

/-- Something is said of every list that has a type in it. -/
theorem listed_ne_nil {joints : Joints} {number : Number} {type : TypeExpr}
    {types : List TypeExpr} (divide : joints.Divide number [])
    (regular : ∀ inner ∈ walkAll (type :: types), inner.IsRegular) :
    listed joints number [] (type :: types) ≠ [] := by
  simp only [walkAll, List.forall_mem_append] at regular
  have isName := isName_of_regular regular.1
  intro none
  have leads : leadOfType type = lead number [] := by
    rw [← lead_phrase isName (divide.ends_joined regular.2)]
    exact congrArg _ none
  have nameless : lead number [] = .alone [] := by cases number <;> rfl
  rw [nameless] at leads
  cases type with
  | simple name => exact isName.ne_nil (Lead.alone.inj leads)
  | collection | fixedCollection | hashCollection => cases leads

/-- A description says which types it is about. -/
theorem eq_of_describeAll_eq {types types' : List TypeExpr} {number : Number}
    (regular : ∀ inner ∈ walkAll types, inner.IsRegular)
    (regular' : ∀ inner ∈ walkAll types', inner.IsRegular)
    (same : describeAll types defaultSeparator number =
      describeAll types' defaultSeparator number) : types = types' := by
  have divide := divide_separate number
  have listed_eq : listed (.uniform defaultSeparator) number [] types =
      listed (.uniform defaultSeparator) number [] types' := by
    rw [← intercalate_append, ← intercalate_append]
    exact congrArg (·.toList ++ []) same
  match types, types' with
  | [], [] => rfl
  | [], _ :: _ => exact absurd listed_eq.symm (listed_ne_nil divide regular')
  | _ :: _, [] => exact absurd listed_eq (listed_ne_nil divide regular)
  | type :: types, _ :: _ =>
      exact (listed_inj divide divide (tellsAll (type :: types) regular) regular regular'
        (by simp) (by simp) listed_eq).1

end Prose

open TypeExpr

/-- Types that are read are regular throughout. -/
theorem regular_of_parse_eq {text source : String} {types : List TypeExpr}
    (read : parse text source = .ok types) : ∀ inner ∈ walkAll types, inner.IsRegular := by
  have formed := wellFormed_of_parse_eq read
  exact fun inner inside => ⟨formed.named inner inside, formed.peopled inner inside⟩

/-- Texts of which the same is said are read as the same types. Of lists of types in which
every name is one and no list inside a type is empty, no two are described alike. -/
theorem description_determines_types (number : Prose.Number) :
    (∀ text text' types types', parse text unnamedSource = .ok types →
      parse text' unnamedSource = .ok types' →
      describe text defaultSeparator number = describe text' defaultSeparator number →
      types = types') ∧
    ∀ types types', (∀ inner ∈ walkAll types, inner.IsRegular) →
      (∀ inner ∈ walkAll types', inner.IsRegular) →
      Prose.describeAll types defaultSeparator number =
        Prose.describeAll types' defaultSeparator number →
      types = types' := by
  refine ⟨fun text text' types types' read read' same => ?_,
    fun types types' regular regular' same => Prose.eq_of_describeAll_eq regular regular' same⟩
  have said : Prose.describeAll types defaultSeparator number =
      Prose.describeAll types' defaultSeparator number := by
    simpa only [describe, read, read', Except.map, Except.ok.injEq] using same
  exact Prose.eq_of_describeAll_eq (regular_of_parse_eq read) (regular_of_parse_eq read') said

/-- The constants `an` and `of` as alternatives, in two spellings, and a collection with the
name `or` in their place. -/
theorem description_of_colliding_words :
    describe "<an, of>" defaultSeparator .singular = .ok "an Array of (an or of)" ∧
    describe " Array < an; of > " defaultSeparator .singular = .ok "an Array of (an or of)" ∧
    parse "<an, of>" unnamedSource = parse " Array < an; of > " unnamedSource ∧
    Prose.describeAll [.collection "Array" [.simple "an", .simple "of"]] defaultSeparator .plural ≠
      Prose.describeAll [.collection "Array" [.collection "or" [.simple "x"]]] defaultSeparator
        .plural := by
  have said : describe "<an, of>" defaultSeparator .singular = .ok "an Array of (an or of)" := by
    decide +kernel
  have said' : describe " Array < an; of > " defaultSeparator .singular =
      .ok "an Array of (an or of)" := by
    decide +kernel
  have read : parse "<an, of>" unnamedSource =
      .ok [.collection "Array" [.simple "an", .simple "of"]] := by
    decide +kernel
  have other : parse "<or<x>>" unnamedSource =
      .ok [.collection "Array" [.collection "or" [.simple "x"]]] := by
    decide +kernel
  obtain ⟨types', read'⟩ : ∃ types, parse " Array < an; of > " unnamedSource = .ok types :=
    ⟨[.collection "Array" [.simple "an", .simple "of"]], by decide +kernel⟩
  have equal :=
    (description_determines_types .singular).1 _ _ _ _ read read' (said.trans said'.symm)
  refine ⟨said, said', by rw [read, read', equal], fun same => ?_⟩
  have merged := (description_determines_types .plural).2 _ _ (regular_of_parse_eq read)
    (regular_of_parse_eq other) same
  exact absurd merged (by decide)

end TypeProse
