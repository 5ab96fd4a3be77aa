import TypeProse.Proofs.Independence
import TypeProse.Proofs.Lead
import TypeProse.Proofs.Writing
import TypeProse.TypeExpr.Outline

/-!
# Outlines are unambiguous

An outline shows which types it is about, whatever their names are. How many spaces a line
begins with (`margin`) depends on the indentation only, because no space stands before the sort of
a type or in a heading. So the lines of a list of types end where a line is further to the left
(`GoesOnLeft`), and the sort and the name are told by the rest of a line. Names of types that are
read have no line feed and no escape character in them, so for these the same holds of the lines
that are printed.
-/

namespace TypeProse

namespace TypeExpr

open Prose

/-- How many spaces a line begins with. -/
def margin (line : String) : Nat :=
  (line.toList.takeWhile (· == ' ')).length

/-- The lines go on to the left of that indentation: there are none, or the first has a smaller
margin. -/
def GoesOnLeft (indent : Int) (lines : List String) : Prop :=
  ∀ line ∈ lines.head?, margin line < 2 * indent.toNat

/-- The lines below the line of a type itself. -/
def inset : TypeExpr → Int → List String
  | .simple _, _ => []
  | .collection _ types, indent => outlineAll types (indent + 1)
  | .fixedCollection _ types, indent => outlineAll types (indent + 1)
  | .hashCollection _ keys values, indent =>
      (pad indent ++ "  keys:") :: outlineAll keys (indent + 2) ++
        (pad indent ++ "  values:") :: outlineAll values (indent + 2)

/-- An outline is the line of the type and the lines below it. -/
theorem outline_eq (type : TypeExpr) (indent : Int) :
    type.outline indent = outlineHead type indent :: type.inset indent := by
  cases type <;> simp [outline, inset]

section Lines

variable {type type' : TypeExpr} {indent : Int} {rest rest' : List String}

/-- A line is moved to the right as far as it is indented. -/
theorem margin_pad_append (indent : Int) (line : String) :
    margin (pad indent ++ line) = 2 * indent.toNat + margin line := by
  have spaces : ∀ char ∈ List.replicate (2 * indent.toNat) ' ', (char == ' ') = true := by
    intro char inside
    rw [List.eq_of_mem_replicate inside]
    rfl
  rw [margin, String.toList_append, pad, String.toList_ofList,
    List.takeWhile_append_of_pos spaces, List.length_append, List.length_replicate]
  rfl

theorem margin_outlineHead (type : TypeExpr) (indent : Int) :
    margin (outlineHead type indent) = 2 * indent.toNat := by
  have first : margin (type.label ++ (" " ++ type.name)) = 0 := by
    cases type <;> simp [margin, label]
  rw [outlineHead, String.append_assoc, String.append_assoc, margin_pad_append, first]
  rfl

/-- The sort of a type is one word. -/
theorem isRun_label (type : TypeExpr) : IsRun type.label.toList := by
  cases type with
  | simple | collection | fixedCollection | hashCollection =>
      rw [label]
      decide

/-- The line of a type shows its sort and its name, even if the name has spaces in it. -/
theorem outlineHead_inj (same : outlineHead type indent = outlineHead type' indent) :
    type.label = type'.label ∧ type.name = type'.name := by
  have chars := congrArg String.toList same
  simp only [outlineHead, String.toList_append, List.append_assoc, List.append_cancel_left_eq]
    at chars
  obtain ⟨labels, names⟩ := run_append_inj (isRun_label type) (isRun_label type') rfl rfl chars
  exact ⟨String.toList_inj.1 labels, String.toList_inj.1 (List.append_cancel_left names)⟩

/-- What follows the first line of an outline follows it in the other. -/
theorem outline_cons_inj (same : type.outline indent ++ rest = type'.outline indent ++ rest') :
    type.label = type'.label ∧ type.name = type'.name ∧
      type.inset indent ++ rest = type'.inset indent ++ rest' := by
  rw [outline_eq, outline_eq, List.cons_append, List.cons_append] at same
  obtain ⟨heads, below⟩ := List.cons.inj same
  obtain ⟨labels, names⟩ := outlineHead_inj heads
  exact ⟨labels, names, below⟩

theorem GoesOnLeft.mono {further : Int} (ends : GoesOnLeft indent rest) (right : indent ≤ further) :
    GoesOnLeft further rest := by
  intro line first
  have left := ends line first
  omega

/-- A list of types that is not indented further ends the list before it. -/
theorem goesOnLeft_outlineAll_append (right : 0 ≤ indent) (types : List TypeExpr)
    (ends : GoesOnLeft indent rest) :
    GoesOnLeft (indent + 1) (outlineAll types indent ++ rest) := by
  cases types with
  | nil => exact ends.mono (by omega)
  | cons type types =>
      rw [outlineAll, outline_eq]
      intro line first
      obtain rfl : outlineHead type indent = line := by simpa using first
      rw [margin_outlineHead]
      omega

/-- No list of types ends with a type that is indented like it. -/
theorem not_goesOnLeft_outline_append : ¬ GoesOnLeft indent (type.outline indent ++ rest) := by
  intro ends
  rw [outline_eq] at ends
  have left := ends _ rfl
  rw [margin_outlineHead] at left
  omega

/-- The heading of the values ends the list of the keys. -/
theorem goesOnLeft_values (right : 0 ≤ indent) :
    GoesOnLeft (indent + 2) ((pad indent ++ "  values:") :: rest) := by
  intro line first
  obtain rfl : pad indent ++ "  values:" = line := by simpa using first
  have heading : margin "  values:" = 2 := by decide
  rw [margin_pad_append, heading]
  omega

end Lines

mutual

/-- The lines of a type show which type it is, and where they end. -/
theorem outline_append_inj : (type : TypeExpr) → ∀ {type' indent rest rest'}, 0 ≤ indent →
    GoesOnLeft (indent + 1) rest → GoesOnLeft (indent + 1) rest' →
    type.outline indent ++ rest = type'.outline indent ++ rest' → type = type' ∧ rest = rest'
  | .simple name, type', indent, rest, rest', right, ends, ends', same => by
      obtain ⟨labels, rfl, below⟩ := outline_cons_inj same
      cases type' with
      | simple name' => exact ⟨rfl, below⟩
      | collection | fixedCollection | hashCollection => simp [label] at labels
  | .collection name types, type', indent, rest, rest', right, ends, ends', same => by
      obtain ⟨labels, rfl, below⟩ := outline_cons_inj same
      cases type' with
      | collection name' types' =>
          obtain ⟨rfl, rest⟩ := outlineAll_append_inj types (by omega) ends ends' below
          exact ⟨rfl, rest⟩
      | simple | fixedCollection | hashCollection => simp [label] at labels
  | .fixedCollection name types, type', indent, rest, rest', right, ends, ends', same => by
      obtain ⟨labels, rfl, below⟩ := outline_cons_inj same
      cases type' with
      | fixedCollection name' types' =>
          obtain ⟨rfl, rest⟩ := outlineAll_append_inj types (by omega) ends ends' below
          exact ⟨rfl, rest⟩
      | simple | collection | hashCollection => simp [label] at labels
  | .hashCollection name keys values, type', indent, rest, rest', right, ends, ends', same => by
      obtain ⟨labels, rfl, below⟩ := outline_cons_inj same
      cases type' with
      | hashCollection name' keys' values' =>
          simp only [inset, List.cons_append, List.append_assoc, List.cons.injEq, true_and]
            at below
          -- The heading of the values is to the left of the keys, and so the keys end there.
          obtain ⟨rfl, behind⟩ := outlineAll_append_inj keys (by omega) (goesOnLeft_values right)
            (goesOnLeft_values right) below
          obtain ⟨rfl, rest⟩ := outlineAll_append_inj values (by omega) (ends.mono (by omega))
            (ends'.mono (by omega)) (List.cons.inj behind).2
          exact ⟨rfl, rest⟩
      | simple | collection | fixedCollection => simp [label] at labels

/-- The lines of several types show which types they are, and where they end. -/
theorem outlineAll_append_inj : (types : List TypeExpr) → ∀ {types' indent rest rest'},
    0 ≤ indent → GoesOnLeft indent rest → GoesOnLeft indent rest' →
    outlineAll types indent ++ rest = outlineAll types' indent ++ rest' →
    types = types' ∧ rest = rest'
  | [], [], indent, rest, rest', right, ends, ends', same => ⟨rfl, same⟩
  | [], type' :: types', indent, rest, rest', right, ends, ends', same => by
      obtain rfl : rest = outlineAll (type' :: types') indent ++ rest' := same
      rw [outlineAll, List.append_assoc] at ends
      exact absurd ends not_goesOnLeft_outline_append
  | type :: types, [], indent, rest, rest', right, ends, ends', same => by
      obtain rfl : outlineAll (type :: types) indent ++ rest = rest' := same
      rw [outlineAll, List.append_assoc] at ends'
      exact absurd ends' not_goesOnLeft_outline_append
  | type :: types, type' :: types', indent, rest, rest', right, ends, ends', same => by
      -- Behind the first type the others follow, which are not further to the right than it is.
      rw [outlineAll, outlineAll, List.append_assoc, List.append_assoc] at same
      obtain ⟨rfl, behind⟩ := outline_append_inj type right
        (goesOnLeft_outlineAll_append right types ends)
        (goesOnLeft_outlineAll_append right types' ends') same
      obtain ⟨rfl, rest⟩ := outlineAll_append_inj types right ends ends' behind
      exact ⟨rfl, rest⟩

end

/-- No two lists of types have the same outline. -/
theorem outlineAll_inj {types types' : List TypeExpr} {indent : Int} (right : 0 ≤ indent) :
    outlineAll types indent = outlineAll types' indent ↔ types = types' := by
  constructor
  · intro same
    have none : GoesOnLeft indent [] := by simp [GoesOnLeft]
    refine (outlineAll_append_inj types right none none ?_).1
    rw [List.append_nil, List.append_nil, same]
  · rintro rfl
    rfl

/-- With a negative indentation, members are not always further to the right. -/
example : outlineAll [.collection "A" [.simple "b"]] (-1) =
    outlineAll [.collection "A" [], .simple "b"] (-1) := by
  decide

/-- The characters of a line are those of names and spaces. -/
def IsPlain (line : String) : Prop :=
  ∀ char ∈ line.toList, isNameChar char = true ∨ char = ' '

theorem isPlain_of_isRun {line : String} (isRun : IsRun line.toList) : IsPlain line :=
  fun char inside => .inl (isRun char inside)

theorem IsPlain.append {front back : String} (plain : IsPlain front) (plain' : IsPlain back) :
    IsPlain (front ++ back) := by
  intro char inside
  rw [String.toList_append] at inside
  rcases List.mem_append.1 inside with before | behind
  · exact plain char before
  · exact plain' char behind

theorem isPlain_pad (indent : Int) : IsPlain (pad indent) := by
  intro char inside
  rw [pad, String.toList_ofList] at inside
  exact .inr (List.eq_of_mem_replicate inside)

/-- A line feed and an escape character are not plain. -/
theorem IsPlain.free {line : String} (plain : IsPlain line) :
    '\n' ∉ line.toList ∧ '\x1b' ∉ line.toList := by
  constructor
  · intro inside
    exact absurd (plain _ inside) (by decide)
  · intro inside
    exact absurd (plain _ inside) (by decide)

theorem isPlain_outlineHead {type : TypeExpr} (isRun : IsRun type.name.toList) (indent : Int) :
    IsPlain (outlineHead type indent) := by
  have space : IsPlain " " := by
    intro char inside
    exact .inr (by simpa using inside)
  exact (((isPlain_pad indent).append (isPlain_of_isRun (isRun_label type))).append space).append
    (isPlain_of_isRun isRun)

/-- Headings are plain. -/
theorem isPlain_heading (word : String) (isRun : IsRun word.toList) (indent : Int) :
    IsPlain (pad indent ++ ("  " ++ word)) := by
  have spaces : IsPlain "  " := by
    intro char inside
    exact .inr (by simpa using inside)
  exact (isPlain_pad indent).append (spaces.append (isPlain_of_isRun isRun))

mutual

/-- If all names are made of the characters of names, all lines of an outline are plain. -/
theorem isPlain_outline : (type : TypeExpr) →
    (∀ inner ∈ type.walk, IsRun inner.name.toList) → ∀ indent, ∀ line ∈ type.outline indent,
    IsPlain line
  | .simple name, named, indent => by
      have head := isPlain_outlineHead (named _ (.head _)) indent
      exact List.forall_mem_singleton.2 head
  | .collection name types, named, indent => by
      have head := isPlain_outlineHead (named _ (.head _)) indent
      have inner := isPlain_outlineAll types (List.forall_mem_cons.1 named).2 (indent + 1)
      exact List.forall_mem_cons.2 ⟨head, inner⟩
  | .fixedCollection name types, named, indent => by
      have head := isPlain_outlineHead (named _ (.head _)) indent
      have inner := isPlain_outlineAll types (List.forall_mem_cons.1 named).2 (indent + 1)
      exact List.forall_mem_cons.2 ⟨head, inner⟩
  | .hashCollection name keys values, named, indent => by
      have head := isPlain_outlineHead (named _ (.head _)) indent
      obtain ⟨inKeys, inValues⟩ := List.forall_mem_append.1 (List.forall_mem_cons.1 named).2
      have forKeys : IsPlain (pad indent ++ "  keys:") :=
        isPlain_heading "keys:" (by decide) indent
      have forValues : IsPlain (pad indent ++ "  values:") :=
        isPlain_heading "values:" (by decide) indent
      have first := isPlain_outlineAll keys inKeys (indent + 2)
      have second := isPlain_outlineAll values inValues (indent + 2)
      exact List.forall_mem_cons.2 ⟨head, List.forall_mem_append.2
        ⟨List.forall_mem_cons.2 ⟨forKeys, first⟩, List.forall_mem_cons.2 ⟨forValues, second⟩⟩⟩

theorem isPlain_outlineAll : (types : List TypeExpr) →
    (∀ inner ∈ walkAll types, IsRun inner.name.toList) → ∀ indent, ∀ line ∈ outlineAll types indent,
    IsPlain line
  | [], _, _ => by simp [outlineAll]
  | type :: types, named, indent => by
      obtain ⟨inFirst, inOthers⟩ := List.forall_mem_append.1 named
      exact List.forall_mem_append.2
        ⟨isPlain_outline type inFirst indent, isPlain_outlineAll types inOthers indent⟩

end

end TypeExpr

namespace Text

/-- Lines without line feeds are told apart in the text that they make up. -/
theorem intercalate_inj {lines lines' : List String}
    (unbroken : ∀ line ∈ lines, '\n' ∉ line.toList) (filled : lines ≠ [])
    (unbroken' : ∀ line ∈ lines', '\n' ∉ line.toList) (filled' : lines' ≠ []) :
    "\n".intercalate lines = "\n".intercalate lines' ↔ lines = lines' := by
  have split : ∀ {lines : List String}, (∀ line ∈ lines, '\n' ∉ line.toList) → lines ≠ [] →
      ("\n".intercalate lines).toList.splitOn '\n' = lines.map String.toList := by
    intro lines unbroken filled
    rw [String.toList_intercalate]
    exact List.splitOn_intercalate '\n' (by simpa using unbroken) (by simpa using filled)
  constructor
  · intro same
    have chars : lines.map String.toList = lines'.map String.toList := by
      rw [← split unbroken filled, same, split unbroken' filled']
    exact List.map_injective_iff.2 (fun _ _ => String.toList_inj.1) chars
  · rintro rfl
    rfl

/-- A character of the text is in what joins the lines, or it is in one of them. -/
theorem mem_intercalate {separator : String} {lines : List String} {char : Char}
    (inside : char ∈ (separator.intercalate lines).toList) :
    char ∈ separator.toList ∨ ∃ line ∈ lines, char ∈ line.toList := by
  rw [String.toList_intercalate] at inside
  induction lines with
  | nil => simp at inside
  | cons first others ih =>
      cases others with
      | nil => exact .inr ⟨first, .head _, by simpa using inside⟩
      | cons second others =>
          rw [List.map_cons, List.map_cons, List.intercalate_cons_cons, ← List.map_cons] at inside
          rcases List.mem_append.1 inside with before | behind
          · rcases List.mem_append.1 before with within | joint
            · exact .inr ⟨first, .head _, within⟩
            · exact .inl joint
          · refine (ih behind).imp_right ?_
            rintro ⟨line, member, within⟩
            exact ⟨line, .tail _ member, within⟩

/-- Where no escape character is, nothing is taken out. -/
theorem withoutEscapes_eq_self {chars : List Char} (free : '\x1b' ∉ chars) :
    withoutEscapes chars = chars := by
  refine removes_iff_withoutEscapes.1 ?_
  induction chars with
  | nil => exact .done
  | cons char rest ih =>
      obtain ⟨first, others⟩ : '\x1b' ≠ char ∧ '\x1b' ∉ rest := by simpa using free
      refine .kept ?_ (ih others)
      rintro found after ⟨-, -, -⟩ whole
      exact first (List.cons.inj whole).1.symm

end Text

open TypeExpr

section Read

variable {text text' source source' : String} {types types' : List TypeExpr}

/-- The outline of types that are read is plain. -/
theorem isPlain_of_parse_eq (read : parse text source = .ok types) (indent : Int) :
    ∀ line ∈ outlineAll types indent, IsPlain line := by
  have named := (wellFormed_of_parse_eq read).named
  exact isPlain_outlineAll types (fun inner inside => Prose.isRun_of_isName (named inner inside))
    indent

/-- Types that are read are told apart by the text of their outline. -/
theorem intercalate_outlineAll_inj (read : parse text source = .ok types)
    (read' : parse text' source' = .ok types') {indent : Int} (right : 0 ≤ indent) :
    "\n".intercalate (outlineAll types indent) = "\n".intercalate (outlineAll types' indent) ↔
      types = types' := by
  have plain := isPlain_of_parse_eq read indent
  have plain' := isPlain_of_parse_eq read' indent
  have lines := outlineAll_ne_nil (wellFormed_of_parse_eq read).filled indent
  have lines' := outlineAll_ne_nil (wellFormed_of_parse_eq read').filled indent
  rw [Text.intercalate_inj (fun line inside => (plain line inside).free.1) lines
    (fun line inside => (plain' line inside).free.1) lines', outlineAll_inj right]

end Read

namespace Command

open Text

/-- The outline of types that are read is printed as it is. -/
theorem stdout_outputFor_tree {settings : Settings} (tree : settings.tree = true) {text : String}
    {types : List TypeExpr} (read : parse text textSource = .ok types) :
    (settings.outputFor [text]).stdout = "\n".intercalate (outlineAll types 0) ++ "\n" := by
  have free : '\x1b' ∉ ("\n".intercalate (outlineAll types 0)).toList := by
    intro inside
    rcases mem_intercalate inside with feed | ⟨line, member, within⟩
    · exact absurd feed (by decide)
    · exact (isPlain_of_parse_eq read 0 line member).free.2 within
  have kept : stripEscapes ("\n".intercalate (outlineAll types 0)) =
      "\n".intercalate (outlineAll types 0) := by
    rw [stripEscapes, withoutEscapes_eq_self free, String.ofList_toList]
  have result : (readText text textSource).result = .ok types := read
  simp [Settings.outputFor, Settings.outcome, result, Settings.show, tree, kept]

end Command

open Command

/-- The outline determines the types. For all lists of types, whatever their names are and even
where lists inside them are empty, the outlines with an indentation are equal exactly when the
types are. For types that are read the same holds of the text that the lines make up, and so of
what the command prints if it is asked for outlines. -/
theorem outline_determines_types (types types' : List TypeExpr) (indent : Int)
    (right : 0 ≤ indent) :
    (outlineAll types indent = outlineAll types' indent ↔ types = types') ∧
    (∀ text text' source source', parse text source = .ok types →
      parse text' source' = .ok types' →
      ("\n".intercalate (outlineAll types indent) = "\n".intercalate (outlineAll types' indent) ↔
        types = types')) ∧
    ∀ options settings environment content text text', Asks options settings →
      settings.tree = true → settings.content? environment = some content →
      parse text textSource = .ok types → parse text' textSource = .ok types' →
      ((run (options ++ ["--", text]) environment).stdout =
        (run (options ++ ["--", text']) environment).stdout ↔ types = types') := by
  refine ⟨outlineAll_inj right, ?_, ?_⟩
  · intro text text' source source' read read'
    exact intercalate_outlineAll_inj read read' right
  · intro options settings environment content text text' asks tree readable read read'
    rw [asks.run_append readable (List.cons_ne_nil text []),
      asks.run_append readable (List.cons_ne_nil text' []), stdout_outputFor_tree tree read,
      stdout_outputFor_tree tree read', String.append_left_inj,
      intercalate_outlineAll_inj read read' (Int.le_refl 0)]

/-- Members that are told from neighbours: under names that look like a heading, and in two texts
that the command is given. -/
theorem outlines_of_members_and_neighbours :
    outlineAll [.hashCollection "\n  values:" [.simple " "] []] 1 ≠
      outlineAll [.hashCollection "\n  values:" [] [.simple " "]] 1 ∧
    (run (spelled "" .singular true ++ ["--", "A<b,c>"]) .empty).stdout ≠
      (run (spelled "" .singular true ++ ["--", "A<b>,c"]) .empty).stdout := by
  have read : parse "A<b,c>" textSource = .ok [.collection "A" [.simple "b", .simple "c"]] := by
    decide +kernel
  have read' : parse "A<b>,c" textSource = .ok [.collection "A" [.simple "b"], .simple "c"] := by
    decide +kernel
  constructor
  · rw [ne_eq, (outline_determines_types _ _ 1 (by decide)).1]
    decide
  · rw [ne_eq, (outline_determines_types _ _ 0 (by decide)).2.2 _ _ .empty "" _ _
      (asks_spelled "" .singular true) rfl rfl read read']
    decide

end TypeProse
