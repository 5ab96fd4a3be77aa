import TypeProse.Proofs.Outlining

/-!
# Outlines follow the walk

An outline and a walk go through a type in their own ways, and they meet the same types in the same
order. `walkAt` is the walk with the depth of each type. `Shows` relates such a walk to lines: apart
from headings there is one line for each type, and the lines of the types inside a type follow its
own line. It holds of lines that are put together from lines of which it holds, and so of every
outline, whatever the indentation is.
-/

namespace TypeProse

namespace TypeExpr

/-- How much deeper than a type the types directly inside it lie. -/
def stepInside : TypeExpr → Nat
  | .hashCollection .. => 2
  | _ => 1

/-- Whether a type is a hash. -/
def isHash : TypeExpr → Bool
  | .hashCollection .. => true
  | _ => false

mutual

/-- The walk of a type that lies at a depth, with the depth of each type. -/
def walkAt : TypeExpr → Nat → List (TypeExpr × Nat)
  | .simple name, depth => [(.simple name, depth)]
  | .collection name types, depth => (.collection name types, depth) :: walkAllAt types (depth + 1)
  | .fixedCollection name types, depth =>
      (.fixedCollection name types, depth) :: walkAllAt types (depth + 1)
  | .hashCollection name keys values, depth =>
      (.hashCollection name keys values, depth) ::
        (walkAllAt keys (depth + 2) ++ walkAllAt values (depth + 2))

/-- The walks of several types that lie at the same depth, one after the other. -/
def walkAllAt : List TypeExpr → Nat → List (TypeExpr × Nat)
  | [], _ => []
  | type :: types, depth => type.walkAt depth ++ walkAllAt types depth

end

theorem walkAllAt_append (front back : List TypeExpr) (depth : Nat) :
    walkAllAt (front ++ back) depth = walkAllAt front depth ++ walkAllAt back depth := by
  induction front with
  | nil => rfl
  | cons type front ih => rw [List.cons_append, walkAllAt, walkAllAt, ih, List.append_assoc]

/-- A walk begins with the type and goes on with the walks of its children, which lie deeper. -/
theorem walkAt_eq (type : TypeExpr) (depth : Nat) :
    type.walkAt depth = (type, depth) :: walkAllAt type.children (depth + type.stepInside) := by
  cases type with
  | simple | collection | fixedCollection => rfl
  | hashCollection name keys values => rw [walkAt, children, walkAllAt_append, stepInside]

mutual

/-- Without the depths it is the walk. -/
theorem map_fst_walkAt : (type : TypeExpr) → ∀ depth, (type.walkAt depth).map Prod.fst = type.walk
  | .simple _, _ => rfl
  | .collection _ types, depth | .fixedCollection _ types, depth => by
      rw [walkAt, walk, List.map_cons, map_fst_walkAllAt types]
  | .hashCollection _ keys values, depth => by
      rw [walkAt, walk, List.map_cons, List.map_append, map_fst_walkAllAt keys,
        map_fst_walkAllAt values]

theorem map_fst_walkAllAt : (types : List TypeExpr) → ∀ depth,
    (walkAllAt types depth).map Prod.fst = walkAll types
  | [], _ => rfl
  | type :: types, depth => by
      rw [walkAllAt, walkAll, List.map_append, map_fst_walkAt type, map_fst_walkAllAt types]

end

/-- Whether a line has that text behind the spaces in front. -/
def showsWord (word line : String) : Bool :=
  line.toList.dropWhile (· == ' ') == word.toList

/-- Whether a line is a heading. -/
def isHeading (line : String) : Bool :=
  showsWord "keys:" line || showsWord "values:" line

/-- The lines that are no headings. -/
def unheaded (lines : List String) : List String :=
  lines.filter fun line => !isHeading line

@[simp] theorem unheaded_append (front back : List String) :
    unheaded (front ++ back) = unheaded front ++ unheaded back :=
  List.filter_append ..

theorem unheaded_cons_of_isHeading {line : String} (heads : isHeading line = true)
    (lines : List String) : unheaded (line :: lines) = unheaded lines := by
  simp [unheaded, heads]

/-- What a line shows does not depend on how far it is indented. -/
theorem showsWord_pad_append (word : String) (indent : Int) (line : String) :
    showsWord word (pad indent ++ line) = showsWord word line := by
  have spaces : ∀ char ∈ List.replicate (2 * indent.toNat) ' ', (char == ' ') = true := by
    intro char inside
    rw [List.eq_of_mem_replicate inside]
    rfl
  rw [showsWord, String.toList_append, pad, String.toList_ofList,
    List.dropWhile_append_of_pos spaces, showsWord]

/-- The line of a type shows its sort first, which begins no heading. -/
theorem showsWord_outlineHead {word : String} (heads : word ∈ ["keys:", "values:"])
    (type : TypeExpr) (indent : Int) : showsWord word (outlineHead type indent) = false := by
  rw [outlineHead, String.append_assoc, String.append_assoc, showsWord_pad_append]
  rcases List.mem_pair.1 heads with rfl | rfl <;> cases type <;> simp [showsWord, label]

theorem isHeading_outlineHead (type : TypeExpr) (indent : Int) :
    isHeading (outlineHead type indent) = false := by
  simp [isHeading, showsWord_outlineHead]

/-- The line of a type in a walk: two spaces for each step of indentation and of depth, or none if
that is negative, then the sort of the type, a space and its name. -/
def lineAt (indent : Int) (place : TypeExpr × Nat) : String :=
  String.ofList (List.replicate (2 * max 0 (indent + place.2)).toNat ' ') ++ place.1.label ++ " " ++
    place.1.name

theorem lineAt_eq (indent : Int) (type : TypeExpr) (depth : Nat) :
    lineAt indent (type, depth) = outlineHead type (indent + depth) := by
  have spaces : (2 * max 0 (indent + depth)).toNat = 2 * (indent + depth).toNat := by omega
  rw [lineAt, spaces, outlineHead, pad]

/-- The outline of a type stands among the lines. In front of it stand the types before it in the
walk, and behind it those that come after it and are not inside it. -/
def Spans (indent : Int) (lines : List String) (front : List (TypeExpr × Nat)) (inner : TypeExpr)
    (depth : Nat) (back : List (TypeExpr × Nat)) : Prop :=
  ∃ before after rest, lines = before ++ (inner.outline (indent + depth) ++ after) ∧
    back = walkAllAt inner.children (depth + inner.stepInside) ++ rest ∧
    unheaded before = front.map (lineAt indent) ∧ unheaded after = rest.map (lineAt indent)

/-- Lines that show a walk: apart from headings there is one line for each type, in the order of
the walk, and wherever a type stands in the walk, its outline stands among the lines. -/
structure Shows (indent : Int) (places : List (TypeExpr × Nat)) (lines : List String) : Prop where
  listed : unheaded lines = places.map (lineAt indent)
  spans : ∀ front inner depth back, places = front ++ (inner, depth) :: back →
    Spans indent lines front inner depth back

namespace Shows

variable {indent : Int} {places places' : List (TypeExpr × Nat)} {lines lines' : List String}

theorem nil : Shows indent [] [] where
  listed := rfl
  spans := by simp

/-- A heading may come first. -/
theorem heading {line : String} (shown : Shows indent places lines)
    (heads : isHeading line = true) : Shows indent places (line :: lines) where
  listed := by rw [unheaded_cons_of_isHeading heads, shown.listed]
  spans := by
    intro front inner depth back split
    obtain ⟨before, after, rest, whole, inside, ahead, behind⟩ := shown.spans _ _ _ _ split
    refine ⟨line :: before, after, rest, by rw [whole, List.cons_append], inside, ?_, behind⟩
    rw [unheaded_cons_of_isHeading heads, ahead]

/-- Two walks are shown one after the other. -/
theorem append (first : Shows indent places lines) (second : Shows indent places' lines') :
    Shows indent (places ++ places') (lines ++ lines') where
  listed := by rw [unheaded_append, first.listed, second.listed, List.map_append]
  spans := by
    intro front inner depth back split
    have inSecond : ∀ between, front = places ++ between →
        places' = between ++ (inner, depth) :: back →
        Spans indent (lines ++ lines') front inner depth back := by
      rintro between rfl split'
      obtain ⟨before, after, rest, rfl, inside, ahead, behind⟩ := second.spans _ _ _ _ split'
      refine ⟨lines ++ before, after, rest, by rw [List.append_assoc], inside, ?_, behind⟩
      rw [unheaded_append, first.listed, ahead, List.map_append]
    rcases List.append_eq_append_iff.1 split with
      ⟨between, front', split'⟩ | ⟨between, whole, split'⟩
    · exact inSecond between front' split'
    · cases between with
      | nil => exact inSecond [] (by simpa using whole.symm) split'.symm
      | cons place between =>
          obtain ⟨rfl, rfl⟩ := List.cons.inj split'
          obtain ⟨before, after, rest, rfl, rfl, ahead, behind⟩ := first.spans _ _ _ _ whole
          refine ⟨before, after ++ lines', rest ++ places', by simp, by simp, ahead, ?_⟩
          rw [unheaded_append, behind, second.listed, List.map_append]

/-- A type is shown by its line and the lines of the types inside it. -/
theorem type {type : TypeExpr} {depth : Nat}
    (inside : Shows indent (walkAllAt type.children (depth + type.stepInside))
      (type.inset (indent + depth))) :
    Shows indent (type.walkAt depth) (type.outline (indent + depth)) where
  listed := by
    rw [walkAt_eq, outline_eq, List.map_cons, ← inside.listed]
    simp [unheaded, isHeading_outlineHead, lineAt_eq]
  spans := by
    intro front inner depth' back split
    rw [walkAt_eq] at split
    cases front with
    | nil =>
        obtain ⟨place, rfl⟩ := List.cons.inj split
        obtain ⟨rfl, rfl⟩ := Prod.mk.inj place
        exact ⟨[], [], [], by simp, by simp, rfl, rfl⟩
    | cons place front =>
        obtain ⟨rfl, split'⟩ := List.cons.inj split
        obtain ⟨before, after, rest, whole, within, ahead, behind⟩ := inside.spans _ _ _ _ split'
        refine ⟨outlineHead type (indent + depth) :: before, after, rest, ?_, within, ?_, behind⟩
        · rw [outline_eq, whole, List.cons_append]
        · rw [List.map_cons, ← ahead]
          simp [unheaded, isHeading_outlineHead, lineAt_eq]

end Shows

/-- Each heading shows its own word and not the other. -/
theorem showsWord_headings {word : String} (heads : word ∈ ["keys:", "values:"]) (indent : Int) :
    showsWord word (pad indent ++ "  keys:") = (word == "keys:") ∧
      showsWord word (pad indent ++ "  values:") = (word == "values:") := by
  rw [showsWord_pad_append, showsWord_pad_append]
  rcases List.mem_pair.1 heads with rfl | rfl <;> decide

mutual

/-- The outline of a type shows its walk. -/
theorem shows_outline (indent : Int) : (type : TypeExpr) → ∀ depth : Nat,
    Shows indent (type.walkAt depth) (type.outline (indent + depth))
  | .simple name, depth => .type .nil
  | .collection name types, depth | .fixedCollection name types, depth => by
      have inside := shows_outlineAll indent types (depth + 1)
      rw [Int.natCast_add, ← Int.add_assoc] at inside
      exact .type inside
  | .hashCollection name keys values, depth => by
      have first := shows_outlineAll indent keys (depth + 2)
      have second := shows_outlineAll indent values (depth + 2)
      rw [Int.natCast_add, ← Int.add_assoc] at first second
      have forKeys : isHeading (pad (indent + depth) ++ "  keys:") = true := by
        rw [isHeading, showsWord_pad_append]
        rfl
      have forValues : isHeading (pad (indent + depth) ++ "  values:") = true := by
        rw [isHeading, showsWord_pad_append, showsWord_pad_append]
        rfl
      refine .type ?_
      rw [children, walkAllAt_append]
      exact (first.heading forKeys).append (second.heading forValues)

/-- The outline of several types shows their walks. -/
theorem shows_outlineAll (indent : Int) : (types : List TypeExpr) → ∀ depth : Nat,
    Shows indent (walkAllAt types depth) (outlineAll types (indent + depth))
  | [], _ => .nil
  | type :: types, depth =>
      (shows_outline indent type depth).append (shows_outlineAll indent types depth)

end

mutual

/-- Each hash has one heading of each sort. -/
theorem countP_outline {word : String} (heads : word ∈ ["keys:", "values:"]) :
    (type : TypeExpr) → ∀ indent, (type.outline indent).countP (showsWord word) =
      type.walk.countP isHash
  | .simple name, indent => by
      simp [outline, walk, showsWord_outlineHead heads, isHash]
  | .collection name types, indent | .fixedCollection name types, indent => by
      simp [outline, walk, showsWord_outlineHead heads, isHash, countP_outlineAll heads types]
  | .hashCollection name keys values, indent => by
      obtain ⟨forKeys, forValues⟩ := showsWord_headings heads indent
      simp only [outline, walk, List.cons_append, List.countP_cons, List.countP_append, isHash,
        showsWord_outlineHead heads, forKeys, forValues, countP_outlineAll heads keys,
        countP_outlineAll heads values]
      rcases List.mem_pair.1 heads with rfl | rfl
      · simp
      · simp [Nat.add_assoc]

theorem countP_outlineAll {word : String} (heads : word ∈ ["keys:", "values:"]) :
    (types : List TypeExpr) → ∀ indent, (outlineAll types indent).countP (showsWord word) =
      (walkAll types).countP isHash
  | [], _ => rfl
  | type :: types, indent => by
      rw [outlineAll, walkAll, List.countP_append, List.countP_append, countP_outline heads type,
        countP_outlineAll heads types]

end

end TypeExpr

open TypeExpr

/-- The outline of a type lists its walk, whatever the indentation is. Without the headings it has
one line for each type of the walk, in the order of the walk and indented by its depth. The types
inside a collection lie one step deeper than it, and those inside a hash two steps. For each hash
there is one heading of each sort. They stand behind the line of the hash, with the keys between
them and the values behind the second. -/
theorem outline_lists_walk (type : TypeExpr) (indent : Int) :
    (type.walkAt 0).map Prod.fst = type.walk ∧
    unheaded (type.outline indent) = (type.walkAt 0).map (lineAt indent) ∧
    (∀ word ∈ ["keys:", "values:"],
      (type.outline indent).countP (showsWord word) = type.walk.countP isHash) ∧
    ∀ front name keys values depth back,
      type.walkAt 0 = front ++ (.hashCollection name keys values, depth) :: back →
      ∃ before between behind after rest,
        type.outline indent = before ++ lineAt indent (.hashCollection name keys values, depth) ::
          (pad (indent + depth) ++ "  keys:") :: (between ++
          (pad (indent + depth) ++ "  values:") :: (behind ++ after)) ∧
        back = walkAllAt keys (depth + 2) ++ (walkAllAt values (depth + 2) ++ rest) ∧
        unheaded before = front.map (lineAt indent) ∧
        unheaded between = (walkAllAt keys (depth + 2)).map (lineAt indent) ∧
        unheaded behind = (walkAllAt values (depth + 2)).map (lineAt indent) ∧
        unheaded after = rest.map (lineAt indent) := by
  have shown := shows_outline indent type 0
  rw [Int.natCast_zero, Int.add_zero] at shown
  refine ⟨map_fst_walkAt type 0, shown.listed, fun word heads => countP_outline heads type indent,
    ?_⟩
  intro front name keys values depth back split
  obtain ⟨before, after, rest, whole, inside, ahead, behind⟩ := shown.spans _ _ _ _ split
  have first := (shows_outlineAll indent keys (depth + 2)).listed
  have second := (shows_outlineAll indent values (depth + 2)).listed
  rw [children, walkAllAt_append, List.append_assoc] at inside
  refine ⟨before, _, _, after, rest, ?_, inside, ahead, first, second, behind⟩
  rw [whole, lineAt_eq]
  simp [outline, Int.add_assoc]

/-- A hash whose name looks like a heading, in a list that is moved to the left of the margin. -/
theorem outline_left_of_margin :
    unheaded ((TypeExpr.fixedCollection "A" [.hashCollection "keys:" [.simple "k"] [.simple "v"],
      .simple "b"]).outline (-2)) =
        ["FixedCollection A", "HashCollection keys:", "  Simple k", "  Simple v", "Simple b"] ∧
    ∃ before between behind after,
      (TypeExpr.fixedCollection "A" [.hashCollection "keys:" [.simple "k"] [.simple "v"],
        .simple "b"]).outline (-2) =
          before ++ "HashCollection keys:" :: "  keys:" :: (between ++
            "  values:" :: (behind ++ after)) ∧
      unheaded between = ["  Simple k"] ∧ unheaded behind = ["  Simple v"] := by
  obtain ⟨-, listed, -, spans⟩ := outline_lists_walk (.fixedCollection "A"
    [.hashCollection "keys:" [.simple "k"] [.simple "v"], .simple "b"]) (-2)
  obtain ⟨before, between, behind, after, -, whole, -, -, keys, values, -⟩ :=
    spans [_] "keys:" [.simple "k"] [.simple "v"] 1 _ rfl
  exact ⟨listed, before, between, behind, after, whole, keys, values⟩

end TypeProse
