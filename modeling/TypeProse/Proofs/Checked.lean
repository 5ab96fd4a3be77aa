import TypeProse.Description
import TypeProse.Proofs.Arguments
import TypeProse.Proofs.Drafting

/-!
# Operations that can fail

Some operations on the way from a text to its description fail on certain arguments: to look up
a character behind the end of a text, to put a fault into words that has none, to make a type
with an empty name, and to look at the first or the last character of an empty name. The
definitions of this module do the same as those of the library, but they carry out each of these
operations and end in a breach if it fails. Where they end without a breach, they have done what
the library does, which is also why they come to an end.
-/

namespace TypeProse.Checked

open TypeExpr Prose

/-- The failure of an operation. -/
inductive Breach where
  /-- There is no character at this offset. -/
  | noCharacter (offset : Nat)
  /-- A fault cannot be put into words. -/
  | noWords (error : WordingError)
  /-- A type of this sort was given an empty name. -/
  | noName (sort : Unnamed)
  /-- A name has no first or no last character. -/
  | noLetter
  deriving DecidableEq, Repr

/-- A fault together with the diagnostic that it is reported with. -/
structure Refusal where
  fault : Fault
  diagnostic : Diagnostic
  deriving DecidableEq, Repr

/-- The value, if there is one. -/
def orBreach {α : Type} (breach : Breach) : Option α → Except Breach α
  | some value => .ok value
  | none => .error breach

/-- Put a fault into words in order to report it. -/
def refuse (fault : Fault) : Except Breach Refusal :=
  match fault.diagnostic with
  | .ok diagnostic => .ok ⟨fault, diagnostic⟩
  | .error error => .error (.noWords error)

/-- The token in front, where no blank stands in front. Where no token starts, the character is
looked up in the whole text. -/
def nextHere (text : List Char) (scanner : Scanner) :
    Except Breach (Except Refusal Token × Scanner) :=
  match lexemeAt? scanner.rest with
  | some (kind, lexeme) =>
      .ok (.ok ⟨kind, String.ofList lexeme, scanner.location⟩, scanner.advance lexeme.length)
  | none => do
      let char ← orBreach (.noCharacter scanner.cursor.offset) text[scanner.cursor.offset]?
      let refusal ← refuse (.invalidCharacter (String.ofList [char]) scanner.location)
      return (.error refusal, scanner)

/-- The next token. -/
def next (text : List Char) (scanner : Scanner) :
    Except Breach (Except Refusal Token × Scanner) :=
  nextHere text scanner.skipBlanks

/-- Steps that are taken one after the other succeed exactly when all of them do. -/
theorem bind_eq_ok_iff {ε α β : Type} {first : Except ε α} {second : α → Except ε β} {result : β} :
    (first >>= second) = .ok result ↔ ∃ value, first = .ok value ∧ second value = .ok result := by
  cases first <;> simp [bind, Except.bind]

/-- A token that is found is the next one. -/
theorem next_of_ok {text : List Char} {scanner after : Scanner} {token : Token}
    (found : next text scanner = .ok (.ok token, after)) : scanner.next = (.ok token, after) := by
  unfold next nextHere at found
  unfold Scanner.next Scanner.nextHere
  cases isLexeme : lexemeAt? scanner.skipBlanks.rest with
  | some lexeme =>
      rw [isLexeme] at found
      cases found
      rfl
  | none =>
      rw [isLexeme] at found
      obtain ⟨_, _, found⟩ := bind_eq_ok_iff.1 found
      obtain ⟨_, _, found⟩ := bind_eq_ok_iff.1 found
      cases found

/-- The tokens from here on. -/
def tokenizeFrom (text : List Char) (scanner : Scanner) :
    Except Breach (Except Refusal (List Token)) :=
  match found : next text scanner with
  | .error breach => .error breach
  | .ok (.error refusal, _) => .ok (.error refusal)
  | .ok (.ok token, after) =>
      if last : token.kind = .endOfInput then
        .ok (.ok [token])
      else
        have _shorter := Scanner.length_rest_next_lt (next_of_ok found) last
        (tokenizeFrom text after).map fun tokens => tokens.map (token :: ·)
termination_by scanner.rest.length

/-- The tokens of a text. -/
def tokenize (text source : String) : Except Breach (Except Refusal (List Token)) :=
  tokenizeFrom text.toList (.start text source)

/-- The complaint that fits the sort of a type. -/
def sortOf : TypeExpr → Unnamed
  | .simple _ => .type
  | .collection .. => .collection
  | .fixedCollection .. => .collection
  | .hashCollection .. => .hash

/-- Make a type, for which it has to have a name. -/
def make (type : TypeExpr) : Except Breach TypeExpr :=
  match (sortOf type).ofName? type.name with
  | some unnamed => .error (.noName unnamed)
  | none => .ok type

/-- The pending type as it stands. A pending name is made into a type, a collection has been
made when it was closed. -/
def finish : Pending → Except Breach (Option TypeExpr)
  | .empty => .ok none
  | .name text => (make (.simple text)).map some
  | .type whole => .ok (some whole)

/-- A separator finishes the pending type. -/
def separate (draft : Draft) (token : Token) : Except Breach Progress :=
  (finish draft.pending).map fun
    | none => .rejected (.missingName token)
    | some type => .reading ⟨draft.frames, type :: draft.finished, .empty⟩

/-- Go on after the list inside a bracket, which makes a collection but for the keys of a
hash. -/
def leave (frame : Frame) (frames : List Frame) (types : List TypeExpr) : Except Breach Draft :=
  match frame.bracket with
  | .collection => (make (.collection frame.name types)).map (⟨frames, frame.before, .type ·⟩)
  | .fixed => (make (.fixedCollection frame.name types)).map (⟨frames, frame.before, .type ·⟩)
  | .hashKeys => .ok ⟨{ frame with bracket := .hashValues types } :: frames, [], .empty⟩
  | .hashValues keys =>
      (make (.hashCollection frame.name keys types)).map (⟨frames, frame.before, .type ·⟩)

/-- A terminator finishes the pending type and ends the innermost list, if it is due. -/
def terminate (draft : Draft) (token : Token) : Except Breach Progress := do
  match ← finish draft.pending with
  | none => return .rejected (.missingName token)
  | some type =>
      if token.kind = draft.closer then
        match draft.frames with
        | [] => return .complete (type :: draft.finished).reverse
        | frame :: frames =>
            return .reading (← leave frame frames (type :: draft.finished).reverse)
      else if token.kind = .endOfInput then
        return .rejected (.unclosed [draft.closer] token)
      else
        return .rejected (.mismatched [draft.closer] token)

/-- Take one more token into account. Types are made by separators and terminators only. -/
def step (draft : Draft) (token : Token) : Except Breach Progress :=
  if token.kind = .separator then separate draft token
  else if token.kind.isTerminator then terminate draft token
  else .ok (draft.step token)

section Making

variable {draft : Draft} {token : Token}

/-- A type with a name is made. -/
theorem make_eq (type : TypeExpr) (named : type.name ≠ "") : make type = .ok type := by
  simp [make, Unnamed.ofName?, named]

/-- What is made is the type itself. -/
theorem make_of_ok {type made : TypeExpr} (found : make type = .ok made) : made = type := by
  unfold make at found
  split at found <;> cases found
  rfl

theorem finish_of_ok {pending : Pending} {found : Option TypeExpr}
    (finished : finish pending = .ok found) : found = pending.type? := by
  cases pending with
  | empty | type =>
      cases finished
      rfl
  | name text =>
      obtain ⟨made, done, rfl⟩ := Command.map_eq_ok_iff.1 finished
      rw [make_of_ok done]
      rfl

theorem leave_of_ok {frame : Frame} {frames : List Frame} {types : List TypeExpr} {after : Draft}
    (left : leave frame frames types = .ok after) : after = Draft.leave frame frames types := by
  unfold leave at left
  unfold Draft.leave
  cases bracket : frame.bracket <;> simp only [bracket] at left ⊢
  case hashKeys =>
    cases left
    rfl
  all_goals
    obtain ⟨made, done, rfl⟩ := Command.map_eq_ok_iff.1 left
    rw [make_of_ok done]

/-- A terminator that is taken into account without a breach does what it does to the draft. -/
theorem terminate_of_ok {progress : Progress} (found : terminate draft token = .ok progress) :
    draft.terminate token = progress := by
  obtain ⟨pending, finished, found⟩ := bind_eq_ok_iff.1 found
  rw [Draft.terminate, ← finish_of_ok finished]
  cases pending with
  | none => exact Except.ok.inj found
  | some type =>
      simp only at found ⊢
      split at found
      · rename_i due
        rw [if_pos due]
        cases stack : draft.frames with
        | nil =>
            rw [stack] at found
            exact Except.ok.inj found
        | cons frame frames =>
            rw [stack] at found
            obtain ⟨after, left, found⟩ := bind_eq_ok_iff.1 found
            rw [leave_of_ok left] at found
            exact Except.ok.inj found
      · rename_i notDue
        rw [if_neg notDue]
        split at found <;> rename_i last
        · rw [if_pos last]
          exact Except.ok.inj found
        · rw [if_neg last]
          exact Except.ok.inj found

/-- A token that is taken into account without a breach does what it does to the draft. -/
theorem step_of_ok {progress : Progress} (found : step draft token = .ok progress) :
    draft.step token = progress := by
  unfold step at found
  split at found
  · rename_i separates
    obtain ⟨pending, finished, rfl⟩ := Command.map_eq_ok_iff.1 found
    have pending_eq := finish_of_ok finished
    cases pending <;> simp only [Draft.step, separates, Draft.separate, ← pending_eq]
  · split at found
    · rename_i ends
      rw [Draft.step_of_isTerminator ends]
      exact terminate_of_ok found
    · exact Except.ok.inj found

end Making

/-- Read on from a draft. -/
def read (text : List Char) (draft : Draft) (scanner : Scanner) :
    Except Breach (Except Refusal (List TypeExpr)) :=
  match found : next text scanner with
  | .error breach => .error breach
  | .ok (.error refusal, _) => .ok (.error refusal)
  | .ok (.ok token, after) =>
      match progress : step draft token with
      | .error breach => .error breach
      | .ok (.rejected fault) => (refuse fault).map .error
      | .ok (.complete types) => .ok (.ok types)
      | .ok (.reading following) =>
          have _shorter := Scanner.length_rest_next_lt (next_of_ok found)
            (Draft.kind_ne_endOfInput_of_reading (step_of_ok progress))
          read text following after
termination_by scanner.rest.length

/-- The types that a text lists. -/
def parse (text source : String) : Except Breach (Except Refusal (List TypeExpr)) :=
  read text.toList .empty (.start text source)

/-- What a name stands for. If it does not begin with a number sign, its first character is
looked at. -/
def senseOf (name : String) : Except Breach NameSense :=
  if name.toList.head? = some '#' then .ok .duck
  else
    (orBreach .noLetter name.toList.head?).map fun first =>
      if isCapital (String.singleton first) then .ofClass else .constant

/-- The plural of a class, for which its last character is looked at. -/
def pluralOf (name : String) : Except Breach String :=
  (orBreach .noLetter name.toList.getLast?).map fun last =>
    if isCapital (String.singleton last) then name ++ "'s" else name ++ "s"

/-- A name on its own, said of one thing or of many. -/
def namePhrase (name : String) (number : Number) : Except Breach String := do
  match ← senseOf name, number with
  | .duck, .singular => return "an object that responds to " ++ name
  | .duck, .plural => return "objects that respond to " ++ name
  | .constant, _ => return name
  | .ofClass, .singular => return article name ++ " " ++ name
  | .ofClass, .plural => pluralOf name

mutual

/-- The phrase for a type. -/
def phrase : TypeExpr → Number → Except Breach String
  | .simple name, number => namePhrase name number
  | .collection name types, _ => do
      let members ← phrases types .plural
      return article name ++ " " ++ name ++ " of (" ++ enumerate "or" members ++ ")"
  | .fixedCollection name types, _ => do
      let members ← phrases types .singular
      return article name ++ " " ++ name ++ " containing (" ++
        " followed by ".intercalate members ++ ")"
  | .hashCollection name keys values, _ => do
      let first ← phrases keys .plural
      let second ← phrases values .plural
      return article name ++ " " ++ name ++ " with keys made of (" ++ enumerate "or" first ++
        ") and values of (" ++ enumerate "or" second ++ ")"

/-- The phrases for several types. -/
def phrases : List TypeExpr → Number → Except Breach (List String)
  | [], _ => .ok []
  | type :: types, number => do
      let first ← phrase type number
      let others ← phrases types number
      return first :: others

end

/-- The phrases for several types with a separator between them. -/
def describeAll (types : List TypeExpr) (separator : String) (number : Number) :
    Except Breach String :=
  (phrases types number).map separator.intercalate

/-- The English description of a text. -/
def describe (text separator : String) (number : Number) :
    Except Breach (Except Refusal String) := do
  match ← parse text unnamedSource with
  | .error refusal => return .error refusal
  | .ok types => (describeAll types separator number).map .ok

/-- The operations do fail where they should. -/
example : step ⟨[], [], .name ""⟩ ⟨.endOfInput, "", ⟨"", 1, 1, 0⟩⟩ = .error (.noName .type) ∧
    phrase (.simple "") .singular = .error .noLetter ∧
    refuse (.unclosed [.name] ⟨.endOfInput, "", ⟨"", 1, 1, 0⟩⟩) =
      .error (.noWords (.noSpelling .name)) := by
  refine ⟨rfl, rfl, rfl⟩

end TypeProse.Checked
