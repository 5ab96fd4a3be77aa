import TypeProse.Text.CodePoint

/-!
# Terminal escape sequences

An escape sequence is an escape character and an opening square bracket, then any
number of parameter characters, then any number of intermediate characters, and one
final character. The three classes are ranges of ASCII that do not meet, so a
sequence can be read in one way only. Output that does not go to a terminal is
written without escape sequences.
-/

namespace TypeProse.Text

/-- The parameter characters of an escape sequence: digits, colon, semicolon, and the
signs from `<` to `?`. -/
def escapeParameters : CodeRange :=
  ⟨0x30, 0x3F⟩

/-- The intermediate characters of an escape sequence: the space and the signs up to `/`. -/
def escapeIntermediates : CodeRange :=
  ⟨0x20, 0x2F⟩

/-- The final characters of an escape sequence: letters and the signs from `@` to `~`
around them. -/
def escapeFinals : CodeRange :=
  ⟨0x40, 0x7E⟩

/-- What follows the parameter and intermediate characters at the front. -/
def afterEscapeBody (chars : List Char) : List Char :=
  (chars.dropWhile escapeParameters.contains).dropWhile escapeIntermediates.contains

/-- What follows the escape sequence at the front, if there is one at the front. -/
def afterEscape? : List Char → Option (List Char)
  | '\x1b' :: '[' :: rest =>
      match afterEscapeBody rest with
      | final :: after => if escapeFinals.contains final then some after else none
      | [] => none
  | _ => none

theorem length_afterEscapeBody_le (chars : List Char) :
    (afterEscapeBody chars).length ≤ chars.length :=
  Nat.le_trans (List.dropWhile_sublist _).length_le (List.dropWhile_sublist _).length_le

/-- An escape sequence has at least one character. -/
theorem length_afterEscape?_lt {chars after : List Char}
    (found : afterEscape? chars = some after) : after.length < chars.length := by
  unfold afterEscape? at found
  split at found
  · rename_i rest
    have shorter := length_afterEscapeBody_le rest
    split at found
    · rename_i final tail equal
      rw [equal] at shorter
      split at found
      · cases found
        simp only [List.length_cons] at shorter ⊢
        omega
      · cases found
    · cases found
  · cases found

/-- The characters without their escape sequences. After a sequence is taken out, the
search goes on behind it, so that characters which only then become neighbours
never form a new sequence. -/
def withoutEscapes (chars : List Char) : List Char :=
  match found : afterEscape? chars with
  | some after =>
      have _shorter := length_afterEscape?_lt found
      withoutEscapes after
  | none =>
      match chars with
      | [] => []
      | char :: rest => char :: withoutEscapes rest
termination_by chars.length

/-- The text without its escape sequences. -/
def stripEscapes (text : String) : String :=
  String.ofList (withoutEscapes text.toList)

end TypeProse.Text
