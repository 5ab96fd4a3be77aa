/-!
# Ranges of code points

Character classes of a standard are written as lists of inclusive ranges of code
points. This module holds the ranges, membership in a list of them, and the
`U+` spelling of a single code point.
-/

namespace TypeProse.Text

/-- The code points from `first` to `last`, both included. -/
structure CodeRange where
  first : Nat
  last : Nat
  deriving DecidableEq, Repr

namespace CodeRange

/-- The range that holds one code point only. -/
def single (code : Nat) : CodeRange :=
  ⟨code, code⟩

/-- Whether a character lies in the range. -/
def contains (range : CodeRange) (char : Char) : Bool :=
  decide (range.first ≤ char.toNat) && decide (char.toNat ≤ range.last)

/-- Whether a character lies in one of the ranges. -/
def containedIn (ranges : List CodeRange) (char : Char) : Bool :=
  ranges.any fun range => range.contains char

theorem contains_iff {range : CodeRange} {char : Char} :
    range.contains char = true ↔ range.first ≤ char.toNat ∧ char.toNat ≤ range.last := by
  simp [contains]

theorem containedIn_iff {ranges : List CodeRange} {char : Char} :
    containedIn ranges char = true ↔
      ∃ range ∈ ranges, range.first ≤ char.toNat ∧ char.toNat ≤ range.last := by
  simp [containedIn, contains_iff]

end CodeRange

/-- The digits of a number in base sixteen, in capitals, filled up with zeros on the
left to at least four of them. -/
def hexDigits (number : Nat) : List Char :=
  let digits := (Nat.toDigits 16 number).map Char.toUpper
  List.replicate (4 - digits.length) '0' ++ digits

/-- The conventional spelling of a code point, such as `U+0007` or `U+1F600`. -/
def codePointLabel (char : Char) : String :=
  "U+" ++ String.ofList (hexDigits char.toNat)

end TypeProse.Text
