/-!
# Names in prose

How a name is put into a sentence depends on its first and its last character. A
number sign begins the name of a method, a capital letter the name of a class, and
anything else is a constant.
-/

namespace TypeProse.Prose

/-- Whether there is one thing or there are many. -/
inductive Number where
  | singular
  | plural
  deriving DecidableEq, Repr

/-- What a name stands for. -/
inductive NameSense where
  /-- Anything that responds to a method. -/
  | duck
  /-- A constant, which stands for itself. -/
  | constant
  /-- A class or a module. -/
  | ofClass
  deriving DecidableEq, Repr

/-- Whether a text lies between `A` and `Z` in the order of texts. A single character
does if it is a capital letter of ASCII. -/
def isCapital (text : String) : Bool :=
  decide ("A" ≤ text) && decide (text ≤ "Z")

/-- Texts of one character are ordered as their characters are. -/
theorem singleton_le_singleton {left right : Char} :
    String.singleton left ≤ String.singleton right ↔ left ≤ right := by
  rw [← String.not_lt, String.lt_iff, ← Char.not_lt]
  simp [List.cons_lt_cons_iff]

/-- Of the texts of one character, exactly the capital letters lie between `A` and `Z`. -/
theorem isCapital_singleton (char : Char) :
    isCapital (String.singleton char) = char.isUpper := by
  have bounds : isCapital (String.singleton char) =
      (decide ('A' ≤ char) && decide (char ≤ 'Z')) := by
    simp only [isCapital, ← singleton_le_singleton]
    rfl
  rw [bounds, ← Bool.decide_and]
  rfl

/-- What a name stands for. The empty name stands for nothing but itself. -/
def NameSense.ofName (name : String) : NameSense :=
  match name.toList.head? with
  | none => .constant
  | some first =>
      if first = '#' then .duck
      else if isCapital (String.singleton first) then .ofClass
      else .constant

/-- The vowel letters. -/
def isVowel (char : Char) : Bool :=
  "aeiouAEIOU".toList.contains char

/-- The article for a name: `an` before a vowel letter. -/
def article (name : String) : String :=
  if name.toList.head?.any isVowel then "an" else "a"

/-- The plural of a class. An apostrophe stands between a capital letter and the `s`. -/
def pluralOf (name : String) : String :=
  if name.toList.getLast?.any fun last => isCapital (String.singleton last) then name ++ "'s"
  else name ++ "s"

/-- A name on its own, said of one thing or of many. -/
def namePhrase (name : String) (number : Number) : String :=
  match NameSense.ofName name, number with
  | .duck, .singular => "an object that responds to " ++ name
  | .duck, .plural => "objects that respond to " ++ name
  | .constant, _ => name
  | .ofClass, .singular => article name ++ " " ++ name
  | .ofClass, .plural => pluralOf name

end TypeProse.Prose
