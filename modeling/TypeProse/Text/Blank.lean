import TypeProse.Text.CodePoint

/-!
# Blanks

The blank characters are the ones that may stand between the parts of a type
without any meaning. They include every character that ends a line, and the
spaces of Unicode's separator categories, but no zero-width character.
-/

namespace TypeProse.Text

/-- The ranges of the blank characters: tab to carriage return, the four information
separators with the space, next line, the no-break space, and the wide spaces. -/
def blankRanges : List CodeRange :=
  [⟨0x09, 0x0D⟩, ⟨0x1C, 0x20⟩, .single 0x85, .single 0xA0, .single 0x1680,
    ⟨0x2000, 0x200A⟩, ⟨0x2028, 0x2029⟩, .single 0x202F, .single 0x205F, .single 0x3000]

/-- Whether a character is blank. -/
def isBlank (char : Char) : Bool :=
  CodeRange.containedIn blankRanges char

/-- The blanks at the front. -/
def leadingBlanks (chars : List Char) : List Char :=
  chars.takeWhile isBlank

/-- What follows the blanks at the front. -/
def dropLeadingBlanks (chars : List Char) : List Char :=
  chars.dropWhile isBlank

/-- The characters without the blanks at the end. -/
def dropTrailingBlanks (chars : List Char) : List Char :=
  (dropLeadingBlanks chars.reverse).reverse

/-- The characters without the blanks at either end. -/
def trimBlanks (chars : List Char) : List Char :=
  dropTrailingBlanks (dropLeadingBlanks chars)

/-- The text without the blanks at either end. -/
def strip (text : String) : String :=
  String.ofList (trimBlanks text.toList)

/-- The leading blanks and the rest make up the whole. -/
theorem leadingBlanks_append (chars : List Char) :
    leadingBlanks chars ++ dropLeadingBlanks chars = chars :=
  List.takeWhile_append_dropWhile

end TypeProse.Text
