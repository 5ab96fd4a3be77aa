/-!
# Lines

A line ends with a line feed, with a carriage return, or with a carriage return
and a line feed that belong together. No other character ends a line.
-/

namespace TypeProse.Text

/-- Put one character in front of the first line. Where there is no line, the character
makes up a line of its own. -/
def extendFirstLine (char : Char) : List (List Char) → List (List Char)
  | [] => [[char]]
  | line :: lines => (char :: line) :: lines

/-- The lines of a text without their endings. A text that ends with a line ending has
no further line after it. -/
def linesOf : List Char → List (List Char)
  | [] => []
  | '\r' :: '\n' :: rest => [] :: linesOf rest
  | '\r' :: rest => [] :: linesOf rest
  | '\n' :: rest => [] :: linesOf rest
  | char :: rest => extendFirstLine char (linesOf rest)

end TypeProse.Text
