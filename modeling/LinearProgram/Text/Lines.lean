/-!
# Lines of a text

A line ends at a line feed, and a carriage return right before that line feed belongs to the end of
the line too. What follows the last line feed is a line only if it is not empty, and a carriage
return at its end stays.
-/

namespace LinearProgram.Text

/-- A line without the carriage return that its line feed follows. -/
def dropReturn (line : List Char) : List Char :=
  if line.getLast? = some '\r' then line.dropLast else line

/-- The lines of a text; `current` holds the characters of the line read so far, last one first. -/
def linesFrom (current : List Char) : List Char → List (List Char)
  | [] => if current.isEmpty then [] else [current.reverse]
  | c :: cs =>
    if c = '\n' then dropReturn current.reverse :: linesFrom [] cs else linesFrom (c :: current) cs

/-- The lines of a text. -/
def lines (cs : List Char) : List (List Char) :=
  linesFrom [] cs

end LinearProgram.Text
