/-!
# Lines

A line ends with a line feed, and a carriage return in front of that line feed belongs to the line
end. What follows the last line feed is a line too unless it is empty.
-/

namespace ShaderShrink.Text

/-- The characters of a line that was ended by a line feed, given last character first. -/
def endedLine : List Char → List Char
  | '\r' :: line => line.reverse
  | line => line.reverse

/-- The lines of a list of characters; `line` holds the characters of the current line, last one
first. -/
def linesFrom (line : List Char) : List Char → List (List Char)
  | [] => if line.isEmpty then [] else [line.reverse]
  | c :: rest =>
    if c = '\n' then endedLine line :: linesFrom [] rest else linesFrom (c :: line) rest

/-- The lines of a text, without their line ends. -/
def lines (text : String) : List String := (linesFrom [] text.toList).map String.ofList

end ShaderShrink.Text
