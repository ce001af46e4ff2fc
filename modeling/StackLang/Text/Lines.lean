/-!
# Lines of a text

A line ends at a line feed, or at a carriage return directly followed by one;
the terminator is not part of the line.  A text that ends with a terminator has
no further empty line, and a lone carriage return is an ordinary character.
-/

namespace StackLang.Text

/-- The lines of a text, without their terminators. -/
def lineChars : List Char → List (List Char)
  | [] => []
  | '\n' :: rest => [] :: lineChars rest
  | '\r' :: '\n' :: rest => [] :: lineChars rest
  | char :: rest =>
      match lineChars rest with
      | [] => [[char]]
      | line :: later => (char :: line) :: later

/-- The lines of a text, without their terminators. -/
def lines (text : String) : List String :=
  (lineChars text.toList).map String.ofList

/-- The given lines, each ended by a line feed. -/
def unlines (lines : List String) : String :=
  String.join (lines.map fun line => line ++ "\n")

end StackLang.Text
