/-!
# Lines

A line feed ends a line, and a carriage return directly before it belongs to the line's end. A text
that stops at a line feed opens no further line, so the empty text has no lines at all. A carriage
return that ends the text without a line feed stays in its line.
-/

namespace ShellTutor.Text

/-- A line without the carriage return that its line feed followed. -/
def dropReturn (line : List Char) : List Char :=
  if line.getLast? = some '\r' then line.dropLast else line

/-- Turns the pieces between line feeds into lines: each piece but the last was ended by a line
feed, and an empty last piece is no line. -/
def closeLines : List (List Char) → List (List Char)
  | [] => []
  | [last] => if last.isEmpty then [] else [last]
  | piece :: next :: rest => dropReturn piece :: closeLines (next :: rest)

def lines (s : String) : List String :=
  (closeLines (s.toList.splitOn '\n')).map String.ofList

/-- Lines put back together with a line feed between each two. -/
def unlines (ls : List String) : String :=
  "\n".intercalate ls

end ShellTutor.Text
