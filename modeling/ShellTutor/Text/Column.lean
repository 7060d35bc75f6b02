/-!
# Columns

Numbers are written at the right end of their column and names at the left. A text that is wider
than its column is written in full. Width is counted in characters.
-/

namespace ShellTutor.Text

/-- Fills a text up to `width` characters with blanks in front. -/
def alignRight (width : Nat) (s : String) : String :=
  String.ofList (List.replicate (width - s.length) ' ') ++ s

/-- Fills a text up to `width` characters with blanks behind. -/
def alignLeft (width : Nat) (s : String) : String :=
  s ++ String.ofList (List.replicate (width - s.length) ' ')

/-- A number with zeros in front, up to `width` digits. -/
def zeroPadded (width n : Nat) : String :=
  let digits := toString n
  String.ofList (List.replicate (width - digits.length) '0') ++ digits

end ShellTutor.Text
