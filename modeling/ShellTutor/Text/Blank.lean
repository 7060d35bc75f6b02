/-!
# Blanks and words

A character is blank when it has Unicode's `White_Space` property. Trimming removes blanks at both
ends of a text, and the words of a text are its maximal runs of other characters.
-/

namespace ShellTutor.Text

/-- The characters of Unicode's `White_Space` property: twenty-five code points. -/
def isBlank (c : Char) : Bool :=
  let n := c.toNat
  (9 ≤ n && n ≤ 13) || n == 0x20 || n == 0x85 || n == 0xA0 || n == 0x1680 ||
    (0x2000 ≤ n && n ≤ 0x200A) || n == 0x2028 || n == 0x2029 || n == 0x202F || n == 0x205F ||
    n == 0x3000

/-- Drops the longest run at the end of a list whose members all satisfy `p`. -/
def dropEndWhile {α : Type _} (p : α → Bool) (xs : List α) : List α :=
  (xs.reverse.dropWhile p).reverse

def trim (s : String) : String :=
  String.ofList (dropEndWhile isBlank (s.toList.dropWhile isBlank))

/-- The maximal runs of characters outside `sep`, in order. -/
def runs (sep : Char → Bool) (cs : List Char) : List (List Char) :=
  (cs.splitOnP sep).filter fun run => !run.isEmpty

def words (s : String) : List String :=
  (runs isBlank s.toList).map String.ofList

end ShellTutor.Text
