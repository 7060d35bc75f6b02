/-!
# Reading natural numbers

A natural number is written in ASCII digits with at most one `+` in front, and is read only up to a
given bound: a count of lines goes up to the largest 64-bit number, a lesson's day up to 255.
-/

namespace ShellTutor.Number

/-- Whether a character is one of `0` to `9`. -/
def isDigit (c : Char) : Bool :=
  '0' ≤ c && c ≤ '9'

def digitValue (c : Char) : Nat :=
  c.toNat - 0x30

/-- The value of a list of digits, most significant first. -/
def ofDigits (cs : List Char) : Nat :=
  cs.foldl (fun n c => 10 * n + digitValue c) 0

/-- A text without the `+` it may start with. -/
def dropPlus : List Char → List Char
  | '+' :: cs => cs
  | cs => cs

/-- Reads a natural number that is at most `bound`. -/
def natUpTo? (bound : Nat) (s : String) : Option Nat :=
  let digits := dropPlus s.toList
  if digits.isEmpty || !digits.all isDigit then none
  else
    let n := ofDigits digits
    if n ≤ bound then some n else none

/-- The largest count of lines, fields or characters. -/
def maxCount : Nat := UInt64.size - 1

def count? (s : String) : Option Nat :=
  natUpTo? maxCount s

end ShellTutor.Number
