/-!
# Values of a document

Lessons and seeds are written in JSON or TOML. Both are read into one type of value, and what a
lesson or a seed needs is then taken from the value.
-/

namespace ShellTutor.Document

/-- A value in a document. -/
inductive Value where
  | null
  | bool (b : Bool)
  | integer (n : Int)
  /-- A number that is not written as an integer. Nothing reads its size. -/
  | fraction
  /-- A text. It is `none` when an escape left half of a surrogate pair: such a text can be passed
  over but not read. -/
  | text (s : Option String)
  /-- A date or a time of day. -/
  | moment
  | list (items : List Value)
  /-- Keys and values, as they are written. -/
  | record (fields : List (Option String × Value))
  deriving Repr, Inhabited

def hexDigit? (c : Char) : Option Nat :=
  if '0' ≤ c ∧ c ≤ '9' then some (c.toNat - 0x30)
  else if 'a' ≤ c ∧ c ≤ 'f' then some (c.toNat - 0x61 + 10)
  else if 'A' ≤ c ∧ c ≤ 'F' then some (c.toNat - 0x41 + 10)
  else none

end ShellTutor.Document
