/-!
# Byte lengths and cuts

The length of a text in bytes is that of its UTF-8 form, and a text can be cut at a byte offset
only where a character ends.
-/

namespace ShellTutor.Text

/-- The number of bytes in the UTF-8 form of a list of characters. -/
def byteLength : List Char → Nat
  | [] => 0
  | c :: cs => c.utf8Size + byteLength cs

/-- Cuts a text after `n` bytes. `none` when the text is shorter or the cut would fall inside a
character. -/
def cutAtByte : Nat → List Char → Option (List Char × List Char)
  | 0, cs => some ([], cs)
  | _ + 1, [] => none
  | n + 1, c :: cs =>
    if c.utf8Size ≤ n + 1 then
      (cutAtByte (n + 1 - c.utf8Size) cs).map fun (front, back) => (c :: front, back)
    else none

end ShellTutor.Text
