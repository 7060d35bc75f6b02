import ShellTutor.Screen.Line
import ShellTutor.Text.Lowercase
import ShellTutor.Text.Utf8

/-!
# Lines on a terminal

On a terminal with colour a line is wrapped in escape sequences for its kind, and the occurrences of
its highlight term are shown in reverse video. The occurrences are looked for in the lower-case form
of the text, and the text itself is cut at the byte offsets found there; where such an offset falls
inside a character of the text, the line has no rendering.
-/

namespace ShellTutor.Screen

def red : String := "\x1b[31m"

def cyan : String := "\x1b[36m"

def bold : String := "\x1b[1m"

def reverse : String := "\x1b[7m"

def reset : String := "\x1b[0m"

/-- Clears the screen and goes to its first column and row. -/
def clearScreen : String := "\x1b[2J\x1b[H"

/-- A part of a text that is to be shown as it is, or marked. -/
inductive Segment where
  | plain (cs : List Char)
  | marked (cs : List Char)
  deriving DecidableEq, Repr

def Segment.chars : Segment → List Char
  | .plain cs => cs
  | .marked cs => cs

def Segment.render : Segment → String
  | .plain cs => String.ofList cs
  | .marked cs => reverse ++ String.ofList cs ++ reset

/-- Cuts `text` where another text was cut: `pieces` are the parts of that text between marks of
`width` bytes each. All that follows the last mark stays together. -/
def cutAlong (width : Nat) : List (List Char) → List Char → Option (List Segment)
  | piece :: next :: rest, text => do
    let (before, text) ← Text.cutAtByte (Text.byteLength piece) text
    let (mark, text) ← Text.cutAtByte width text
    let segments ← cutAlong width (next :: rest) text
    return .plain before :: .marked mark :: segments
  | _, text => some [.plain text]

/-- The segments of a text in which the occurrences of `term` are marked, whatever their letter
case. A text whose lower-case form has another length in bytes is left unmarked. -/
def segments? (text term : List Char) : Option (List Segment) :=
  let lower := Text.lowerChars text
  let needle := Text.lowerChars term
  if needle.isEmpty || Text.byteLength lower != Text.byteLength text then some [.plain text]
  else cutAlong (Text.byteLength needle) (Text.splitText needle lower) text

/-- A text with the occurrences of `term` in reverse video. -/
def highlight? (text term : String) : Option String :=
  (segments? text.toList term.toList).map fun segments =>
    String.join (segments.map Segment.render)

end ShellTutor.Screen

namespace ShellTutor.OutputLine

open ShellTutor.Screen

/-- A line as a terminal shows it, with or without colour. `none` when a mark would start or end
inside a character. -/
def render? (line : OutputLine) (color : Bool) : Option String :=
  if color then
    match line.kind with
    | .clear => some clearScreen
    | .error => some (red ++ line.text ++ reset)
    | .notice => some (cyan ++ line.text ++ reset)
    | .echo => some (bold ++ line.text ++ reset)
    | .output | .pager =>
      match line.highlight with
      | some term => highlight? line.text term
      | none => some line.text
  else
    match line.kind with
    | .clear => some "----"
    | _ => some line.text

end ShellTutor.OutputLine
