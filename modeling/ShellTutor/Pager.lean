import ShellTutor.Screen.Line
import ShellTutor.Text.Blank
import ShellTutor.Text.Lines
import ShellTutor.Text.Lowercase

/-!
# The pager

A pager shows a text through a window of some lines. While it is open, every submitted line is a
key: it moves the window, looks for a term, or closes the pager. Each step gives the lines to show,
and a window is shown after the screen is cleared.

The size of a page is any word of 64 bits but zero. Sums of such words wrap around, and there is not
always room for a page, so a window that is asked for may be one that cannot be shown. Then there is
no result.
-/

namespace ShellTutor

/-- A key of the pager. -/
inductive PagerKey where
  | quit
  | nextPage
  | prevPage
  | top
  | bottom
  /-- Looks for a term; the empty term clears the one that was looked for before. -/
  | search (term : String)
  | unknown (input : String)
  deriving DecidableEq, Repr

/-- The key that a submitted line stands for. Nothing, or blanks alone, is the next page. -/
def PagerKey.parse (input : String) : PagerKey :=
  if input = "" ∨ input = " " then .nextPage
  else
    match input.toList with
    | '/' :: term => .search (Text.trim (String.ofList term))
    | _ =>
      match Text.trim input with
      | "q" | "Q" => .quit
      | "" => .nextPage
      | "b" => .prevPage
      | "g" => .top
      | "G" => .bottom
      | other => .unknown other

/-- A window over the lines of a text. -/
structure Pager where
  title : String
  lines : List String
  /-- The index of the first line in the window. -/
  start : Nat
  pageSize : Nat
  /-- The term that was found last, as it was typed. -/
  term : Option String
  deriving DecidableEq, Repr

namespace Pager

/-- A window at the start of a text. A page has at least one line. -/
def ofText (title content : String) (pageSize : Nat) : Pager :=
  ⟨title, Text.lines content, 0, max pageSize 1, none⟩

/-- All words of 64 bits are less. -/
def wordModulus : Nat := 18446744073709551616

/-- The sum of two words. -/
def wordSum (m n : Nat) : Nat :=
  (m + n) % wordModulus

/-- The most bytes that are reserved at once. -/
def roomLimit : Nat := 9223372036854775807

/-- The size of a line to show, in bytes, apart from its text. -/
def lineSize : Nat := 56

variable (p : Pager)

def stop : Nat :=
  min (wordSum p.start p.pageSize) p.lines.length

def lastStart : Nat :=
  p.lines.length - p.pageSize

/-- How far the window reaches: in percent, rounded to the nearest, and in lines. -/
def footer : String :=
  let total := p.lines.length
  if total = 0 then "100% (0/0)"
  else
    toString ((200 * p.stop + total) / (2 * total)) ++ "% (" ++ toString p.stop ++ "/" ++
      toString total ++ ")"

def window : List String :=
  (p.lines.take p.stop).drop p.start

/-- A line of the window, with the term to mark if it occurs in the line. -/
def showLine (line : String) : OutputLine :=
  (OutputLine.pager line).withHighlight
    (p.term.filter fun term => Text.occursIgnoringCase term line)

/-- The window as it is shown: the screen is cleared, then come its lines and the footer. -/
def render : List OutputLine :=
  .clear :: p.window.map p.showLine ++ [.notice p.footer]

def banner : OutputLine :=
  .notice ("--- viewing " ++ p.title ++ " (space: next, b: back, /term: search, q: quit) ---")

/-- The first window, under a line that names the keys. -/
def renderFirst : List OutputLine :=
  .clear :: p.banner :: p.window.map p.showLine ++ [.notice p.footer]

/-- Whether the window can be shown: room is reserved for a page and two more lines, and the window
must not end before it starts. -/
def canShow : Bool :=
  lineSize * wordSum p.pageSize 2 ≤ roomLimit && p.start ≤ p.stop

def render? : Option (List OutputLine) :=
  if p.canShow then some p.render else none

def renderFirst? : Option (List OutputLine) :=
  if p.canShow then some p.renderFirst else none

/-- The window as the pager is left with it. -/
def shown? : Option (List OutputLine × Pager) :=
  p.render?.map fun lines => (lines, p)

def moveTo (start : Nat) : Pager :=
  { p with start }

/-- A page further, but not past the last window. -/
def next? : Option (List OutputLine × Pager) :=
  let start := min (wordSum p.start p.pageSize) p.lastStart
  if start ≤ p.start then some ([.notice "--- end of file ---"], p) else (p.moveTo start).shown?

/-- A page back, but not before the start. -/
def prev? : Option (List OutputLine × Pager) :=
  if p.start = 0 then some ([.notice "--- start of file ---"], p)
  else (p.moveTo (p.start - p.pageSize)).shown?

/-- The index of the first line below the top line of the window in which a term occurs. -/
def findBelow (term : String) : Option Nat :=
  ((p.lines.drop (p.start + 1)).findIdx? (Text.occursIgnoringCase term)).map (p.start + 1 + ·)

/-- Looks for a term. The window moves so that the line found is its third, if there are two lines
above. -/
def search? (term : String) : Option (List OutputLine × Pager) :=
  if term = "" then { p with term := none }.shown?
  else
    match p.findBelow term with
    | some i =>
      let found := { p with start := i - 2, term := some term }
      found.shown?.map fun (lines, found) =>
        (lines ++ [.notice ("pattern found: " ++ term)], found)
    | none => some ([.error ("pattern not found: " ++ term)], p)

/-- One key: the lines to show, and the pager unless it was closed. There is no result if a window
cannot be shown. -/
def handle? : PagerKey → Option (List OutputLine × Option Pager)
  | .quit => some ([.notice "--- less closed ---"], none)
  | .nextPage => p.next?.map (·.map id some)
  | .prevPage => p.prev?.map (·.map id some)
  | .top => (p.moveTo 0).shown?.map (·.map id some)
  | .bottom => (p.moveTo p.lastStart).shown?.map (·.map id some)
  | .search term => (p.search? term).map (·.map id some)
  | .unknown other =>
    some ([.notice ("unknown key '" ++ other ++
      "' (space: next, b: back, g/G: top/bottom, /term: search, q: quit)")], some p)

/-- One key. If there is no result, nothing is shown and no pager is left. -/
def handle (key : PagerKey) : List OutputLine × Option Pager :=
  (p.handle? key).getD ([], none)

end Pager

end ShellTutor
