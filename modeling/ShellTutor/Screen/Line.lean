/-!
# Lines on the screen

What a session shows is a list of records: a text, the kind of line that it is, and possibly a term
to mark inside the text.
-/

namespace ShellTutor

/-- How a line is to be presented. -/
inductive LineKind where
  /-- What a command printed. -/
  | output
  /-- A failure. -/
  | error
  /-- A hint or a status message. -/
  | notice
  /-- A line inside a pager window. -/
  | pager
  /-- The prompt with the submitted line. -/
  | echo
  /-- A request to clear the screen. -/
  | clear
  deriving DecidableEq, Repr

/-- One line to show. -/
structure OutputLine where
  text : String
  kind : LineKind
  /-- A term to mark where it occurs in the text. -/
  highlight : Option String := none
  deriving DecidableEq, Repr

namespace OutputLine

def output (text : String) : OutputLine := ⟨text, .output, none⟩

def error (text : String) : OutputLine := ⟨text, .error, none⟩

def notice (text : String) : OutputLine := ⟨text, .notice, none⟩

def pager (text : String) : OutputLine := ⟨text, .pager, none⟩

def echo (text : String) : OutputLine := ⟨text, .echo, none⟩

/-- A request to clear the screen, which carries no text. -/
def clear : OutputLine := ⟨"", .clear, none⟩

/-- The same line with another term to mark, or none. -/
def withHighlight (line : OutputLine) (term : Option String) : OutputLine :=
  { line with highlight := term }

end OutputLine

end ShellTutor
