import ShellTutor.Path
import ShellTutor.Screen.Line
import ShellTutor.Text.Blank
import ShellTutor.Text.Column
import ShellTutor.Text.Lines

/-!
# The editor

An editor holds the lines of one file. While it is open, every submitted line is added at the end of
the buffer, unless it is a command. The editor does not write files itself: its content is handed to
the session, which writes it.
-/

namespace ShellTutor

/-- A line submitted to the editor. -/
inductive EditorInput where
  | write
  | writeQuit
  | quit
  /-- Quits even when there are changes that were not written. -/
  | forceQuit
  | deleteLast
  | show
  | text (text : String)
  deriving DecidableEq, Repr

/-- What a submitted line stands for. Text is taken as it is, with its blanks. -/
def EditorInput.parse (input : String) : EditorInput :=
  match Text.trim input with
  | ":w" | "^O" => .write
  | ":wq" | ":x" => .writeQuit
  | ":q" | "^X" => .quit
  | ":q!" => .forceQuit
  | ":d" => .deleteLast
  | ":p" => .show
  | _ => .text input

/-- A buffer over one file. -/
structure Editor where
  /-- The absolute path of the file. -/
  path : String
  lines : List String
  /-- Whether the buffer was changed since it was opened or written. -/
  modified : Bool
  deriving DecidableEq, Repr

namespace Editor

def ofText (path content : String) : Editor :=
  ⟨path, Text.lines content, false⟩

variable (e : Editor)

def name : String :=
  (Path.splitParent e.path).2

def content : String :=
  Text.unlines e.lines

def markSaved : Editor :=
  { e with modified := false }

def push (line : String) : Editor :=
  { e with lines := e.lines ++ [line], modified := true }

def deleteLast : OutputLine × Editor :=
  match e.lines.getLast? with
  | some line =>
    (.notice ("deleted: " ++ line), { e with lines := e.lines.dropLast, modified := true })
  | none => (.error "buffer is empty", e)

/-- The lines of the buffer, numbered. -/
def numberedLines : List OutputLine :=
  (e.lines.zipIdx 1).map fun (line, n) => .output (Text.alignRight 4 (toString n) ++ "  " ++ line)

def render : List OutputLine :=
  if e.lines.isEmpty then [.notice "(empty buffer)"] else e.numberedLines

/-- What is shown when the editor opens: a header, the buffer unless it is empty, and the
commands. -/
def banner : List OutputLine :=
  .notice ("--- editing " ++ e.name ++ " ---") :: e.numberedLines ++
    [.notice (":w save, :wq save and quit, :q quit, :q! discard, :d delete last line, :p show")]

end Editor

end ShellTutor
