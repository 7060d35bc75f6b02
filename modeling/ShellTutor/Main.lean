import ShellTutor.Terminal.Dialogue
import Std.Time.DateTime.Timestamp

/-!
# The program

`main` connects a dialogue to the terminal: it reads a line, shows the answer, and goes on until the
dialogue ends. A lesson is named by the first argument or by the variable `LINUX_QUEST_LESSON`. If
`NO_COLOR` is set, lines are shown without colour.
-/

namespace ShellTutor.Program

open Terminal

def currentTime : IO Timestamp := do
  return ⟨(← Std.Time.Timestamp.now).toSecondsSinceUnixEpoch.val⟩

/-- The text of a file, or why it cannot be read; `none` if there is no such file. -/
def lookUpFile (path : String) : IO (Option (Except String String)) := do
  try
    match String.fromUTF8? (← IO.FS.readBinFile path) with
    | some text => return some (.ok text)
    | none => return some (.error "stream did not contain valid UTF-8")
  catch
    | .noFileOrDirectory .. | .inappropriateType .. => return none
    | e => return some (.error (toString e))

/-- Reads the bytes of a line, with its line feed. -/
partial def readBytes (stdin : IO.FS.Stream) (bytes : List UInt8) : IO (List UInt8) := do
  match (← stdin.read 1).data.toList with
  | [] => return bytes.reverse
  | b :: _ => if b = 10 then return (b :: bytes).reverse else readBytes stdin (b :: bytes)

/-- Reads a line; `none` at the end of the input. -/
def readInput (stdin : IO.FS.Stream) : IO (Option Input) := do
  try
    match ← readBytes stdin [] with
    | [] => return none
    | bytes => return some (.ofBytes bytes)
  catch e => return some (.unreadable (toString e))

def giveUp (failure : Failure) : IO UInt32 := do
  IO.eprint failure.report
  return 1

/-- Goes on with a dialogue until it ends. -/
partial def converse (color : Bool) (session : Session) : IO UInt32 := do
  let stdout ← IO.getStdout
  stdout.putStr (promptText session)
  stdout.flush
  let input ← readInput (← IO.getStdin)
  let (text, step) := answer color session (← currentTime) input
  stdout.putStr text
  match step with
  | .proceed next => converse color next
  | .leave => return 0
  | .fail failure => giveUp failure
  | .crash => return 134

end ShellTutor.Program

open ShellTutor Program Terminal in
def main (args : List String) : IO UInt32 := do
  let name := lessonName args (← IO.getEnv "LINUX_QUEST_LESSON")
  let found ← lookUpFile (Text.trim name)
  match start (fun _ => found) name (← currentTime) with
  | .error failure => giveUp failure
  | .ok (text, session) =>
    IO.print text
    Program.converse (← IO.getEnv "NO_COLOR").isNone session
