import ShellTutor.Lesson.Resolve
import ShellTutor.Screen.Render
import ShellTutor.Session.Submit
import ShellTutor.Terminal.Input

/-!
# The dialogue on a terminal

The terminal shows the tasks of a lesson and then, in turn, a prompt and the reply to the line that
was typed. The dialogue ends with the line `exit`, with the end of the input, with a failure to
read it, or in a crash.
-/

namespace ShellTutor.Terminal

/-- Why the program could not go on: what it was doing, and the cause. -/
structure Failure where
  doing : String
  cause : String
  deriving DecidableEq, Repr

/-- The report of a failure. Further lines of the cause are indented like the first. -/
def Failure.report (failure : Failure) : String :=
  "Error: " ++ failure.doing ++ "\n\nCaused by:\n    " ++
    String.ofList (Text.replaceAll ['\n'] "\n    ".toList failure.cause.toList) ++ "\n"

/-- The name of the lesson: the first argument, else the setting of the environment, else the last
day of the course. -/
def lessonName (args : List String) (setting : Option String) : String :=
  args.head?.getD (setting.getD "7")

def greeting (lesson : Lesson) (session : Session) : String :=
  lesson.title ++ "\n" ++
    String.join (session.board.tasks.map fun task => "  [ ] " ++ task.description ++ "\n") ++ "\n"

/-- Finds the lesson of a name and starts it. Returns what is shown at first. -/
def start (file : String → Option (Except String String)) (name : String) (now : Timestamp) :
    Except Failure (String × Session) := do
  let lesson ← (Lesson.resolve file name).mapError fun e =>
    ⟨"loading lesson '" ++ name ++ "'", e.message⟩
  let session ← (Session.ofLesson lesson now).mapError fun e => ⟨"building the shell", e.message⟩
  return (greeting lesson session, session)

def promptText (session : Session) : String :=
  if session.inPager then ": "
  else if session.inEditor then "> "
  else session.prompt ++ " "

/-- The lines of a reply as they are shown, up to one that cannot be shown. The echo is left out,
because the line is on the screen already. -/
def replyTexts (color : Bool) (lines : List OutputLine) : List (Option String) :=
  (lines.dropWhile (·.kind == .echo)).map fun line => (line.render? color).map (· ++ "\n")

/-- How the dialogue goes on. -/
inductive Step where
  | proceed (session : Session)
  | leave
  | fail (failure : Failure)
  | crash
  deriving DecidableEq, Repr

/-- The answer to an input, or to the end of the input: what is shown, and how to go on. -/
def answer (color : Bool) (session : Session) (now : Timestamp) : Option Input → String × Step
  | none => ("\n", .leave)
  | some (.unreadable reason) => ("", .fail ⟨"reading stdin", reason⟩)
  | some (.line line) =>
    if session.takesCommands ∧ Text.trim line = "exit" then ("", .leave)
    else
      match session.submit? line now with
      | none => ("", .crash)
      | some (reply, next) =>
        let texts := replyTexts color reply.lines
        (String.join (texts.takeWhile Option.isSome).reduceOption,
          if texts.all Option.isSome then .proceed next else .crash)

/-- How a dialogue ended. -/
inductive Ending where
  | left
  | failed (failure : Failure)
  | crashed
  deriving DecidableEq, Repr

/-- A whole dialogue: all that was shown, and how it ended. -/
structure Transcript where
  shown : String
  ending : Ending
  deriving DecidableEq, Repr

def Transcript.after (text : String) (t : Transcript) : Transcript :=
  { t with shown := text ++ t.shown }

/-- A dialogue over all the inputs, at one time. -/
def converse (color : Bool) (now : Timestamp) : Session → List Input → Transcript
  | session, inputs =>
    let (text, step) := answer color session now inputs.head?
    let shown := promptText session ++ text
    match inputs, step with
    | _ :: rest, .proceed next => (converse color now next rest).after shown
    | _, .fail failure => ⟨shown, .failed failure⟩
    | _, .crash => ⟨shown, .crashed⟩
    | _, _ => ⟨shown, .left⟩

def play (file : String → Option (Except String String)) (name : String) (color : Bool)
    (now : Timestamp) (inputs : List Input) : Transcript :=
  match start file name now with
  | .error failure => ⟨"", .failed failure⟩
  | .ok (text, session) => (converse color now session inputs).after text

end ShellTutor.Terminal
