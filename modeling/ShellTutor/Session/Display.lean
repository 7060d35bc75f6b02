import ShellTutor.Session.Basic

/-!
# What a session shows

What a command gave back is shown line by line, or opens the pager or the editor. A failure is shown
under the name of the command that failed, with a hint where there is one.
-/

namespace ShellTutor.Session

/-- What is shown of a command's output, and the session with what the output opens. -/
def present (s : Session) : CommandOutput → List OutputLine × Session
  | .text text => ((Text.lines text).map .output, s)
  | .lines lines term => (lines.map fun line => (OutputLine.output line).withHighlight term, s)
  | .listing entries => (entries.map fun entry => .output entry.display, s)
  | .notice text => ((Text.lines text).map .notice, s)
  | .nothing => ([], s)
  | .clear => ([.clear], s)
  | .pager title content =>
    let window := Pager.ofText title content s.pageSize
    (window.renderFirst, { s with pager? := some window })
  | .editor path content =>
    let buffer := Editor.ofText path content
    (buffer.banner, { s with editor? := some buffer })

/-- The first word of a stage, counted from one. -/
def stageWord (parsed : ParsedLine) (stage : Nat) : String :=
  (parsed.stages[stage - 1]?.bind List.head?).getD "bash"

def runsScript (word : String) : Bool :=
  ['.', '/'].isPrefixOf word.toList

/-- A word without any `./` in front. -/
def scriptPath : List Char → List Char
  | '.' :: '/' :: cs => scriptPath cs
  | cs => cs

/-- The failure of a command, under its name. -/
def failureLine (word : String) (cause : ShellError) : OutputLine :=
  match cause with
  | .commandNotFound _ => .error cause.message
  | _ => .error ((if runsScript word then "bash" else word) ++ ": " ++ cause.message)

def hints (word : String) (cause : ShellError) : List OutputLine :=
  match cause with
  | .commandNotFound _ => [.notice "Type 'help' to see available commands"]
  | .permissionDenied _ =>
    if runsScript word then
      [.notice ("hint: make it executable with 'chmod u+x " ++
        String.ofList (scriptPath word.toList) ++ "'")]
    else []
  | _ => []

/-- What is shown of a failure. A pipeline also says where it stopped. -/
def failureLines (parsed : ParsedLine) : ShellError → List OutputLine
  | .pipelineAborted stage cause =>
    let word := stageWord parsed stage
    failureLine word cause ::
      .notice ("pipeline stopped at stage " ++ toString stage ++ "; nothing was written") ::
      hints word cause
  | cause =>
    let word := stageWord parsed 1
    failureLine word cause :: hints word cause

end ShellTutor.Session
