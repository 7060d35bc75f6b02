import ShellTutor.Session.Display

/-!
# Submitting lines

A session is driven by `Session.submit`, which takes one line and gives a reply: the lines to show,
and the events that were reported to the task boards. Failures are part of the reply. Time is an
argument, so a session with the same lines at the same times always gives the same replies. Only a
line that crashes has no reply.
-/

namespace ShellTutor

/-- What a submitted line led to. -/
structure Reply where
  /-- The lines to show. -/
  lines : List OutputLine
  /-- What was reported to the task boards. -/
  events : List CommandEvent := []
  deriving DecidableEq, Repr

namespace Session

variable (s : Session)

/-- The message that a task is complete. The lesson's description stands for the id, if there is
one. -/
def announcement (id : String) : OutputLine :=
  let description := (s.board.description? id).getD ""
  .notice ("task complete: " ++ if description = "" then id else description)

/-- Reports an event to the boards, that of the lesson first, and announces the tasks that it
completes below the given lines. -/
def report (lines : List OutputLine) (event : CommandEvent) : Reply × Session :=
  let (ids, board) := s.board.observe event s.tree
  let watched := s.watchers.map fun watcher => watcher.observe event s.tree
  let completed := ids ++ watched.flatMap Prod.fst
  ({ lines := lines ++ completed.map s.announcement, events := [event] },
    { s with board, watchers := watched.map Prod.snd })

/-- Writes a file for the editor. Its name is seen from the working directory. -/
def saveFile (name content : String) (now : Timestamp) : Except ShellError (Reply × Session) :=
  let path := Path.resolve s.cwd name
  let (dir, file) := Path.splitParent path
  match s.tree.writeFile dir file content .overwrite now with
  | .error e => .error e
  | .ok tree => .ok (({ s with tree }).report [.notice ("saved " ++ file)] (.saved path s.cwd))

def editorClosed : OutputLine :=
  .notice "--- editor closed ---"

/-- Writes the buffer of the editor. If that succeeds, further lines follow the reply and the
editor is left as `after`. -/
def writeBuffer (e : Editor) (more : List OutputLine) (after : Option Editor) (now : Timestamp) :
    Reply × Session :=
  match s.saveFile e.path e.content now with
  | .error cause => (⟨[.error ("save failed: " ++ cause.message)], []⟩, s)
  | .ok (reply, next) =>
    ({ reply with lines := reply.lines ++ more }, { next with editor? := after })

/-- Takes a line for the editor. Text is added without a word. -/
def edit (e : Editor) (now : Timestamp) : EditorInput → Reply × Session
  | .text line => (⟨[], []⟩, { s with editor? := some (e.push line) })
  | .show => (⟨e.render, []⟩, s)
  | .deleteLast =>
    let (line, buffer) := e.deleteLast
    (⟨[line], []⟩, { s with editor? := some buffer })
  | .quit =>
    if e.modified then (⟨[.error "unsaved changes: use :wq to save or :q! to discard"], []⟩, s)
    else (⟨[editorClosed], []⟩, { s with editor? := none })
  | .forceQuit => (⟨[editorClosed], []⟩, { s with editor? := none })
  | .write => s.writeBuffer e [] (some e.markSaved) now
  | .writeQuit => s.writeBuffer e [editorClosed] none now

def page (p : Pager) (key : PagerKey) : Reply × Session :=
  let (lines, window) := p.handle key
  (⟨lines, []⟩, { s with pager? := window })

/-- Runs a trimmed line that is not empty, below the given echo, and reports it. -/
def command (echo : OutputLine) (line : String) (now : Timestamp) : Reply × Session :=
  let s := { s with history := s.history ++ [line] }
  match ParsedLine.parse line with
  | .error e =>
    s.report [echo, .error ("bash: " ++ e.message)] (.ofLine line none false s.cwd)
  | .ok parsed =>
    let (result, next) := s.run parsed now
    let event := (CommandEvent.ofLine line parsed result.isOk next.cwd).withTarget s.cwd
    match result with
    | .error e => next.report (echo :: failureLines parsed e) event
    | .ok output =>
      let (lines, next) := next.present output
      next.report (echo :: lines) event

/-- Submits a line to whatever takes the lines. A blank line for the commands is only echoed. -/
def submit (line : String) (now : Timestamp) : Reply × Session :=
  match s.pager?, s.editor? with
  | some p, _ => s.page p (.parse line)
  | none, some e => s.edit e now (.parse line)
  | none, none =>
    let line := Text.trim line
    let echo := OutputLine.echo (s.prompt ++ " " ++ line)
    if line = "" then (⟨[echo], []⟩, s) else s.command echo line now

/-- Whether a line for the commands crashes: on its way, or because a pager cannot show its first
window. -/
def commandCrashes (line : String) (now : Timestamp) : Bool :=
  let s := { s with history := s.history ++ [line] }
  match ParsedLine.parse line with
  | .error _ => false
  | .ok parsed =>
    s.registry.crashes parsed none (s.environment now) ||
      match (s.run parsed now).1 with
      | .ok (.pager title content) => (Pager.ofText title content s.pageSize).renderFirst?.isNone
      | _ => false

def crashes (line : String) (now : Timestamp) : Bool :=
  match s.pager?, s.editor? with
  | some p, _ => (p.handle? (.parse line)).isNone
  | none, some _ => false
  | none, none => Text.trim line ≠ "" && s.commandCrashes (Text.trim line) now

/-- Submits a line that does not crash. -/
def submit? (line : String) (now : Timestamp) : Option (Reply × Session) :=
  if s.crashes line now then none else some (s.submit line now)

end Session

end ShellTutor
