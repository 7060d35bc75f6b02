import ShellTutor.Proofs.Session.Reachable

/-!
# The modes of a session

A session is in one of three modes: its pager is open, its editor is, or it takes commands. Each
mode has its own part of the session that a line can change, and only a write of the editor or a
line for the commands is ever reported.
-/

namespace ShellTutor

namespace Session

variable {s next : Session} {line : String} {now : Timestamp} {events : List CommandEvent}

end Session

end ShellTutor
