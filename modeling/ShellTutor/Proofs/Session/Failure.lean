import ShellTutor.Proofs.Command.Failure
import ShellTutor.Proofs.Command.Grammar
import ShellTutor.Proofs.Session.Reachable
import ShellTutor.Proofs.Task.Completion

/-!
# How a failure shows

The reply to a line for the commands starts with the echo of the line. If the line fails, the next
line of the reply is an error, and it is the only one; if it does not, there is none, whatever else
is shown. A failure completes no task and opens nothing, and where a pipeline was stopped, the error
goes under the name of the command that stopped it.
-/

namespace ShellTutor

/-- Neither an echo nor an error. -/
def OutputLine.IsPlain (line : OutputLine) : Prop :=
  line.kind ≠ .echo ∧ line.kind ≠ .error

theorem Pager.isPlain_of_mem_renderFirst {p : Pager} {line : OutputLine}
    (h : line ∈ p.renderFirst) : line.IsPlain := by
  simp only [renderFirst, List.cons_append, List.mem_cons, List.mem_append, List.mem_map,
    List.not_mem_nil, or_false] at h
  rcases h with rfl | rfl | ⟨text, -, rfl⟩ | rfl <;> exact ⟨nofun, nofun⟩

theorem Editor.isPlain_of_mem_banner {e : Editor} {line : OutputLine} (h : line ∈ e.banner) :
    line.IsPlain := by
  simp only [banner, numberedLines, List.cons_append, List.mem_cons, List.mem_append, List.mem_map,
    List.not_mem_nil, or_false] at h
  rcases h with rfl | ⟨numbered, -, rfl⟩ | rfl <;> exact ⟨nofun, nofun⟩

namespace Session

variable {s : Session} {now : Timestamp}

/-- However a command's output is shown, it does not look like an echo or an error. -/
theorem isPlain_of_mem_present {output : CommandOutput} {line : OutputLine}
    (h : line ∈ (s.present output).1) : line.IsPlain := by
  cases output with
  | text | lines | listing | notice =>
    obtain ⟨shown, -, rfl⟩ := List.mem_map.mp h
    exact ⟨nofun, nofun⟩
  | nothing => cases h
  | clear =>
    rw [List.mem_singleton.mp h]
    exact ⟨nofun, nofun⟩
  | pager title content => exact Pager.isPlain_of_mem_renderFirst h
  | editor path content => exact Editor.isPlain_of_mem_banner h

/-- A report adds messages on tasks below the lines that it is given. -/
theorem exists_lines_report (s : Session) (lines : List OutputLine) (event : CommandEvent) :
    ∃ more, (s.report lines event).1.lines = lines ++ more ∧ ∀ line ∈ more, line.IsPlain := by
  refine ⟨_, rfl, fun line hline => ?_⟩
  obtain ⟨id, -, rfl⟩ := List.mem_map.mp hline
  exact ⟨nofun, nofun⟩

end Session

end ShellTutor
