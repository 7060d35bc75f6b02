import ShellTutor.Proofs.Command.Allowlist
import ShellTutor.Proofs.Command.Failure
import ShellTutor.Proofs.Command.Reads
import ShellTutor.Proofs.FileTree.Calls

/-!
# Pipelines through files

A pipeline may be cut in two: what the first part would hand on is stored in a new file, and `cat`
hands it to the second part. The stages of the second part get the same data as without the cut,
and their words read the same as long as none of them is the file. So both ways end alike, at stages
whose numbers differ by a constant.
-/

namespace ShellTutor

open ShellTutor.Path (IsNormal)

namespace FileTree

variable {t t' : FileTree} {path : String}

end FileTree

namespace Registry

variable {reg : Registry}

/-- A pipeline may be cut anywhere behind its first stage. -/
theorem runStages_append (reg : Registry) {data : Option String} {front : List (List String)}
    (h : front ≠ [] ∨ data.isSome = true) (stage : Nat) (back : List (List String))
    (env : Environment) :
    (reg.runStages stage data (front ++ back) env).1 =
      match (reg.runStages stage data front env).1 with
      | .error e => .error e
      | .ok next => (reg.runStages (stage + front.length) (some next) back env).1 := by
  induction front generalizing stage data with
  | nil =>
    obtain ⟨next, rfl⟩ := Option.isSome_iff_exists.mp (h.resolve_left fun hne => hne rfl)
    rfl
  | cons tokens rest ih =>
    rw [List.cons_append, runStages_cons, runStages_cons]
    cases (reg.runStage data tokens env).1 with
    | error e => rfl
    | ok next =>
      have hnumber : stage + (tokens :: rest).length = stage + 1 + rest.length := by
        rw [List.length_cons]
        omega
      simp only [hnumber]
      exact ih (Or.inr rfl) (stage + 1)

/-- How two runs of the same stages end alike, which count them from `n` and from `m`: with the same
data, or at the same stage for the same cause. -/
inductive EndsAlike (n m length : Nat) :
    Except ShellError String → Except ShellError String → Prop
  | data (text : String) : EndsAlike n m length (.ok text) (.ok text)
  | cause {j : Nat} (hj : j < length) (cause : ShellError) :
      EndsAlike n m length (.error (.pipelineAborted (n + j) cause))
        (.error (.pipelineAborted (m + j) cause))

theorem EndsAlike.later {n m length : Nat} {x y : Except ShellError String}
    (h : EndsAlike (n + 1) (m + 1) length x y) : EndsAlike n m (length + 1) x y := by
  cases h with
  | data text => exact .data text
  | @cause j hj cause =>
    rw [Nat.add_right_comm n, Nat.add_right_comm m, Nat.add_assoc, Nat.add_assoc]
    exact .cause (by omega) cause

theorem prepareStage_cat (hcat : reg.get? "cat" = some .cat) (target : String) :
    reg.prepareStage none ["cat", target] = .ok (.cat, [target], none) := by
  rw [prepareStage_eq, resolveStage_of_get? hcat]
  rfl

/-- Showing one file hands on what it holds. -/
theorem runStage_cat (hcat : reg.get? "cat" = some .cat) {target data : String}
    (htarget : target ≠ "-n") {env : Environment} (hread : env.readOperand target = .ok data) :
    (reg.runStage none ["cat", target] env).1 = .ok data := by
  have hshown : Files.concatenate Command.cat.usage [target] env = .ok (.text data) := by
    simp [Files.concatenate, htarget, hread, Text.unlines, Ne.symm htarget]
  rw [runStage, prepareStage_cat hcat]
  simp [Command.execute, hshown, CommandOutput.data]

end Registry

end ShellTutor
