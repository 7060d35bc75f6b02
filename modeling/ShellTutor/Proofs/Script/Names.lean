import ShellTutor.Proofs.Command.Effect
import ShellTutor.Proofs.Script.Program

/-!
# The names that a script sets

A line of a script sets at most one variable. An assignment is told by the identifier in front of
its equals sign, but `read` takes the word behind it as it stands. So the name that a script sets is
an identifier, or it is such a word and has the value that `read` gives.
-/

namespace ShellTutor

/-- The names that have a value, in the order in which they were first set. -/
def Variables.names (vars : Variables) : List String :=
  vars.entries.map Prod.fst

theorem Variables.mem_names_set (vars : Variables) (name value other : String) :
    other ∈ (vars.set name value).names ↔ other = name ∨ other ∈ vars.names := by
  rw [names, set, Dictionary.keys_put, ← names]
  split
  · rename_i hthere
    exact ⟨Or.inr, fun h => h.elim (fun heq => heq ▸ hthere) id⟩
  · rw [List.mem_append, List.mem_singleton, or_comm]

namespace Script

variable {env : Environment} {raw source name value : String}

theorem mem_names_assignAll (vars : Variables) (pairs : List (String × String)) (name : String) :
    name ∈ (assignAll vars pairs).names ↔ name ∈ vars.names ∨ name ∈ pairs.map Prod.fst := by
  induction pairs generalizing vars with
  | nil => simp [assignAll]
  | cons pair pairs ih =>
    rw [assignAll, List.foldl_cons, ← assignAll, ih, Variables.mem_names_set, List.map_cons,
      List.mem_cons, or_comm (a := name = pair.1), or_assoc]

/-- The word behind `read`, if a line starts with that. -/
def readName? (line : String) : Option String :=
  let words := lineWords line.toList
  if words.head? = some "read" then words.tail.head? else none

/-- What a line that is walked through sets, if it sets anything: a name and its value. -/
def setOn? (line : String) : Option (String × String) :=
  (assignment? line.toList).or ((readName? line).map (·, demoInput))

/-- What a line of a script sets. -/
def setBy? (raw : String) : Option (String × String) :=
  let line := Text.trim raw
  if line = "" ∨ line.toList.head? = some '#' then none else setOn? line

/-- What a script sets, in order. -/
def setsOf (source : String) : List (String × String) :=
  (Text.lines source).filterMap setBy?

/-- A line of the script, neither a comment nor an assignment, is a `read` of the given word. -/
def Reads (source name : String) : Prop :=
  ∃ raw ∈ Text.lines source, (Text.trim raw).toList.head? ≠ some '#' ∧
    assignment? (Text.trim raw).toList = none ∧ readName? (Text.trim raw) = some name

theorem walkLine_sets (line : String) (env : Environment) :
    (walkLine line env).2 = { env with vars := assignAll env.vars (setOn? line).toList } := by
  rw [walkLine, setOn?, readName?]
  cases assignment? line.toList with
  | some pair => rfl
  | none =>
    cases lineWords line.toList with
    | nil => rfl
    | cons first rest =>
      by_cases hecho : first = "echo"
      · subst hecho
        rfl
      · by_cases hread : first = "read"
        · subst hread
          cases rest <;> rfl
        · simp only [List.head?_cons, Option.some.injEq, hecho, hread, if_false]
          split_ifs <;> rfl

/-- A script leaves behind what its lines set, one after the other. -/
theorem walk_sets (env : Environment) (lines : List String) :
    (walk env lines).2 =
      { env with vars := assignAll env.vars (lines.filterMap setBy?) } := by
  induction lines generalizing env with
  | nil => rfl
  | cons raw rest ih =>
    by_cases hpassed : Text.trim raw = "" ∨ (Text.trim raw).toList.head? = some '#'
    · have hnone : setBy? raw = none := if_pos hpassed
      rw [walk_of_passed hpassed, List.filterMap_cons_none hnone, ih]
    · have hsets : setBy? raw = setOn? (Text.trim raw) := if_neg hpassed
      rw [walk_of_not_passed hpassed, ih, walkLine_sets, ← hsets, List.filterMap_cons]
      cases setBy? raw <;> rfl

theorem runOperand_sets {operand : String} (h : env.readOperand operand = .ok source) :
    (runOperand operand env).2 =
      { env with vars := assignAll env.vars (setsOf source) } := by
  rw [runOperand_eq, h]
  exact walk_sets env (Text.lines source)

/-- The name in front of the equals sign is an identifier. -/
theorem isIdentifier_of_assignment? {line : List Char}
    (h : assignment? line = some (name, value)) : isIdentifier name.toList = true := by
  unfold assignment? at h
  split_ifs at h
  split at h
  · split_ifs at h with hidentifier
    rw [Option.some.injEq, Prod.mk.injEq] at h
    rw [← h.1, String.toList_ofList]
    exact hidentifier
  · cases h

/-- Whatever a script sets has an identifier for its name, or it is set by `read`. -/
theorem isIdentifier_or_reads (h : (name, value) ∈ setsOf source) :
    isIdentifier name.toList = true ∨ value = demoInput ∧ Reads source name := by
  obtain ⟨raw, hraw, hset⟩ := List.mem_filterMap.mp h
  simp only [setBy?] at hset
  split_ifs at hset with hpassed
  rcases Option.or_eq_some_iff.mp hset with hassigned | ⟨hplain, hread⟩
  · exact Or.inl (isIdentifier_of_assignment? hassigned)
  · obtain ⟨word, hword, heq⟩ := Option.map_eq_some_iff.mp hread
    obtain ⟨rfl, rfl⟩ := Prod.mk.inj heq
    exact Or.inr ⟨rfl, raw, hraw, fun hcomment => hpassed (Or.inr hcomment), hplain, hword⟩

/-- Every `read` of a word sets it, whatever the word is. -/
theorem mem_setsOf_of_reads (h : Reads source name) : (name, demoInput) ∈ setsOf source := by
  obtain ⟨raw, hraw, hcomment, hplain, hread⟩ := h
  refine List.mem_filterMap.mpr ⟨raw, hraw, ?_⟩
  have hempty : Text.trim raw ≠ "" := fun hempty => by
    rw [hempty] at hread
    cases hread
  rw [setBy?, if_neg (not_or.mpr ⟨hempty, hcomment⟩), setOn?, hplain, hread]
  rfl

end Script

end ShellTutor
