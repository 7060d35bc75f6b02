import ShellTutor.Proofs.Command.Effect
import ShellTutor.Proofs.Permission.Bits
import ShellTutor.Proofs.Permission.Grammar

/-!
# Changing modes one after the other

`chmod` finds its operand by the path alone, so a second `chmod` finds it where the first did, and
overwrites what that one wrote. Two modes after each other are therefore as good as one mode that
changes permissions as both together. Clauses with a comma between them are such a mode, and so is
a mode that is repeated.
-/

namespace ShellTutor

theorem FileTree.put_put (t : FileTree) (key : String) (first second : Node) :
    (t.put key first).put key second = t.put key second := by
  simp only [put, Dictionary.put_put]

namespace Files

/-- What `chmod` reports of an operand. -/
def modeReport (operand : String) (p : Permissions) : String :=
  "mode of '" ++ operand ++ "' is now " ++ p.octal ++ " (" ++ p.symbolic ++ ")"

theorem changeMode_eq_match (env : Environment) (spec : ModeSpec) (t : FileTree)
    (operand : String) :
    changeMode env spec t operand =
      match t.node? (env.resolve operand) with
      | none => .error (.notFound (Path.lastName (env.resolve operand)))
      | some node =>
        .ok (modeReport operand (node.permissions.apply spec),
          t.put (env.resolve operand)
            { node with permissions := node.permissions.apply spec }) := by
  have hnormal : Path.IsNormal (env.resolve operand) := Path.isNormal_resolve env.cwd operand
  rw [changeMode_eq, FileTree.changePermissions, Path.join_normalize_parent hnormal]
  cases t.node? (env.resolve operand) <;> rfl

variable {env : Environment} {mode operand : String} {spec : ModeSpec}

theorem changeModes_of_missing (hmode : ModeSpec.ofString mode = .ok spec)
    (hnode : env.tree.node? (env.resolve operand) = none) :
    changeModes [mode, operand] env =
      (.error (.notFound (Path.lastName (env.resolve operand))), env) := by
  simp [changeModes, hmode, eachOperand, changeMode_eq_match, hnode]

theorem changeModes_of_node? {node : Node} (hmode : ModeSpec.ofString mode = .ok spec)
    (hnode : env.tree.node? (env.resolve operand) = some node) :
    changeModes [mode, operand] env =
      (.ok (.notice (Text.unlines [modeReport operand (node.permissions.apply spec)])),
        { env with
          tree := env.tree.put (env.resolve operand)
            { node with permissions := node.permissions.apply spec } }) := by
  simp [changeModes, hmode, eachOperand, changeMode_eq_match, hnode]

/-- Two modes after each other act on an operand as one that changes permissions as both. -/
theorem changeModes_changeModes {first second : String} {front back : ModeSpec}
    (hmode : ModeSpec.ofString mode = .ok spec) (hfirst : ModeSpec.ofString first = .ok front)
    (hsecond : ModeSpec.ofString second = .ok back)
    (hboth : ∀ p : Permissions, (p.apply front).apply back = p.apply spec) :
    changeModes [second, operand] (changeModes [first, operand] env).2 =
      changeModes [mode, operand] env := by
  cases hnode : env.tree.node? (env.resolve operand) with
  | none =>
    rw [changeModes_of_missing hfirst hnode, changeModes_of_missing hsecond hnode,
      changeModes_of_missing hmode hnode]
  | some node =>
    rw [changeModes_of_node? hfirst hnode, changeModes_of_node? hmode hnode]
    generalize hafter : ({ env with
      tree := env.tree.put (env.resolve operand)
        { node with permissions := node.permissions.apply front } } : Environment) = after
    -- The working directory stays, so the operand names the node that the first mode left.
    have hplace : after.resolve operand = env.resolve operand := by
      rw [← hafter]
      rfl
    have hthere : after.tree.node? (after.resolve operand) =
        some { node with permissions := node.permissions.apply front } := by
      rw [hplace, ← hafter, FileTree.node?_put, if_pos rfl]
    rw [changeModes_of_node? hsecond hthere, hplace, ← hafter]
    simp only [FileTree.put_put, hboth]

end Files

namespace Command

/-- What `chmod` does to permissions. Each of the nine is decided by the last clause that is about
its class and either assigns or names it, and is left alone if there is none. So a mode that is
applied twice is applied once, and clauses can be given at once or one after the other. -/
theorem chmod_decided_by_last_clause :
    (∀ (p : Permissions) (clauses : List ModeClause) (who : UserClass) (right : Right),
      (p.apply (.symbolic clauses)).has who right =
        match ModeClause.lastOn who right clauses with
        | some clause => clause.gives right
        | none => p.has who right) ∧
    (∀ (p : Permissions) (spec : ModeSpec), (p.apply spec).apply spec = p.apply spec) ∧
    (∀ (mode operand : String) (piped : Option String) (env : Environment),
      chmod.execute [mode, operand] piped (chmod.execute [mode, operand] piped env).2 =
        chmod.execute [mode, operand] piped env) ∧
    ∀ (first second : String) (front back : List ModeClause),
      ModeSpec.ofString first = .ok (.symbolic front) →
      ModeSpec.ofString second = .ok (.symbolic back) →
      ∀ (operand : String) (piped : Option String) (env : Environment),
        chmod.execute [first ++ "," ++ second, operand] piped env =
          chmod.execute [second, operand] piped (chmod.execute [first, operand] piped env).2 := by
  refine ⟨fun p clauses who right => p.has_apply_symbolic who right clauses,
    Permissions.apply_apply, fun mode operand piped env => ?_,
    fun first second front back hfirst hsecond operand piped env => ?_⟩
  · simp only [execute]
    cases hmode : ModeSpec.ofString mode with
    | error e => simp [Files.changeModes, hmode]
    | ok spec => exact Files.changeModes_changeModes hmode hmode hmode fun p => p.apply_apply spec
  · have hboth := ModeSpec.ofString_comma hfirst hsecond
    simp only [execute]
    rw [Files.changeModes_changeModes hboth hfirst hsecond fun p =>
      (p.apply_symbolic_append front back).symm]

theorem chmod_decided_by_last_clause_of_overlap :
    ∃ env after : Environment,
      (env.tree.node? "/f").map Node.permissions = some .fileDefault ∧
      (chmod.execute ["ug+x" ++ "," ++ "u-x,g=", "f"] none env).2 = after ∧
      (chmod.execute ["u-x,g=", "f"] none (chmod.execute ["ug+x", "f"] none env).2).2 = after ∧
      (after.tree.node? "/f").map Node.permissions = some ⟨.readWrite, .none, .readOnly⟩ := by
  generalize hnode : (⟨.fileDefault, "quest", "quest", ⟨0⟩, .file ""⟩ : Node) = node
  generalize henv : (⟨"/", "/", "quest", ⟨[("/f", node)], "quest", "quest"⟩, {}, [], ⟨60⟩⟩ :
    Environment) = env
  generalize hfront : [(⟨⟨true, true, false⟩, .add, ⟨false, false, true⟩⟩ : ModeClause)] = front
  generalize hback : [(⟨⟨true, false, false⟩, .remove, ⟨false, false, true⟩⟩ : ModeClause),
    ⟨⟨false, true, false⟩, .assign, .none⟩] = back
  have hfirst : ModeSpec.ofString "ug+x" = .ok (.symbolic front) := by
    rw [← Outcome.toOption_eq_some_iff, ← hfront]
    decide +kernel
  have hsecond : ModeSpec.ofString "u-x,g=" = .ok (.symbolic back) := by
    rw [← Outcome.toOption_eq_some_iff, ← hback]
    decide +kernel
  obtain ⟨-, -, -, hcomma⟩ := chmod_decided_by_last_clause
  have hsame := hcomma "ug+x" "u-x,g=" front back hfirst hsecond "f" none env
  refine ⟨env, _, ?_, rfl, congrArg Prod.snd hsame.symm, ?_⟩
  · subst henv hnode
    decide +kernel
  · subst henv hnode
    decide +kernel

end Command

end ShellTutor
