import ShellTutor.Proofs.Command.Effect
import ShellTutor.Proofs.FileTree.Alike

/-!
# Commands side by side

A command is run on two environments that differ in hidden contents only. It sees their trees by
the operations on trees alone, and each of these gives the same answer on both sides as long as the
hidden files cannot be read. The administration tool is left out here, since it looks at contents
without a read.
-/

namespace ShellTutor

open Outcome (Paired)

variable {hidden : String → Prop}

theorem Node.Twin.longLine {n n' : Node} (h : n.Twin n') (name : String) :
    n'.longLine name = n.longLine name := by
  unfold Node.longLine Node.typeChar
  rw [h.isDirectory, h.permissions, h.owner, h.group, h.size, h.modified]

/-- Two environments that differ in hidden contents only. -/
def Environment.Alike (hidden : String → Prop) (env env' : Environment) : Prop :=
  ∃ tree, FileTree.Alike hidden env.tree tree ∧ env' = { env with tree }

namespace Environment.Alike

variable {env env' : Environment}

section Fields

variable (h : env.Alike hidden env')
include h

theorem tree : FileTree.Alike hidden env.tree env'.tree := by
  obtain ⟨tree, htree, rfl⟩ := h
  exact htree

theorem cwd : env'.cwd = env.cwd := by
  obtain ⟨tree, -, rfl⟩ := h
  rfl

theorem home : env'.home = env.home := by
  obtain ⟨tree, -, rfl⟩ := h
  rfl

theorem user : env'.user = env.user := by
  obtain ⟨tree, -, rfl⟩ := h
  rfl

theorem history : env'.history = env.history := by
  obtain ⟨tree, -, rfl⟩ := h
  rfl

theorem now : env'.now = env.now := by
  obtain ⟨tree, -, rfl⟩ := h
  rfl

theorem resolve : env'.resolve = env.resolve := by
  obtain ⟨tree, -, rfl⟩ := h
  rfl

/-- What can be read is the same while nothing hidden can. -/
theorem readOperand (hhidden : env.tree.Unreadable hidden) :
    env'.readOperand = env.readOperand := by
  funext operand
  rw [Environment.readOperand, Environment.readOperand, h.cwd, h.tree.readFrom hhidden]

theorem withTree {tree tree' : FileTree} (htree : FileTree.Alike hidden tree tree') :
    Environment.Alike hidden { env with tree } { env' with tree := tree' } := by
  obtain ⟨old, -, rfl⟩ := h
  exact ⟨tree', htree, rfl⟩

theorem withCwd (cwd : String) :
    Environment.Alike hidden { env with cwd } { env' with cwd } := by
  obtain ⟨tree, htree, rfl⟩ := h
  exact ⟨tree, htree, rfl⟩

end Fields

end Environment.Alike

/-- The same answer in two runs, which leave environments that differ in hidden contents only. -/
structure Outcome.Alike {α : Type} (hidden : String → Prop)
    (out out' : Except ShellError α × Environment) : Prop where
  answer : out'.1 = out.1
  left : Environment.Alike hidden out.2 out'.2

theorem Outcome.Alike.map {α β : Type} {out out' : Except ShellError α × Environment}
    (h : Outcome.Alike hidden out out') (f : α → β) :
    Outcome.Alike hidden (out.1.map f, out.2) (out'.1.map f, out'.2) :=
  ⟨congrArg (Except.map f) h.answer, h.left⟩

/-- Operands are gone through side by side. -/
theorem alike_eachOperand {α α' β : Type} {R : α → α' → Prop}
    {act : FileTree → α → Except ShellError (β × FileTree)}
    {act' : FileTree → α' → Except ShellError (β × FileTree)}
    (hact : ∀ t t' a a', FileTree.Alike hidden t t' → R a a' →
      Paired (fun r r' => r'.1 = r.1 ∧ FileTree.Alike hidden r.2 r'.2) (act t a) (act' t' a'))
    {operands : List α} {operands' : List α'} (hoperands : List.Forall₂ R operands operands')
    {t t' : FileTree} (h : FileTree.Alike hidden t t') :
    (eachOperand act' t' operands').1 = (eachOperand act t operands).1 ∧
      FileTree.Alike hidden (eachOperand act t operands).2 (eachOperand act' t' operands').2 := by
  induction hoperands generalizing t t' with
  | nil => exact ⟨rfl, h⟩
  | @cons a a' rest rest' ha _ ih =>
    have hfirst := hact t t' a a' h ha
    rw [eachOperand, eachOperand]
    generalize act t a = made at hfirst ⊢
    generalize act' t' a' = made' at hfirst ⊢
    cases hfirst with
    | error e => exact ⟨rfl, h⟩
    | @ok made made' hmade =>
      obtain ⟨b, t⟩ := made
      obtain ⟨b', t'⟩ := made'
      obtain ⟨rfl, ht⟩ : b' = b ∧ FileTree.Alike hidden t t' := hmade
      obtain ⟨hresults, htrees⟩ := ih ht
      simp only
      generalize eachOperand act t rest = others at hresults htrees ⊢
      generalize eachOperand act' t' rest' = others' at hresults htrees ⊢
      obtain ⟨results, t⟩ := others
      obtain ⟨results', t'⟩ := others'
      obtain rfl : results' = results := hresults
      cases results' <;> exact ⟨rfl, htrees⟩

section Commands

variable {env env' : Environment} (h : env.Alike hidden env')
include h

namespace Files

theorem alike_changeDirectory (args : List String) :
    Outcome.Alike hidden (changeDirectory args env) (changeDirectory args env') := by
  cases args with
  | nil =>
    obtain ⟨tree, htree, rfl⟩ := h
    exact ⟨rfl, tree, htree, rfl⟩
  | cons arg rest =>
    have htarget : destination env' arg = destination env arg := by
      rw [destination, destination, h.resolve, h.home]
    rw [changeDirectory, changeDirectory, htarget, FileTree.get?, FileTree.get?]
    rcases h.tree.node?_cases (Path.normalize (destination env arg)) with ⟨hnone, hnone'⟩ |
      ⟨node, node', hfound, hfound', htwin, -⟩
    · rw [hnone, hnone']
      exact ⟨rfl, h⟩
    · rw [hfound, hfound']
      simp only [htwin.isDirectory]
      split
      · exact ⟨rfl, h.withCwd _⟩
      · exact ⟨rfl, h⟩

theorem list_alike (args : List String) : list args env' = list args env := by
  unfold list
  rw [h.resolve, h.cwd]
  cases args.foldlM ListOptions.word {} with
  | error e => rfl
  | ok o =>
    simp only [Outcome.ok_bind, Outcome.pure_eq_ok]
    generalize (Option.map env.resolve o.operand).getD env.cwd = path
    have hentries := h.tree.list path
    rw [FileTree.get?, FileTree.get?]
    rcases h.tree.node?_cases (Path.normalize path) with ⟨hnone, hnone'⟩ |
      ⟨node, node', hfound, hfound', htwin, -⟩
    · rw [hnone, hnone']
    · rw [hfound, hfound']
      simp only [htwin.isDirectory, htwin.longLine]
      split
      · rfl
      · generalize env.tree.list path = entries at hentries ⊢
        generalize env'.tree.list path = entries' at hentries ⊢
        cases hentries with
        | error e => rfl
        | ok hentries =>
          have hlong := FileTree.map_of_entryTwins (fun e => e.2.longLine e.1)
            (fun _ _ _ htwin => htwin.longLine _) hentries
          have hshort := FileTree.map_of_entryTwins
            (fun e => (⟨e.1, e.2.isDirectory⟩ : ListingEntry))
            (fun _ _ _ htwin => by simp only [htwin.isDirectory]) hentries
          simp only [Outcome.ok_bind, hentries.length_eq, hlong, hshort]

/-- Commands that do the same to each operand, for operations that do the same to both trees. -/
theorem alike_operands {β : Type} {act act' : FileTree → String → Except ShellError (β × FileTree)}
    (hact : ∀ t t' operand, FileTree.Alike hidden t t' →
      Paired (fun r r' => r'.1 = r.1 ∧ FileTree.Alike hidden r.2 r'.2) (act t operand)
        (act' t' operand))
    (operands : List String) (answer : List β → CommandOutput) :
    Outcome.Alike hidden
      ((eachOperand act env.tree operands).1.map answer,
        { env with tree := (eachOperand act env.tree operands).2 })
      ((eachOperand act' env'.tree operands).1.map answer,
        { env' with tree := (eachOperand act' env'.tree operands).2 }) := by
  have hsame : ∀ t t' operand operand', FileTree.Alike hidden t t' → operand = operand' →
      Paired (fun r r' => r'.1 = r.1 ∧ FileTree.Alike hidden r.2 r'.2) (act t operand)
        (act' t' operand') := by
    rintro t t' operand _ ht rfl
    exact hact t t' operand ht
  obtain ⟨hresult, htree⟩ := alike_eachOperand hsame (List.forall₂_same.mpr fun _ _ => rfl) h.tree
  exact ⟨congrArg (Except.map answer) hresult, h.withTree htree⟩

theorem alike_makeDirectories (args : List String) :
    Outcome.Alike hidden (makeDirectories args env) (makeDirectories args env') := by
  refine alike_operands h (fun t t' operand ht => ?_) args fun _ => .nothing
  rw [makeDirectory_eq, makeDirectory_eq, h.resolve, h.now]
  exact (ht.createDirectory _ _ _).map fun _ _ hmade => ⟨rfl, hmade⟩

theorem alike_touchFiles (args : List String) :
    Outcome.Alike hidden (touchFiles args env) (touchFiles args env') := by
  refine alike_operands h (fun t t' operand ht => ?_) args fun _ => .nothing
  rw [touchFile_eq, touchFile_eq, h.resolve, h.now]
  exact (ht.createFile _ _ _ _).map fun _ _ hmade => ⟨rfl, hmade⟩

theorem alike_changeModes (args : List String) :
    Outcome.Alike hidden (changeModes args env) (changeModes args env') := by
  unfold changeModes
  cases ModeSpec.ofString (args.headD "") with
  | error e => exact ⟨rfl, h⟩
  | ok spec =>
    refine alike_operands h (fun t t' operand ht => ?_) args.tail fun report =>
      .notice (Text.unlines report)
    rw [changeMode_eq, changeMode_eq, h.resolve]
    refine (ht.changePermissions _ _ spec).map ?_
    rintro ⟨permissions, after⟩ ⟨_, after'⟩ ⟨rfl, hafter⟩
    exact ⟨rfl, hafter⟩

end Files

section Reads

variable (hhidden : env.tree.Unreadable hidden)
include hhidden

theorem Files.concatenate_alike (usage : String) (args : List String) :
    concatenate usage args env' = concatenate usage args env := by
  unfold concatenate
  rw [h.readOperand hhidden]

theorem Files.page_alike (args : List String) : page args env' = page args env := by
  unfold page
  rw [h.readOperand hhidden]

theorem Files.edit_alike (args : List String) : edit args env' = edit args env := by
  rw [edit, edit, h.resolve, h.readOperand hhidden, h.tree.isDirectory, FileTree.get?,
    FileTree.get?]
  rcases h.tree.node?_cases (Path.normalize (env.resolve (args.headD ""))) with
    ⟨hnone, hnone'⟩ | ⟨node, node', hfound, hfound', -⟩
  · rw [hnone, hnone']
  · rw [hfound, hfound']

theorem Filter.input_alike (usage : String) (piped file : Option String) :
    input usage env' piped file = input usage env piped file := by
  unfold input
  rw [h.readOperand hhidden]

end Reads

end Commands

namespace Script

/-- A script does not look at the tree that it runs on. -/
theorem walkLine_withTree (line : String) (env : Environment) (tree : FileTree) :
    walkLine line { env with tree } =
      ((walkLine line env).1, { (walkLine line env).2 with tree }) := by
  unfold walkLine
  cases assignment? line.toList with
  | some assigned => rfl
  | none =>
    simp only
    split_ifs
    · rfl
    · cases (lineWords line.toList).tail.head? <;> rfl
    · rfl
    · rfl
    · cases lineWords line.toList <;> rfl

theorem walk_withTree (env : Environment) (tree : FileTree) (lines : List String) :
    walk { env with tree } lines = ((walk env lines).1, { (walk env lines).2 with tree }) := by
  induction lines generalizing env with
  | nil => rfl
  | cons raw rest ih =>
    rw [walk, walk]
    simp only
    split_ifs
    · exact ih env
    · rw [walkLine_withTree, ih]

variable {env env' : Environment} (h : env.Alike hidden env')
  (hhidden : env.tree.Unreadable hidden)
include h hhidden

theorem alike_runOperand (operand : String) :
    Outcome.Alike hidden (runOperand operand env) (runOperand operand env') := by
  rw [runOperand_eq, runOperand_eq, h.readOperand hhidden]
  cases env.readOperand operand with
  | error e => exact ⟨rfl, h⟩
  | ok source =>
    obtain ⟨vars, hwalk⟩ := walk_env env (Text.lines source)
    obtain ⟨tree, htree, rfl⟩ := h
    simp only [run, walk_withTree, hwalk]
    exact ⟨rfl, tree, htree, rfl⟩

theorem alike_execute (operand : String) :
    Outcome.Alike hidden (execute operand env) (execute operand env') := by
  have hrun := alike_runOperand h hhidden operand
  unfold execute
  simp only [h.resolve]
  rw [FileTree.get?, FileTree.get?]
  rcases h.tree.node?_cases (Path.normalize (env.resolve operand)) with ⟨hnone, hnone'⟩ |
    ⟨node, node', hfound, hfound', htwin, -⟩
  · rw [hnone, hnone']
    exact ⟨rfl, h⟩
  · rw [hfound, hfound']
    simp only [htwin.isDirectory, htwin.permissions]
    split_ifs
    · exact ⟨rfl, h⟩
    · exact ⟨rfl, h⟩
    · exact hrun

end Script

namespace Demo

variable {env env' : Environment} (h : env.Alike hidden env')
include h

/-- The same example is written to both trees. -/
theorem alike_write (file content : String) :
    Outcome.Alike hidden (write file content env) (write file content env') := by
  obtain ⟨tree, htree, rfl⟩ := h
  have hwritten := htree.writeFile_same env.cwd file content .overwrite env.now
  rw [write, write]
  simp only
  generalize env.tree.writeFile env.cwd file content .overwrite env.now = made at hwritten ⊢
  generalize tree.writeFile env.cwd file content .overwrite env.now = made' at hwritten ⊢
  cases hwritten with
  | error e => exact ⟨rfl, tree, htree, rfl⟩
  | @ok t t' ht =>
    have hchanged := ht.changePermissions env.cwd file mode
    simp only
    generalize t.changePermissions env.cwd file mode = changed at hchanged ⊢
    generalize t'.changePermissions env.cwd file mode = changed' at hchanged ⊢
    cases hchanged with
    | error e => exact ⟨rfl, t', ht, rfl⟩
    | ok hchanged => exact ⟨rfl, _, hchanged.2, rfl⟩

theorem alike_run (args : List String) :
    Outcome.Alike hidden (run args env) (run args env') := by
  cases args with
  | nil => exact ⟨rfl, h⟩
  | cons kind rest =>
    rw [run, run]
    cases scripts.lookup kind with
    | none => exact ⟨rfl, h⟩
    | some source => exact (alike_write h (kind ++ "_demo.sh") (Text.unlines source)).map _

end Demo

/-- Every command but the administration tool does the same on both sides. -/
theorem Command.alike_execute {env env' : Environment} (h : env.Alike hidden env')
    (hhidden : env.tree.Unreadable hidden) {cmd : Command} (hcmd : cmd ≠ .admin)
    (args : List String) (piped : Option String) :
    Outcome.Alike hidden (cmd.execute args piped env) (cmd.execute args piped env') := by
  have hinput := Filter.input_alike h hhidden
  cases cmd with
  | admin => exact absurd rfl hcmd
  | pwd => exact ⟨by simp only [execute, h.cwd], h⟩
  | history => exact ⟨by simp only [execute, Files.history, h.history], h⟩
  | echo | clear => exact ⟨rfl, h⟩
  | cd => exact Files.alike_changeDirectory h args
  | mkdir => exact Files.alike_makeDirectories h args
  | touch => exact Files.alike_touchFiles h args
  | chmod => exact Files.alike_changeModes h args
  | ls => exact ⟨Files.list_alike h args, h⟩
  | cat => exact ⟨Files.concatenate_alike h hhidden cat.usage args, h⟩
  | less => exact ⟨Files.page_alike h hhidden args, h⟩
  | edit | nano => exact ⟨Files.edit_alike h hhidden args, h⟩
  | bash => exact Script.alike_runOperand h hhidden (args.headD "")
  | runScript => exact Script.alike_execute h hhidden (args.headD "")
  | demo => exact Demo.alike_run h args
  | head => exact ⟨by simp only [execute, Filter.head, Filter.select, hinput], h⟩
  | tail => exact ⟨by simp only [execute, Filter.tail, Filter.select, hinput], h⟩
  | wc => exact ⟨by simp only [execute, Filter.count, hinput], h⟩
  | grep => exact ⟨by simp only [execute, Filter.grep, hinput], h⟩
  | sort => exact ⟨by simp only [execute, Filter.sort, hinput], h⟩
  | uniq => exact ⟨by simp only [execute, Filter.uniq, hinput], h⟩
  | cut => exact ⟨by simp only [execute, Filter.cut, hinput], h⟩

end ShellTutor
