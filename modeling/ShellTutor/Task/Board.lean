import ShellTutor.Task.Rule

/-!
# The task board

A board holds the tasks of a lesson and records which of them are complete, in the order of
completion. A task is completed by the first event that its rule accepts, and stays complete until
the board is reset.
-/

namespace ShellTutor

/-- The tasks that are complete, in the order of completion. -/
structure CompletedTasks where
  ids : List String := []
  deriving DecidableEq, Repr

namespace CompletedTasks

def contains (done : CompletedTasks) (id : String) : Bool :=
  done.ids.contains id

/-- Records a task, unless it is complete already. -/
def insert (done : CompletedTasks) (id : String) : CompletedTasks :=
  if done.contains id then done else ⟨done.ids ++ [id]⟩

/-- A task that is recorded is complete, and so is every task that was complete before. -/
theorem mem_ids_insert (done : CompletedTasks) (id other : String) :
    other ∈ (done.insert id).ids ↔ other ∈ done.ids ∨ other = id := by
  unfold insert
  split
  · rename_i h
    have hid : id ∈ done.ids := by simpa [contains] using h
    exact ⟨Or.inl, fun h => h.elim (fun hmem => hmem) fun heq => heq ▸ hid⟩
  · simp

end CompletedTasks

/-- The tasks of a lesson, and those that are complete. -/
structure TaskBoard where
  tasks : List TaskRule := []
  completed : CompletedTasks := {}
  deriving DecidableEq, Repr

namespace TaskBoard

/-- Adds a task at the end. It takes the place of one with the same id. -/
def add (board : TaskBoard) (rule : TaskRule) : TaskBoard :=
  { board with tasks := (board.tasks.filter (·.id ≠ rule.id)) ++ [rule] }

/-- A board of the given tasks, none of them complete. -/
def ofRules (rules : List TaskRule) : TaskBoard :=
  rules.foldl add {}

variable (board : TaskBoard)

def description? (id : String) : Option String :=
  (board.tasks.find? (·.id == id)).map TaskRule.description

def isComplete : Bool :=
  board.tasks.all fun rule => board.completed.contains rule.id

def reset : TaskBoard :=
  { board with completed := {} }

/-- Takes note of an event. Returns the ids of the tasks that it completes. -/
def observe (event : CommandEvent) (tree : FileTree) : List String × TaskBoard :=
  let newly := (board.tasks.filter fun rule =>
    !board.completed.contains rule.id && rule.holds event tree).map TaskRule.id
  (newly, { board with completed := newly.foldl CompletedTasks.insert board.completed })

end TaskBoard

end ShellTutor
