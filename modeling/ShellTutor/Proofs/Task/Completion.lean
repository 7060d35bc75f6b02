import Mathlib.Data.List.Nodup
import ShellTutor.Task.Board

/-!
# When tasks are complete

A board is made of rules and then sees one observation after the other: an event, with the tree that
it left. What the board has recorded since it was made or was last reset can be told from the rules
and the observations alone. Of the rules with one id the last one counts. A task is complete once
its rule held of an observation. The complete tasks stand in the order of the observations that
completed them, and those of one observation in the order of the board.
-/

namespace ShellTutor

/-- An event with the tree that it left. -/
abbrev Observation := CommandEvent × FileTree

namespace TaskRule

def accepts (rule : TaskRule) (o : Observation) : Bool :=
  rule.holds o.1 o.2

/-- The number of the first observation that completes the task. -/
def firstMatch? (rule : TaskRule) (seen : List Observation) : Option Nat :=
  seen.findIdx? rule.accepts

/-- Whatever else a rule asks, it asks for success. -/
theorem holds_of_failed {event : CommandEvent} (h : event.succeeded = false) (rule : TaskRule)
    (tree : FileTree) : rule.holds event tree = false := by
  simp [holds, h]

theorem firstMatch?_append (rule : TaskRule) (seen : List Observation) (o : Observation) :
    rule.firstMatch? (seen ++ [o]) =
      (rule.firstMatch? seen).or (if rule.accepts o then some seen.length else none) := by
  rw [firstMatch?, List.findIdx?_append]
  cases h : rule.accepts o <;> simp [firstMatch?, h]

theorem lt_of_firstMatch? {rule : TaskRule} {seen : List Observation} {n : Nat}
    (h : rule.firstMatch? seen = some n) : n < seen.length :=
  (List.findIdx?_eq_some_iff_getElem.mp h).1

theorem isSome_firstMatch? {rule : TaskRule} {seen : List Observation} :
    (rule.firstMatch? seen).isSome = true ↔ ∃ o ∈ seen, rule.accepts o = true := by
  rw [firstMatch?, List.findIdx?_isSome, List.any_eq_true]

end TaskRule

/-- The rules that no later rule with the same id replaces, in their order. -/
def lastRules : List TaskRule → List TaskRule
  | [] => []
  | rule :: rest =>
    if rest.any (·.id == rule.id) then lastRules rest else rule :: lastRules rest

theorem mem_of_mem_lastRules {rules : List TaskRule} {rule : TaskRule}
    (h : rule ∈ lastRules rules) : rule ∈ rules := by
  induction rules with
  | nil => exact h
  | cons first rest ih =>
    rw [lastRules] at h
    split at h
    · exact List.mem_cons_of_mem _ (ih h)
    · rcases List.mem_cons.mp h with rfl | h
      · exact List.mem_cons_self ..
      · exact List.mem_cons_of_mem _ (ih h)

theorem nodup_ids_lastRules (rules : List TaskRule) :
    ((lastRules rules).map TaskRule.id).Nodup := by
  induction rules with
  | nil => exact List.nodup_nil
  | cons first rest ih =>
    rw [lastRules]
    split
    · exact ih
    · rename_i hlast
      rw [List.map_cons, List.nodup_cons]
      refine ⟨fun hmem => hlast ?_, ih⟩
      obtain ⟨rule, hrule, hid⟩ := List.mem_map.mp hmem
      exact List.any_eq_true.mpr ⟨rule, mem_of_mem_lastRules hrule, by simp [hid]⟩

/-- The ids of the tasks that some observations complete: for one observation after the other those
that it is the first to complete, in the order of the rules. -/
def completionOrder (rules : List TaskRule) (seen : List Observation) : List String :=
  (List.range seen.length).flatMap fun n =>
    (rules.filter fun rule => rule.firstMatch? seen == some n).map TaskRule.id

/-- One more observation completes the tasks whose rules it is the first to meet. -/
theorem completionOrder_append (rules : List TaskRule) (seen : List Observation)
    (o : Observation) :
    completionOrder rules (seen ++ [o]) = completionOrder rules seen ++
      (rules.filter fun rule => (rule.firstMatch? seen).isNone && rule.accepts o).map
        TaskRule.id := by
  have hlast : ∀ rule : TaskRule, (rule.firstMatch? (seen ++ [o]) == some seen.length) =
      ((rule.firstMatch? seen).isNone && rule.accepts o) := by
    intro rule
    rw [rule.firstMatch?_append]
    cases h : rule.firstMatch? seen with
    | none => cases rule.accepts o <;> simp
    | some n =>
      have hne : n ≠ seen.length := Nat.ne_of_lt (TaskRule.lt_of_firstMatch? h)
      simp [hne]
  unfold completionOrder
  rw [List.length_append, List.length_singleton, List.range_succ, List.flatMap_append]
  congr 1
  · refine List.flatMap_congr fun n hn => ?_
    have hne : seen.length ≠ n := Nat.ne_of_gt (List.mem_range.mp hn)
    refine congrArg (List.map TaskRule.id) (List.filter_congr fun rule _ => ?_)
    rw [rule.firstMatch?_append]
    cases rule.firstMatch? seen <;> cases rule.accepts o <;> simp [hne]
  · simp [hlast]

theorem mem_completionOrder {rules : List TaskRule} {seen : List Observation} {id : String} :
    id ∈ completionOrder rules seen ↔
      ∃ rule ∈ rules, rule.id = id ∧ ∃ o ∈ seen, rule.accepts o = true := by
  simp only [completionOrder, List.mem_flatMap, List.mem_range, List.mem_map, List.mem_filter,
    beq_iff_eq, ← TaskRule.isSome_firstMatch?, Option.isSome_iff_exists]
  constructor
  · rintro ⟨n, -, rule, ⟨hrule, hfirst⟩, hid⟩
    exact ⟨rule, hrule, hid, n, hfirst⟩
  · rintro ⟨rule, hrule, hid, n, hfirst⟩
    exact ⟨n, TaskRule.lt_of_firstMatch? hfirst, rule, ⟨hrule, hfirst⟩, hid⟩

/-- Ids that are new, and each there once, are recorded behind those that are recorded already. -/
theorem CompletedTasks.ids_foldl_insert {done : CompletedTasks} {ids : List String}
    (hnodup : ids.Nodup) (hnew : ∀ id ∈ ids, id ∉ done.ids) :
    (ids.foldl insert done).ids = done.ids ++ ids := by
  induction ids generalizing done with
  | nil => simp
  | cons id rest ih =>
    obtain ⟨hid, hrest⟩ := List.nodup_cons.mp hnodup
    have hinsert : done.insert id = ⟨done.ids ++ [id]⟩ := by
      have hmissing : done.contains id = false := by
        simpa [contains] using hnew id (List.mem_cons_self ..)
      rw [insert, hmissing]
      rfl
    rw [List.foldl_cons, hinsert, ih hrest, List.append_assoc, List.singleton_append]
    intro other hother
    rw [List.mem_append, List.mem_singleton, not_or]
    exact ⟨hnew other (List.mem_cons_of_mem _ hother), fun heq => hid (heq ▸ hother)⟩

namespace TaskBoard

variable {rules : List TaskRule} {seen : List Observation} {reports : List (List String)}
  {board : TaskBoard}

/-- Adding rules replaces those that have the same ids. -/
theorem tasks_foldl_add (rules : List TaskRule) (board : TaskBoard) :
    (rules.foldl add board).tasks =
      (board.tasks.filter fun old => !rules.any (·.id == old.id)) ++ lastRules rules := by
  induction rules generalizing board with
  | nil => simp [lastRules]
  | cons rule rest ih =>
    have hfilter : ((board.add rule).tasks.filter fun old => !rest.any (·.id == old.id)) =
        (board.tasks.filter fun old => !(rule :: rest).any (·.id == old.id)) ++
          if rest.any (·.id == rule.id) then [] else [rule] := by
      rw [add, List.filter_append, List.filter_filter]
      congr 1
      · refine List.filter_congr fun old _ => ?_
        by_cases hid : rule.id = old.id
        · simp [hid]
        · simp [hid, Ne.symm hid]
      · cases h : rest.any (·.id == rule.id) <;> simp [h]
    rw [List.foldl_cons, ih, hfilter, lastRules]
    split <;> simp

theorem completed_foldl_add (rules : List TaskRule) (board : TaskBoard) :
    (rules.foldl add board).completed = board.completed := by
  induction rules generalizing board with
  | nil => rfl
  | cons rule rest ih => exact ih (board.add rule)

theorem tasks_ofRules (rules : List TaskRule) : (ofRules rules).tasks = lastRules rules := by
  rw [ofRules, tasks_foldl_add]
  rfl

theorem completed_ofRules (rules : List TaskRule) : (ofRules rules).completed = {} :=
  completed_foldl_add rules {}

/-- A board of the given rules, with what it has seen since it was made or was last reset and what
it reported each time. -/
inductive Watched (rules : List TaskRule) :
    List Observation → List (List String) → TaskBoard → Prop
  | start : Watched rules [] [] (ofRules rules)
  | reset {seen : List Observation} {reports : List (List String)} {board : TaskBoard}
      (h : Watched rules seen reports board) : Watched rules [] [] board.reset
  | observe {seen : List Observation} {reports : List (List String)} {board : TaskBoard}
      (h : Watched rules seen reports board) (event : CommandEvent) (tree : FileTree) :
      Watched rules (seen ++ [(event, tree)]) (reports ++ [(board.observe event tree).1])
        (board.observe event tree).2

/-- The board is that of the rules, and it has recorded what was seen. -/
structure UpToDate (rules : List TaskRule) (seen : List Observation) (board : TaskBoard) :
    Prop where
  tasks : board.tasks = lastRules rules
  completed : board.completed.ids = completionOrder board.tasks seen

theorem UpToDate.nodup_ids (h : UpToDate rules seen board) :
    (board.tasks.map TaskRule.id).Nodup := by
  rw [h.tasks]
  exact nodup_ids_lastRules rules

/-- A task of the board is complete once its own rule was met: no other has its id. -/
theorem UpToDate.contains_iff (h : UpToDate rules seen board) {rule : TaskRule}
    (hrule : rule ∈ board.tasks) :
    board.completed.contains rule.id = true ↔ ∃ o ∈ seen, rule.accepts o = true := by
  rw [CompletedTasks.contains, List.contains_iff_mem, h.completed, mem_completionOrder]
  constructor
  · rintro ⟨other, hother, hid, hmet⟩
    exact List.inj_on_of_nodup_map h.nodup_ids hother hrule hid ▸ hmet
  · intro hmet
    exact ⟨rule, hrule, rfl, hmet⟩

/-- What an observation reports are the tasks whose rules it is the first to meet. -/
theorem UpToDate.observe_fst (h : UpToDate rules seen board) (event : CommandEvent)
    (tree : FileTree) :
    (board.observe event tree).1 = (board.tasks.filter fun rule =>
      (rule.firstMatch? seen).isNone && rule.accepts (event, tree)).map TaskRule.id := by
  refine congrArg (List.map TaskRule.id) (List.filter_congr fun rule hrule => ?_)
  have hopen : (!board.completed.contains rule.id) = (rule.firstMatch? seen).isNone := by
    rw [← Option.not_isSome, Bool.not_inj_iff, Bool.eq_iff_iff, h.contains_iff hrule,
      TaskRule.isSome_firstMatch?]
  rw [hopen, TaskRule.accepts]

/-- The ids that an observation reports are distinct, and none of them was recorded before. -/
theorem UpToDate.new_of_observe (h : UpToDate rules seen board) (event : CommandEvent)
    (tree : FileTree) :
    (board.observe event tree).1.Nodup ∧
      ∀ id ∈ (board.observe event tree).1, id ∉ board.completed.ids := by
  constructor
  · exact h.nodup_ids.sublist (List.filter_sublist.map TaskRule.id)
  · intro id hid
    obtain ⟨rule, hrule, rfl⟩ := List.mem_map.mp hid
    obtain ⟨-, hopen⟩ := List.mem_filter.mp hrule
    rw [Bool.and_eq_true, Bool.not_eq_true'] at hopen
    simpa [CompletedTasks.contains] using hopen.1

/-- An observation records the ids that it reports, and no others. -/
theorem UpToDate.ids_observe (h : UpToDate rules seen board) (event : CommandEvent)
    (tree : FileTree) :
    (board.observe event tree).2.completed.ids =
      board.completed.ids ++ (board.observe event tree).1 := by
  obtain ⟨hnodup, hnew⟩ := h.new_of_observe event tree
  exact CompletedTasks.ids_foldl_insert hnodup hnew

theorem UpToDate.observe (h : UpToDate rules seen board) (event : CommandEvent) (tree : FileTree) :
    UpToDate rules (seen ++ [(event, tree)]) (board.observe event tree).2 where
  tasks := h.tasks
  completed := by
    rw [h.ids_observe, h.completed, h.observe_fst]
    exact (completionOrder_append board.tasks seen (event, tree)).symm

theorem upToDate_ofRules (rules : List TaskRule) : UpToDate rules [] (ofRules rules) :=
  ⟨tasks_ofRules rules, by rw [completed_ofRules]; rfl⟩

theorem UpToDate.reset (h : UpToDate rules seen board) : UpToDate rules [] board.reset :=
  ⟨h.tasks, rfl⟩

theorem upToDate_of_watched (h : Watched rules seen reports board) : UpToDate rules seen board := by
  induction h with
  | start => exact upToDate_ofRules rules
  | reset _ ih => exact ih.reset
  | observe _ event tree ih => exact ih.observe event tree

/-- Put together, the reports are what is recorded, and no id is in them twice. -/
theorem flatten_reports_of_watched (h : Watched rules seen reports board) :
    reports.flatten = board.completed.ids ∧ reports.flatten.Nodup := by
  induction h with
  | start => exact ⟨by rw [completed_ofRules]; rfl, List.nodup_nil⟩
  | reset _ _ => exact ⟨rfl, List.nodup_nil⟩
  | @observe seen reports board h event tree ih =>
    obtain ⟨hids, hnodup⟩ := ih
    have hboard := upToDate_of_watched h
    obtain ⟨hreport, hnew⟩ := hboard.new_of_observe event tree
    rw [List.flatten_append, List.flatten_singleton]
    constructor
    · rw [hboard.ids_observe, hids]
    · refine List.nodup_append.mpr ⟨hnodup, hreport, ?_⟩
      rintro id hid other hother rfl
      exact hnew id hother (hids ▸ hid)

/-- A failed event completes nothing. -/
theorem observe_of_failed {event : CommandEvent} (h : event.succeeded = false) (tree : FileTree)
    (board : TaskBoard) : board.observe event tree = ([], board) := by
  have hnone : (board.tasks.filter fun rule =>
      !board.completed.contains rule.id && rule.holds event tree) = [] := by
    simp [TaskRule.holds_of_failed h]
  simp only [TaskBoard.observe, hnone]
  rfl

/-- What can be told of a board that was made of `rules` and has seen the observations `seen` since
then or since its last reset, and gave the `reports`. -/
structure Account (rules : List TaskRule) (seen : List Observation) (reports : List (List String))
    (board : TaskBoard) : Prop where
  /-- Of the rules with one id the board has the last, and it has them in the order in which these
  were given. -/
  tasks : board.tasks = lastRules rules
  /-- A task is complete if its rule held of an observation. -/
  completed : ∀ id, id ∈ board.completed.ids ↔
    ∃ rule ∈ board.tasks, rule.id = id ∧ ∃ o ∈ seen, rule.holds o.1 o.2 = true
  /-- The tasks are in the order of their first matches, and then in that of the board. -/
  ordered : board.completed.ids = completionOrder board.tasks seen
  /-- An observation adds what it reports. -/
  adds : ∀ event tree, (board.observe event tree).2.completed.ids =
    board.completed.ids ++ (board.observe event tree).1
  /-- All that is complete was reported, -/
  reported : reports.flatten = board.completed.ids
  /-- and it was reported once. -/
  once : reports.flatten.Nodup
  isComplete : board.isComplete = true ↔
    ∀ rule ∈ board.tasks, ∃ o ∈ seen, rule.holds o.1 o.2 = true
  failed : ∀ event tree, event.succeeded = false → board.observe event tree = ([], board)

/-- Whatever a board has seen, and however often it was reset, its account is true. -/
theorem account_of_watched (h : Watched rules seen reports board) :
    Account rules seen reports board := by
  have hboard := upToDate_of_watched h
  obtain ⟨hreported, honce⟩ := flatten_reports_of_watched h
  refine ⟨hboard.tasks, ?_, hboard.completed, hboard.ids_observe, hreported, honce, ?_, ?_⟩
  · intro id
    rw [hboard.completed]
    exact mem_completionOrder
  · rw [isComplete, List.all_eq_true]
    exact forall₂_congr fun rule hrule => hboard.contains_iff hrule
  · exact fun event tree hfailed => observe_of_failed hfailed tree board

/-- Of the three rules the last replaces the first. What is left is met by `ls -a`, after a line
that failed. -/
theorem account_of_replaced_rule :
    ∃ board,
      Watched [{ id := "a", minStages := 2 }, { id := "b" }, { id := "a", args := ["-a"] }]
        [(.ofLine "ls -a x" (some ⟨[["ls", "-a", "x"]], none⟩) false "/",
            .empty "quest" "quest" ⟨0⟩),
          (.ofLine "ls -a" (some ⟨[["ls", "-a"]], none⟩) true "/", .empty "quest" "quest" ⟨0⟩)]
        [[], ["b", "a"]] board ∧
      board.tasks.map TaskRule.id = ["b", "a"] ∧ board.completed.ids = ["b", "a"] ∧
      ∀ event tree, event.succeeded = false → board.observe event tree = ([], board) := by
  generalize hrules :
    ([{ id := "a", minStages := 2 }, { id := "b" }, { id := "a", args := ["-a"] }] :
      List TaskRule) = rules
  generalize hfailed :
    CommandEvent.ofLine "ls -a x" (some ⟨[["ls", "-a", "x"]], none⟩) false "/" = failed
  generalize hdone : CommandEvent.ofLine "ls -a" (some ⟨[["ls", "-a"]], none⟩) true "/" = done
  generalize htree : FileTree.empty "quest" "quest" ⟨0⟩ = tree
  have hfresh : Watched rules [] [] ((ofRules rules).observe done tree).2.reset :=
    .reset (.observe .start done tree)
  have hreports : (((ofRules rules).observe done tree).2.reset.observe failed tree).1 = [] ∧
      ((((ofRules rules).observe done tree).2.reset.observe failed tree).2.observe done tree).1 =
        ["b", "a"] ∧ (lastRules rules).map TaskRule.id = ["b", "a"] := by
    subst hrules hfailed hdone htree
    decide +kernel
  have hwatched := (hfresh.observe failed tree).observe done tree
  rw [hreports.1, hreports.2.1] at hwatched
  have haccount := account_of_watched hwatched
  exact ⟨_, hwatched, by rw [haccount.tasks, hreports.2.2], haccount.reported.symm,
    haccount.failed⟩

end TaskBoard

end ShellTutor
