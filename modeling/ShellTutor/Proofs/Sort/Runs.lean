import Mathlib.Data.List.Chain
import ShellTutor.Proofs.Sort.Small
import ShellTutor.Sort.Stable

/-!
# Runs

A run stands for a part of the list: it is that part in order, or that part as it is. Cutting runs,
joining neighbours and finishing a run keep this, whatever the tree is that tells which neighbours
are joined first. So the last run stands for the whole list.
-/

namespace ShellTutor.Sort

variable {α κ : Type} [LinearOrder κ] {rank : α → κ} {lt : α → α → Bool}

/-- A run stands for these items. -/
structure Run.Holds (rank : α → κ) (lt : α → α → Bool) (run : Run α) (part : List α) : Prop where
  perm : run.items.Perm part
  sorts : run.sorted → Ranks rank lt part → Sorts rank part run.items
  keeps : ¬ run.sorted → run.items = part

variable {run : Run α} {part items : List α}

theorem Run.Holds.of_arranges {sorted : List α}
    (h : Arranges rank (Ranks rank lt part) part (some sorted)) :
    Run.Holds rank lt ⟨sorted, true⟩ part :=
  ⟨h.1, fun _ => h.2, fun hnot => absurd rfl hnot⟩

theorem Run.holds_unsorted (part : List α) : Run.Holds rank lt ⟨part, false⟩ part :=
  ⟨List.Perm.refl _, nofun, fun _ => rfl⟩

/-! ## Cutting runs -/

theorem isChain_runsOn (lt : α → α → Bool) (down : Bool) (last : α) (items : List α) :
    (last :: items.take (runsOn lt down last items)).IsChain fun a b => lt b a = down := by
  induction items generalizing last with
  | nil => exact List.IsChain.singleton last
  | cons item rest ih =>
    rw [runsOn]
    split
    · rename_i hnext
      exact List.IsChain.cons_cons hnext (ih item)
    · exact List.IsChain.singleton last

theorem isChain_firstRun (lt : α → α → Bool) (items : List α) :
    (items.take (firstRun lt items).1).IsChain fun a b => lt b a = (firstRun lt items).2 := by
  match items with
  | [] => exact List.IsChain.nil
  | [item] => exact List.IsChain.singleton item
  | first :: second :: rest =>
    exact List.IsChain.cons_cons rfl (isChain_runsOn lt (lt second first) second rest)

theorem firstRun_pos (lt : α → α → Bool) (first : α) (rest : List α) :
    0 < (firstRun lt (first :: rest)).1 := by
  cases rest with
  | nil => exact Nat.zero_lt_one
  | cons second rest => exact Nat.zero_lt_succ _

/-- A list that goes down all the way has no ties, so it may be turned around. -/
theorem sorts_reverse (h : items.Pairwise fun a b => rank b < rank a) :
    Sorts rank items items.reverse := by
  refine ⟨List.pairwise_reverse.mpr (h.imp fun hlt => hlt.le), ?_⟩
  induction items with
  | nil => exact SameTies.refl _
  | cons first rest ih =>
    obtain ⟨hfirst, hrest⟩ := List.pairwise_cons.mp h
    have hback : SameTies rank ([first] ++ rest) (rest ++ [first]) :=
      sameTies_append_comm fun a ha b hb => List.mem_singleton.mp ha ▸ (hfirst b hb).ne'
    rw [List.reverse_cons]
    exact hback.trans ((ih hrest).append (SameTies.refl [first]))

/-- A run that is there already. -/
theorem arranges_run {down : Bool} (h : part.IsChain fun a b => lt b a = down) :
    Arranges rank (Ranks rank lt part) part (some (if down then part.reverse else part)) := by
  have hchain (hranks : Ranks rank lt part) :
      part.IsChain fun a b => decide (rank b < rank a) = down :=
    h.imp_of_mem_imp fun a b ha hb hless => (hranks b hb a ha).symm.trans hless
  cases down with
  | true =>
    refine ⟨List.reverse_perm part, fun hranks => sorts_reverse ?_⟩
    have hdown : part.IsChain fun a b => rank a > rank b :=
      (hchain hranks).imp fun a b => of_decide_eq_true
    exact hdown.pairwise
  | false =>
    refine ⟨List.Perm.refl part, fun hranks => Sorts.of_ordered ?_⟩
    have hup : part.IsChain fun a b => rank a ≤ rank b :=
      (hchain hranks).imp fun a b hless => not_lt.mp (of_decide_eq_false hless)
    exact hup.pairwise

theorem Run.Holds.take_length {n : Nat} (h : run.Holds rank lt (items.take n)) :
    run.Holds rank lt (items.take run.items.length) := by
  have htake : items.take run.items.length = items.take n := by
    rw [h.perm.length_eq, List.length_take, ← List.take_eq_take_min]
  rwa [htake]

theorem holds_cutRun? (lt : α → α → Bool) (good : Nat) (eager : Bool) (first : α) (rest : List α) :
    Yields (Ranks rank lt (first :: rest))
      (fun run => 0 < run.items.length ∧
        run.Holds rank lt ((first :: rest).take run.items.length))
      (cutRun? lt good eager (first :: rest)) := by
  have hpos := firstRun_pos lt first rest
  have hchain := isChain_firstRun lt (first :: rest)
  rw [cutRun?]
  generalize firstRun lt (first :: rest) = found at *
  obtain ⟨length, down⟩ := found
  dsimp only at *
  -- whatever run it is, it holds a first part that is not empty
  have htake {n : Nat} {run : Run α} (hn : 0 < n)
      (h : run.Holds rank lt ((first :: rest).take n)) :
      0 < run.items.length ∧ run.Holds rank lt ((first :: rest).take run.items.length) := by
    refine ⟨?_, h.take_length⟩
    rw [h.perm.length_eq, List.length_take, List.length_cons]
    omega
  split
  · exact htake hpos (Run.Holds.of_arranges (arranges_run hchain))
  · split
    · have hfew : Arranges rank _ _ _ := arranges_sortFew? lt ((first :: rest).take few)
      have hsub := (List.take_sublist few (first :: rest)).subset
      refine (hfew.imp fun hranks => hranks.mono hsub).map fun sorted hsorted => ?_
      exact htake (by decide) (Run.Holds.of_arranges hsorted)
    · exact htake (by omega) (Run.holds_unsorted _)

/-- Runs that hold these items one after another. -/
inductive Ahead (rank : α → κ) (lt : α → α → Bool) : List (Run α) → List α → Prop
  | nil : Ahead rank lt [] []
  | cons {run part more items} : run.Holds rank lt part → Ahead rank lt more items →
      Ahead rank lt (run :: more) (part ++ items)

theorem ahead_runs? (lt : α → α → Bool) (good : Nat) (eager : Bool) (items : List α) :
    Yields (Ranks rank lt items) (fun runs => Ahead rank lt runs items)
      (runs? lt good eager items) := by
  fun_induction runs? lt good eager items with
  | case1 => exact Ahead.nil
  | case2 first rest ih =>
    refine (holds_cutRun? lt good eager first rest).bind fun run ⟨hpos, hrun⟩ => ?_
    have hrest : rest.drop (run.items.length - 1) = (first :: rest).drop run.items.length := by
      rw [← Nat.sub_add_cancel hpos, List.drop_succ_cons, Nat.add_sub_cancel]
    have hsub := (List.drop_sublist run.items.length (first :: rest)).subset
    have hmore := ih run
    rw [hrest] at hmore ⊢
    refine (hmore.imp fun hranks => hranks.mono hsub).bind fun more hmore => ?_
    have hall := Ahead.cons hrun hmore
    rwa [List.take_append_drop] at hall

/-! ## Merging runs -/

theorem sorts_merge {left right : List α} (h : Mergeable rank lt left right) :
    Sorts rank (left ++ right) (left.merge right fun l r => !lt r l) := by
  induction left generalizing right with
  | nil =>
    rw [List.nil_merge]
    exact Sorts.of_ordered h.right
  | cons l left ihl =>
    induction right with
    | nil =>
      rw [List.merge_right, List.append_nil]
      exact Sorts.of_ordered h.left
    | cons r right ihr =>
      rw [List.cons_merge_cons]
      by_cases hless : lt r l = true
      · obtain ⟨hnext, hlt, hle⟩ := h.of_less hless
        rw [hless]
        exact (ihr hnext).cons_of_lt hlt hle
      · obtain ⟨hnext, hle, hle'⟩ := h.of_not_less hless
        rw [if_pos (by simpa using hless)]
        refine (ihl hnext).cons fun x hx => ?_
        exact (List.mem_append.mp hx).elim (hle x) (hle' x)

theorem arranges_mergeRuns (lt : α → α → Bool) (left right : List α) :
    Arranges rank (Mergeable rank lt left right) (left ++ right)
      (some (mergeRuns lt left right)) := by
  rw [mergeRuns]
  split
  · exact ⟨List.merge_perm_append _, sorts_merge⟩
  · have hback : left ++ right = (right.reverse ++ left.reverse).reverse := by
      rw [List.reverse_append, List.reverse_reverse, List.reverse_reverse]
    rw [hback]
    refine ⟨?_, fun hm => (sorts_merge hm.dual).of_dual⟩
    exact (List.reverse_perm _).trans
      ((List.merge_perm_append _).trans (List.reverse_perm _).symm)

section Join

variable {whole : List α → Option (List α)}

theorem Run.Holds.arranges_finish?
    (hwhole : ∀ part, Arranges rank (Ranks rank lt part) part (whole part))
    (h : run.Holds rank lt part) :
    Arranges rank (Ranks rank lt part) part (run.finish? whole) := by
  rw [Run.finish?]
  split
  · rename_i hsorted
    exact ⟨h.perm, h.sorts hsorted⟩
  · rename_i hsorted
    rw [h.keeps hsorted]
    exact hwhole part

theorem holds_joinRuns? (hwhole : ∀ part, Arranges rank (Ranks rank lt part) part (whole part))
    (room : Nat) {left right : Run α} {part' : List α} (hleft : left.Holds rank lt part)
    (hright : right.Holds rank lt part') :
    Yields (Ranks rank lt (part ++ part')) (fun run => run.Holds rank lt (part ++ part'))
      (joinRuns? lt whole room left right) := by
  rw [joinRuns?]
  split
  · rename_i hunsorted
    rw [hleft.keeps (by simp_all), hright.keeps (by simp_all)]
    exact Run.holds_unsorted _
  · refine Arranges.both (hleft.arranges_finish? hwhole) (hright.arranges_finish? hwhole)
      (fun h => ⟨h.append_left, h.append_right⟩) fun l r hl hr => ?_
    exact Run.Holds.of_arranges (Arranges.of_mergeable hl hr (arranges_mergeRuns lt l r))

/-- Runs, last first, that hold these items. -/
inductive Behind (rank : α → κ) (lt : α → α → Bool) : List (Run α × Nat) → List α → Prop
  | nil : Behind rank lt [] []
  | cons {run before items part} (depth : Nat) : Behind rank lt before items →
      run.Holds rank lt part → Behind rank lt ((run, depth) :: before) (items ++ part)

theorem behind_collapse? (hwhole : ∀ part, Arranges rank (Ranks rank lt part) part (whole part))
    (room depth : Nat) {before : List (Run α × Nat)} (hbefore : Behind rank lt before items)
    (hrun : run.Holds rank lt part) :
    Yields (Ranks rank lt (items ++ part))
      (fun (run, before) => ∃ items' part', items' ++ part' = items ++ part ∧
        Behind rank lt before items' ∧ run.Holds rank lt part' ∧ (depth = 0 → before = []))
      (collapse? lt whole room depth run before) := by
  induction hbefore generalizing run part with
  | nil => exact ⟨[], part, rfl, Behind.nil, hrun, fun _ => rfl⟩
  | @cons left before items middle meets hbefore hleft ih =>
    rw [collapse?]
    split
    · rw [List.append_assoc]
      have hjoin := holds_joinRuns? hwhole room hleft hrun
      exact (hjoin.imp Ranks.append_right).bind fun joined hjoined => ih hjoined
    · rename_i hdeep
      refine ⟨items ++ middle, part, rfl, hbefore.cons meets hleft, hrun, fun hzero => ?_⟩
      exact absurd (hzero ▸ Nat.zero_le meets) hdeep

theorem holds_joinAll? (hwhole : ∀ part, Arranges rank (Ranks rank lt part) part (whole part))
    {room n place : Nat} {before : List (Run α × Nat)} {more : List (Run α)} {rest : List α}
    (hbefore : Behind rank lt before items) (hrun : run.Holds rank lt part)
    (hmore : Ahead rank lt more rest) :
    Yields (Ranks rank lt (items ++ part ++ rest))
      (fun run => run.Holds rank lt (items ++ part ++ rest))
      (joinAll? lt whole room n place run before more) := by
  induction hmore generalizing place run before items part with
  | nil =>
    rw [List.append_nil]
    refine (behind_collapse? hwhole room 0 hbefore hrun).map fun (joined, before) => ?_
    rintro ⟨items', part', heq, hbehind, hjoined, hzero⟩
    obtain rfl := hzero rfl
    cases hbehind
    rwa [← heq]
  | @cons next part' more rest hnext hmore ih =>
    rw [joinAll?]
    generalize meetingDepth n (place - run.items.length) place (place + next.items.length) = depth
    have hcollapse := behind_collapse? hwhole room depth hbefore hrun
    refine (hcollapse.imp Ranks.append_left).bind fun (joined, before) => ?_
    rintro ⟨items', part'', heq, hbehind, hjoined, -⟩
    rw [← List.append_assoc, ← heq]
    exact ih (hbehind.cons depth hjoined) hnext

end Join

theorem arranges_sortByRuns? {whole : List α → Option (List α)}
    (hwhole : ∀ part, Arranges rank (Ranks rank lt part) part (whole part)) (room : Nat)
    (eager : Bool) (items : List α) :
    Arranges rank (Ranks rank lt items) items (sortByRuns? lt whole room eager items) := by
  rw [sortByRuns?]
  refine (ahead_runs? lt (goodRun items.length) eager items).bind fun runs hruns => ?_
  cases hruns with
  | nil => exact ⟨List.Perm.refl _, fun _ => Sorts.of_ordered List.Pairwise.nil⟩
  | cons hfirst hmore =>
    exact (holds_joinAll? hwhole Behind.nil hfirst hmore).bind fun run hrun =>
      hrun.arranges_finish? hwhole

end ShellTutor.Sort
