import ShellTutor.Sort.Small

/-!
# Sorting any number of items

A long list is cut into runs: parts that are in order already, or that are to be sorted.
Neighbouring runs are merged in the order of a balanced tree, and runs that are not sorted yet are
only put together for as long as memory suffices to partition them. Items that are equal stay in the
order in which they stood. Up to 20 items are inserted one by one.
-/

namespace ShellTutor.Sort

variable {α : Type} (lt : α → α → Bool)

/-! ## Runs -/

/-- How many items go on as a run whose last item is given: down all the way, or never down. -/
def runsOn (down : Bool) (last : α) : List α → Nat
  | [] => 0
  | item :: rest => if lt item last = down then runsOn down item rest + 1 else 0

/-- The length of the run at the start of a list, and whether it goes down. -/
def firstRun : List α → Nat × Bool
  | first :: second :: rest =>
    (runsOn lt (lt second first) second rest + 2, lt second first)
  | items => (items.length, false)

/-- A part of a list, in order or yet to be sorted. -/
structure Run (α : Type) where
  items : List α
  sorted : Bool

/-- Cuts off the first run. A run that is there already counts if it has `good` items or more, and
one that goes down is turned around. Else there is a sorted run of a few items, if it is made
eagerly, or one that is yet to be sorted. -/
def cutRun? (good : Nat) (eager : Bool) (items : List α) : Option (Run α) :=
  let (length, down) := firstRun lt items
  if good ≤ length then
    some ⟨if down then (items.take length).reverse else items.take length, true⟩
  else if eager then (sortFew? lt (items.take few)).map fun sorted => ⟨sorted, true⟩
  else some ⟨items.take good, false⟩

def runs? (good : Nat) (eager : Bool) : List α → Option (List (Run α))
  | [] => some []
  | first :: rest => do
    let run ← cutRun? lt good eager (first :: rest)
    let more ← runs? good eager (rest.drop (run.items.length - 1))
    return run :: more
termination_by items => items.length
decreasing_by simp only [List.length_drop, List.length_cons]; omega

/-! ## Merging -/

/-- Merges two sorted lists from the end at which the shorter one lies. -/
def mergeRuns (left right : List α) : List α :=
  if left.length ≤ right.length then left.merge right fun l r => !lt r l
  else (right.reverse.merge left.reverse fun r l => !lt r l).reverse

/-- The items of a run in order, where `whole` sorts what is not sorted yet. -/
def Run.finish? (whole : List α → Option (List α)) (run : Run α) : Option (List α) :=
  if run.sorted then some run.items else whole run.items

/-- Puts two neighbouring runs together. If neither is sorted they stay so, as long as their items
fit into the memory for partitions. -/
def joinRuns? (whole : List α → Option (List α)) (room : Nat) (left right : Run α) :
    Option (Run α) :=
  if !left.sorted && !right.sorted && left.items.length + right.items.length ≤ room then
    some ⟨left.items ++ right.items, false⟩
  else do
    return ⟨mergeRuns lt (← left.finish? whole) (← right.finish? whole), true⟩

/-- The depth in a balanced tree over `n` items at which the parts from `left` to `middle` and from
there to `right` meet: the number of leading binary digits that the places of their middles share,
as fractions of the whole. -/
def meetingDepth (n left middle right : Nat) : Nat :=
  let scale := (1 <<< 62 + n - 1) / n
  let differs := (scale * (left + middle)) ^^^ (scale * (middle + right))
  if differs = 0 then 64 else 63 - differs.log2

/-- Joins a run with the runs before it, last first, that are to meet at least that deep. -/
def collapse? (whole : List α → Option (List α)) (room depth : Nat) (run : Run α) :
    List (Run α × Nat) → Option (Run α × List (Run α × Nat))
  | [] => some (run, [])
  | (left, meets) :: before =>
    if depth ≤ meets then do
      collapse? whole room depth (← joinRuns? lt whole room left run) before
    else some (run, (left, meets) :: before)

/-- Joins all runs of `n` items. The last run that was read ends at `place`, and those before it are
kept with the depth at which each meets its right neighbour. -/
def joinAll? (whole : List α → Option (List α)) (room n place : Nat) (run : Run α)
    (before : List (Run α × Nat)) : List (Run α) → Option (Run α)
  | [] => (collapse? lt whole room 0 run before).map Prod.fst
  | next :: more => do
    let depth := meetingDepth n (place - run.items.length) place (place + next.items.length)
    let (run, before) ← collapse? lt whole room depth run before
    joinAll? whole room n (place + next.items.length) next ((run, depth) :: before) more

/-- The least length of a run that is taken as it is, of `n` items. -/
def goodRun (n : Nat) : Nat :=
  if n ≤ 64 * 64 then min (n - n / 2) 64
  else
    -- nearly the square root
    let shift := (1 + n.log2) / 2
    (1 <<< shift + n >>> shift) / 2

/-- Sorts by runs. -/
def sortByRuns? (whole : List α → Option (List α)) (room : Nat) (eager : Bool) (items : List α) :
    Option (List α) := do
  match ← runs? lt (goodRun items.length) eager items with
  | [] => return []
  | first :: more =>
    let run ← joinAll? lt whole room items.length first.items.length first [] more
    run.finish? whole

/-! ## Partitions -/

/-- Of three places the one whose item is neither the least nor the greatest. -/
def medianOfThree (item : Nat → α) (a b c : Nat) : Nat :=
  let below := lt (item a) (item b)
  if below = lt (item a) (item c) then
    if lt (item b) (item c) ^^ below then c else b
  else a

/-- A place near the median of three stretches of `n` items that start at the given places. -/
def medianPlace (item : Nat → α) (n a b c : Nat) : Nat :=
  if n < 8 then medianOfThree lt item a b c
  else
    let place (start : Nat) :=
      medianPlace item (n / 8) start (start + n / 8 * 4) (start + n / 8 * 7)
    medianOfThree lt item (place a) (place b) (place c)
termination_by n

/-- The place of the item around which a list is partitioned. -/
def pivotPlace (items : Array α) (fallback : α) : Nat :=
  let n := items.size / 8
  medianPlace lt (items.getD · fallback) n 0 (n * 4) (n * 7)

/-- The items that go left and those that do not, in order. For the pivot itself it is said where it
goes. -/
def partition (goesLeft : α → Bool) (pivotLeft : Bool) (before : List α) (pivot : α)
    (after : List α) : List α × List α :=
  (before.filter goesLeft ++ (if pivotLeft then [pivot] else []) ++ after.filter goesLeft,
    before.filter (!goesLeft ·) ++ (if pivotLeft then [] else [pivot]) ++
      after.filter (!goesLeft ·))

/-- Sorts by partitions, of which there are at most `limit` one inside the other. None of the items
is less than `bound`. If no item is less than the pivot, those that equal it are done. -/
def quickSort? (limit : Nat) (bound : Option α) (items : List α) : Option (List α) :=
  if items.length ≤ few then sortFew? lt items
  else
    match limit, items with
    | limit + 1, first :: _ =>
      let place := pivotPlace lt items.toArray first
      match items.drop place with
      | pivot :: after =>
        let (less, others) := partition (lt · pivot) false (items.take place) pivot after
        if bound.any (!lt · pivot) || less.isEmpty then
          let (equal, greater) := partition (!lt pivot ·) true (items.take place) pivot after
          (quickSort? limit none greater).map (equal ++ ·)
        else do
          let right ← quickSort? limit (some pivot) others
          let left ← quickSort? limit bound less
          return left ++ right
      | [] => none
    -- all runs that are made eagerly are sorted
    | _, _ => sortByRuns? lt (sortFew? lt) 0 true items

/-- How many items there is memory for while `n` items of two words are sorted. -/
def roomFor (n : Nat) : Nat :=
  max (max (n - n / 2) (min n 500000)) 256

/-- Sorts a list: items that are less come first, and equal ones stay in order. Without a result the
order was found to contradict itself. -/
def sort? (items : List α) : Option (List α) :=
  if items.length ≤ 20 then some (insertAll lt [] items)
  else
    sortByRuns? lt (fun run => quickSort? lt (2 * run.length.log2) none run) (roomFor items.length)
      (items.length ≤ 2 * few) items

end ShellTutor.Sort
