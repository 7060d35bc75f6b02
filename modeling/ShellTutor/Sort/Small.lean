/-!
# Sorting a few items

Up to 32 items are sorted in two halves, which are then merged from both ends at once. In each half
the first items are put in order by a fixed pattern of comparisons, and the others are inserted. An
order is only asked which of two items is less. If its answers contradict each other, the two ends
of a merge may meet in the wrong place, and then there is no result.
-/

namespace ShellTutor.Sort

variable {α : Type} (lt : α → α → Bool)

/-- Puts an item behind a sorted list and moves it forward over all that are greater. The list is
read backwards. -/
def insertBack (item : α) : List α → List α
  | [] => [item]
  | last :: rest => if lt item last then last :: insertBack item rest else item :: last :: rest

/-- Inserts items one by one into a sorted list, each from its end. -/
def insertAll (sorted items : List α) : List α :=
  (items.foldl (fun backwards item => insertBack lt item backwards) sorted.reverse).reverse

/-- Two items, the one that is less in front. -/
def orderPair (a b : α) : α × α :=
  if lt b a then (b, a) else (a, b)

/-- Two ordered pairs, put together by three comparisons. -/
def joinPairs (a b c d : α) : List α :=
  let first := if lt c a then c else a
  let last := if lt d b then b else d
  -- of the two others, the one that stood in front
  let left := if lt c a then a else if lt d b then c else b
  let right := if lt d b then d else if lt c a then b else c
  if lt right left then [first, right, left, last] else [first, left, right, last]

def sortFour (a b c d : α) : List α :=
  let (a, b) := orderPair lt a b
  let (c, d) := orderPair lt c d
  joinPairs lt a b c d

/-- The first `n` steps of a merge of two sorted lists: what they take, and how much of it from the
left list. A step takes the next item of the left list, unless that of the right list is less. -/
def mergeSteps : Nat → List α → List α → List α × Nat
  | n + 1, l :: left, r :: right =>
    if lt r l then
      let (taken, count) := mergeSteps n (l :: left) right
      (r :: taken, count)
    else
      let (taken, count) := mergeSteps n left (r :: right)
      (l :: taken, count + 1)
  | _, _, _ => ([], 0)

/-- Merges two sorted lists, the right one as long as the left one or longer by an item, from both
ends at once. From the front `i` items of the left list are taken and from the back `j` of the right
one. What has not been taken then is at most one item; if an item was taken twice, there is no
result. -/
def mergeHalves? (left right : List α) : Option (List α) :=
  let (front, i) := mergeSteps lt left.length left right
  let (back, j) := mergeSteps (flip lt) left.length right.reverse left.reverse
  if i ≤ j ∧ j + left.length ≤ i + right.length then
    let between := (left.take j).drop i ++ (right.take (right.length - j)).drop (left.length - i)
    some (front ++ between ++ back.reverse)
  else none

/-- Sorts a half of `n` items. -/
def sortHalf? (n : Nat) : List α → Option (List α)
  | a :: b :: c :: d :: rest =>
    if n < 8 then some (insertAll lt [] (a :: b :: c :: d :: rest))
    else
      match rest with
      | e :: f :: g :: h :: more =>
        if n < 16 then some (insertAll lt (sortFour lt a b c d) rest)
        else
          (mergeHalves? lt (sortFour lt a b c d) (sortFour lt e f g h)).map fun eight =>
            insertAll lt eight more
      | rest => some (insertAll lt (sortFour lt a b c d) rest)
  | few => some (insertAll lt [] few)

/-- The most items that are sorted in two halves. -/
def few : Nat := 32

/-- Sorts a few items. -/
def sortFew? (items : List α) : Option (List α) :=
  let n := items.length
  if n < 2 then some items
  else do
    let left ← sortHalf? lt n (items.take (n / 2))
    let right ← sortHalf? lt n (items.drop (n / 2))
    mergeHalves? lt left right

end ShellTutor.Sort
