import ShellTutor.Proofs.Sort.Runs

/-!
# The whole sort

A partition around a pivot divides the ranks, and the place it picks its pivot from is always within
the list. So whichever way a list is sorted, by inserting, by runs or by partitions, all items are
there again. They are in order, with ties as they stood, if the order is one of ranks, and only
under another order there may be no result.
-/

namespace ShellTutor.Sort

variable {α κ : Type} [LinearOrder κ] {rank : α → κ} {lt : α → α → Bool}

/-! ## The pivot -/

theorem medianOfThree_cases (lt : α → α → Bool) (item : Nat → α) (a b c : Nat) :
    medianOfThree lt item a b c = a ∨ medianOfThree lt item a b c = b ∨
      medianOfThree lt item a b c = c := by
  rw [medianOfThree]
  split_ifs <;> simp

theorem medianPlace_lt (lt : α → α → Bool) (item : Nat → α) {n a b c limit : Nat} (hn : 0 < n)
    (ha : a + n ≤ limit) (hb : b + n ≤ limit) (hc : c + n ≤ limit) :
    medianPlace lt item n a b c < limit := by
  induction n using Nat.strongRecOn generalizing a b c limit with
  | ind n ih =>
    rw [medianPlace]
    split
    · rcases medianOfThree_cases lt item a b c with h | h | h <;> omega
    · have hplace (start : Nat) (hstart : start + n ≤ limit) :
          medianPlace lt item (n / 8) start (start + n / 8 * 4) (start + n / 8 * 7) < limit :=
        ih (n / 8) (by omega) (by omega) (by omega) (by omega) (by omega)
      dsimp only
      rcases medianOfThree_cases lt item
        (medianPlace lt item (n / 8) a (a + n / 8 * 4) (a + n / 8 * 7))
        (medianPlace lt item (n / 8) b (b + n / 8 * 4) (b + n / 8 * 7))
        (medianPlace lt item (n / 8) c (c + n / 8 * 4) (c + n / 8 * 7)) with h | h | h <;> rw [h]
      · exact hplace a ha
      · exact hplace b hb
      · exact hplace c hc

theorem pivotPlace_lt (lt : α → α → Bool) (items : Array α) (fallback : α) (h : 8 ≤ items.size) :
    pivotPlace lt items fallback < items.size := by
  rw [pivotPlace]
  exact medianPlace_lt lt _ (by omega) (by omega) (by omega) (by omega)

/-! ## Partitions -/

section Partition

variable {before after less others equal greater : List α} {pivot : α} {bound : Option α}

theorem partition_perm (goesLeft : α → Bool) (pivotLeft : Bool) (before : List α) (pivot : α)
    (after : List α) :
    ((partition goesLeft pivotLeft before pivot after).1 ++
      (partition goesLeft pivotLeft before pivot after).2).Perm (before ++ pivot :: after) := by
  have hpivot : (if pivotLeft then [pivot] else []) ++ (if pivotLeft then [] else [pivot]) =
      [pivot] := by
    cases pivotLeft <;> rfl
  calc _ = (before.filter goesLeft ++ ((if pivotLeft then [pivot] else []) ++
            after.filter goesLeft)) ++ (before.filter (!goesLeft ·) ++
          ((if pivotLeft then [] else [pivot]) ++ after.filter (!goesLeft ·))) := by
        simp only [partition, List.append_assoc]
    (_ : List α).Perm (before ++ ([pivot] ++ after)) := by
        refine (append_parts_perm ..).trans ?_
        refine (List.filter_append_perm goesLeft before).append ((append_parts_perm ..).trans ?_)
        rw [hpivot]
        exact (List.filter_append_perm goesLeft after).cons pivot

/-- A list is divided by rank. -/
def Divided (rank : α → κ) (goesLeft : κ → Bool) (items left right : List α) : Prop :=
  left = items.filter (fun a => goesLeft (rank a)) ∧
    right = items.filter fun a => !goesLeft (rank a)

omit [LinearOrder κ] in
/-- A partition that asks of the pivot what it asks of all items. -/
theorem divided_partition {goesLeft : α → Bool} {pivotLeft : Bool} {left right : List α}
    (hpart : partition goesLeft pivotLeft before pivot after = (left, right)) {byRank : κ → Bool}
    (h : ∀ a ∈ before ++ pivot :: after, goesLeft a = byRank (rank a))
    (hpivot : byRank (rank pivot) = pivotLeft) :
    Divided rank byRank (before ++ pivot :: after) left right := by
  have hleft := List.filter_congr h
  have hright : (before ++ pivot :: after).filter (!goesLeft ·) =
      (before ++ pivot :: after).filter fun a => !byRank (rank a) :=
    List.filter_congr fun a ha => congrArg _ (h a ha)
  rw [partition, ← hpivot, ← h pivot (by simp), Prod.mk.injEq] at hpart
  rw [Divided, ← hleft, ← hright, ← hpart.1, ← hpart.2]
  simp only [List.filter_append, List.filter_cons]
  cases goesLeft pivot <;> simp

/-- A division by rank keeps ties together. -/
theorem Divided.sameTies {items left right : List α} {goesLeft : κ → Bool}
    (h : Divided rank goesLeft items left right) : SameTies rank items (left ++ right) := by
  obtain ⟨rfl, rfl⟩ := h
  intro k
  have hpart (side : Bool) :
      (items.filter fun a => decide (goesLeft (rank a) = side)).filter (rank · = k) =
        if goesLeft k = side then items.filter (rank · = k) else [] := by
    rw [List.filter_filter]
    split
    · rename_i hside
      refine List.filter_congr fun a _ => ?_
      by_cases hk : rank a = k <;> simp [hk, hside]
    · rename_i hside
      refine List.filter_eq_nil_iff.mpr fun a _ => ?_
      by_cases hk : rank a = k <;> simp [hk, hside]
  have hleft := hpart true
  have hright := hpart false
  simp only [Bool.decide_eq_true, Bool.decide_eq_false] at hleft hright
  rw [List.filter_append, hleft, hright]
  cases goesLeft k <;> simp

/-- None of the items is less than the bound. -/
structure Bounded (rank : α → κ) (lt : α → α → Bool) (bound : Option α) (items : List α) :
    Prop where
  ranks : Ranks rank lt (bound.toList ++ items)
  le : ∀ b ∈ bound, ∀ a ∈ items, rank b ≤ rank a

theorem Bounded.mono {items : List α} (h : Bounded rank lt bound items) (hsub : others ⊆ items) :
    Bounded rank lt bound others where
  ranks := h.ranks.mono fun _ ha =>
    (List.mem_append.mp ha).elim (List.mem_append_left _) fun ha =>
      List.mem_append_right _ (hsub ha)
  le b hb a ha := h.le b hb a (hsub ha)

/-- What is less than the pivot, and the others, which the pivot bounds. -/
theorem Bounded.divided (h : Bounded rank lt bound (before ++ pivot :: after))
    (hpart : partition (lt · pivot) false before pivot after = (less, others)) :
    Divided rank (fun k => decide (k < rank pivot)) (before ++ pivot :: after) less others ∧
      Bounded rank lt bound less ∧ Bounded rank lt (some pivot) others := by
  have hranks := h.ranks.append_right
  have hdivided : Divided rank (fun k => decide (k < rank pivot)) _ less others :=
    divided_partition hpart (fun a ha => hranks a ha pivot (by simp)) (by simp)
  have hothers : others ⊆ before ++ pivot :: after := hdivided.2 ▸ List.filter_sublist.subset
  refine ⟨hdivided, h.mono (hdivided.1 ▸ List.filter_sublist.subset), hranks.mono ?_, ?_⟩
  · exact List.cons_subset.mpr ⟨by simp, hothers⟩
  · intro b hb a ha
    obtain rfl := Option.mem_some.mp hb
    rw [hdivided.2, List.mem_filter] at ha
    simpa using ha.2

/-- Where no item is taken to be less than the pivot, none is. -/
theorem Bounded.pivot_le (h : Bounded rank lt bound (before ++ pivot :: after))
    (hpart : partition (lt · pivot) false before pivot after = (less, others))
    (hleast : (bound.any (!lt · pivot) || less.isEmpty) = true) :
    ∀ a ∈ before ++ pivot :: after, rank pivot ≤ rank a := by
  intro a ha
  rcases Bool.or_eq_true_iff.mp hleast with hbound | hempty
  · cases bound with
    | none => exact absurd hbound Bool.false_ne_true
    | some b =>
      rw [Option.any_some, h.ranks b (by simp) pivot (by simp), Bool.not_eq_true',
        decide_eq_false_iff_not, not_lt] at hbound
      exact hbound.trans (h.le b rfl a ha)
  · obtain ⟨hless, -⟩ := (h.divided hpart).1
    rw [List.isEmpty_iff.mp hempty] at hless
    simpa using List.filter_eq_nil_iff.mp hless.symm a ha

theorem arranges_equal_append (hpart : partition (!lt pivot ·) true before pivot after =
      (equal, greater))
    (hleast : Bounded rank lt bound (before ++ pivot :: after) →
      ∀ a ∈ before ++ pivot :: after, rank pivot ≤ rank a)
    {result : Option (List α)} (h : Arranges rank (Bounded rank lt none greater) greater result) :
    Arranges rank (Bounded rank lt bound (before ++ pivot :: after)) (before ++ pivot :: after)
      (result.map (equal ++ ·)) := by
  have hperm := partition_perm (!lt pivot ·) true before pivot after
  rw [hpart] at hperm
  have hdivided (hb : Bounded rank lt bound (before ++ pivot :: after)) :
      Divided rank (fun k => decide (k ≤ rank pivot)) (before ++ pivot :: after) equal greater := by
    refine divided_partition hpart (fun a ha => ?_) (by simp)
    rw [hb.ranks.append_right pivot (by simp) a ha, ← decide_not, decide_eq_decide, not_lt]
  have hgreater (hb : Bounded rank lt bound (before ++ pivot :: after)) :
      Bounded rank lt none greater :=
    ⟨hb.ranks.append_right.mono ((hdivided hb).2 ▸ List.filter_sublist.subset), nofun⟩
  refine (h.mono hgreater).map fun sorted ⟨hsorted, hsorts⟩ => ?_
  refine ⟨(hsorted.append_left equal).trans hperm, fun hb => ?_⟩
  have hequal : ∀ a ∈ equal, rank a = rank pivot := by
    intro a ha
    rw [(hdivided hb).1, List.mem_filter] at ha
    exact le_antisymm (by simpa using ha.2) (hleast hb a ha.1)
  refine ((Sorts.of_ordered ?_).append (hsorts hb) fun a ha b hmem => ?_).of_sameTies
    (hdivided hb).sameTies
  · exact List.pairwise_of_forall_mem_list fun a ha b hb =>
      (hequal a ha).trans (hequal b hb).symm |>.le
  · rw [(hdivided hb).2, List.mem_filter] at hmem
    rw [hequal a ha]
    exact (by simpa using hmem.2 : rank pivot < rank b).le

theorem arranges_less_append (hpart : partition (lt · pivot) false before pivot after =
      (less, others)) {first second : Option (List α)}
    (hright : Arranges rank (Bounded rank lt (some pivot) others) others first)
    (hleft : Arranges rank (Bounded rank lt bound less) less second) :
    Arranges rank (Bounded rank lt bound (before ++ pivot :: after)) (before ++ pivot :: after)
      (first.bind fun right => second.bind fun left => some (left ++ right)) := by
  have hperm := partition_perm (lt · pivot) false before pivot after
  rw [hpart] at hperm
  refine Arranges.both hright hleft (fun hb => (hb.divided hpart).2.symm) fun right left hr hl => ?_
  refine ⟨(hl.1.append hr.1).trans hperm, fun hb => ?_⟩
  obtain ⟨hdivided, hless, hothers⟩ := hb.divided hpart
  refine ((hl.2 hless).append (hr.2 hothers) fun a ha b hmem => ?_).of_sameTies hdivided.sameTies
  rw [hdivided.1, List.mem_filter, decide_eq_true_eq] at ha
  exact ha.2.le.trans (hothers.le pivot rfl b hmem)

end Partition

theorem arranges_quickSort? (lt : α → α → Bool) (limit : Nat) (bound : Option α) (items : List α) :
    Arranges rank (Bounded rank lt bound items) items (quickSort? lt limit bound items) := by
  fun_induction quickSort? lt limit bound items with
  | case1 => exact (arranges_sortFew? lt _).mono fun h => h.ranks.append_right
  | case2 bound limit first tail pivot after less others hleast equal greater hmany place hdrop
      hless hequal ih =>
    have hitems : (first :: tail).take place ++ pivot :: after = first :: tail :=
      hdrop ▸ List.take_append_drop ..
    have hall := arranges_equal_append hequal
      (fun h : Bounded rank lt bound _ => h.pivot_le hless hleast) ih
    rw [hitems] at hall
    simpa only [place, hdrop, hless, hleast, hequal, if_true] using hall
  | case3 bound limit first tail pivot after less others hleast hmany place hdrop hless ih ih' =>
    have hitems : (first :: tail).take place ++ pivot :: after = first :: tail :=
      hdrop ▸ List.take_append_drop ..
    have hall := arranges_less_append hless ih ih'
    rw [hitems] at hall
    simp only [place] at hdrop hless
    simp only [hdrop, hless, hleast]
    exact hall
  | case4 bound limit first tail hmany place hdrop =>
    have hmany := Nat.lt_of_not_le hmany
    have hplace := pivotPlace_lt lt (first :: tail).toArray first
      (Nat.le_of_lt (Nat.lt_trans (by decide) hmany))
    exact absurd (List.drop_eq_nil_iff.mp hdrop) (Nat.not_le.mpr hplace)
  | case5 =>
    exact (arranges_sortByRuns? (arranges_sortFew? lt) 0 true _).mono fun h => h.ranks.append_right

theorem arranges_sort? (lt : α → α → Bool) (items : List α) :
    Arranges rank (Ranks rank lt items) items (sort? lt items) := by
  rw [sort?]
  split
  · exact arranges_insertAll_nil lt items
  · refine arranges_sortByRuns? (fun part => ?_) _ _ items
    exact (arranges_quickSort? lt _ none part).mono fun h => ⟨h, nofun⟩

/-! ## What comes of a sort -/

/-- No item is lost, whatever the order. -/
theorem sort?_perm {items sorted : List α} (h : sort? lt items = some sorted) :
    sorted.Perm items := by
  have hall : Arranges (fun _ => ()) _ items (sort? lt items) := arranges_sort? lt items
  rw [h] at hall
  exact hall.1

/-- Under an order of ranks there always is a result, and it is the list sorted. -/
theorem sort?_of_ranks {items : List α} (h : Ranks rank lt items) :
    ∃ sorted, sort? lt items = some sorted ∧ Sorts rank items sorted := by
  have hall : Arranges rank _ items (sort? lt items) := arranges_sort? lt items
  cases hsort : sort? lt items with
  | none => rw [hsort] at hall; exact absurd h hall
  | some sorted => rw [hsort] at hall; exact ⟨sorted, rfl, hall.2 h⟩

/-- Up to 20 items are sorted by inserting them, under any order. -/
theorem sort?_of_length_le (lt : α → α → Bool) {items : List α} (h : items.length ≤ 20) :
    sort? lt items = some (insertAll lt [] items) := by
  rw [sort?, if_pos h]

end ShellTutor.Sort
