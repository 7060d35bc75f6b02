import ShellTutor.Proofs.Sort.Order
import ShellTutor.Sort.Small

/-!
# Few items

Inserting and the fixed pattern for four items keep ties in order. A merge that goes on from both
ends stops between two cuts through its lists, each of which divides what comes first from what
comes later. Of two such cuts the one with fewer items in front lies in front of the other in both
lists, so what has been taken from the front and from the back does not overlap, and the merge only
fails under an order that contradicts itself.
-/

namespace ShellTutor.Sort

variable {α κ : Type} [LinearOrder κ] {rank : α → κ} {lt : α → α → Bool}

/-! ## Inserting -/

theorem insertBack_perm (lt : α → α → Bool) (item : α) (backwards : List α) :
    (insertBack lt item backwards).Perm (item :: backwards) := by
  induction backwards with
  | nil => exact List.Perm.refl _
  | cons last rest ih =>
    rw [insertBack]
    split
    · exact (ih.cons last).trans (List.Perm.swap item last rest)
    · exact List.Perm.refl _

theorem sameTies_insertBack {item : α} {backwards : List α}
    (h : Ranks rank lt (item :: backwards)) :
    SameTies rank (item :: backwards) (insertBack lt item backwards) := by
  induction backwards with
  | nil => exact SameTies.refl _
  | cons last rest ih =>
    have hlt := h item (by simp) last (by simp)
    have hrest : Ranks rank lt (item :: rest) := h.mono (by simp)
    rw [insertBack]
    split
    · rename_i hless
      rw [hlt, decide_eq_true_eq] at hless
      exact (SameTies.swap hless.ne rest).trans ((ih hrest).cons last)
    · exact SameTies.refl _

theorem pairwise_insertBack {item : α} {backwards : List α}
    (h : Ranks rank lt (item :: backwards))
    (hdown : backwards.Pairwise fun a b => rank b ≤ rank a) :
    (insertBack lt item backwards).Pairwise fun a b => rank b ≤ rank a := by
  induction backwards with
  | nil => exact List.pairwise_singleton ..
  | cons last rest ih =>
    have hlt := h item (by simp) last (by simp)
    have hrest : Ranks rank lt (item :: rest) := h.mono (by simp)
    obtain ⟨hlast, hdown'⟩ := List.pairwise_cons.mp hdown
    rw [insertBack]
    split
    · rename_i hless
      rw [hlt, decide_eq_true_eq] at hless
      refine List.pairwise_cons.mpr ⟨fun b hb => ?_, ih hrest hdown'⟩
      rcases List.mem_cons.mp ((insertBack_perm lt item rest).mem_iff.mp hb) with rfl | hb
      · exact hless.le
      · exact hlast b hb
    · rename_i hless
      rw [hlt, decide_eq_true_eq, not_lt] at hless
      refine List.pairwise_cons.mpr ⟨fun b hb => ?_, hdown⟩
      rcases List.mem_cons.mp hb with rfl | hb
      · exact hless
      · exact (hlast b hb).trans hless

/-- Inserting items into a sorted list sorts all of them. -/
theorem arranges_insertAll (lt : α → α → Bool) (sorted items : List α) :
    Arranges rank (Ranks rank lt (sorted ++ items) ∧ sorted.Pairwise (rank · ≤ rank ·))
      (sorted ++ items) (some (insertAll lt sorted items)) := by
  rw [insertAll]
  obtain ⟨backwards, rfl⟩ : ∃ backwards : List α, sorted = backwards.reverse :=
    ⟨sorted.reverse, sorted.reverse_reverse.symm⟩
  rw [List.reverse_reverse]
  induction items generalizing backwards with
  | nil =>
    rw [List.append_nil]
    exact ⟨List.Perm.refl _, fun h => Sorts.of_ordered h.2⟩
  | cons item items ih =>
    obtain ⟨hperm, hsorts⟩ := ih (insertBack lt item backwards)
    have hback := insertBack_perm lt item backwards
    have hall : ((insertBack lt item backwards).reverse ++ items).Perm
        (backwards.reverse ++ item :: items) := by
      rw [List.append_cons, ← List.reverse_cons]
      have hall := (List.reverse_perm _).trans (hback.trans (List.reverse_perm _).symm)
      exact hall.append_right items
    refine ⟨hperm.trans hall, fun ⟨hranks, hordered⟩ => ?_⟩
    have hone : Ranks rank lt (item :: backwards) := hranks.mono fun a ha => by
      rw [List.mem_append, List.mem_reverse, List.mem_cons]
      rcases List.mem_cons.mp ha with rfl | ha
      · exact Or.inr (Or.inl rfl)
      · exact Or.inl ha
    refine (hsorts ⟨hranks.mono hall.subset, ?_⟩).of_sameTies ?_
    · exact List.pairwise_reverse.mpr
        (pairwise_insertBack hone (List.pairwise_reverse.mp hordered))
    · rw [List.append_cons, ← List.reverse_cons]
      exact (sameTies_insertBack hone).reverse.append (SameTies.refl items)

/-! ## Four items -/

theorem orderPair_perm (lt : α → α → Bool) (a b : α) :
    [(orderPair lt a b).1, (orderPair lt a b).2].Perm [a, b] := by
  rw [orderPair]
  split
  · exact List.Perm.swap a b []
  · exact List.Perm.refl _

theorem sorts_orderPair {a b : α} (h : Ranks rank lt [a, b]) :
    Sorts rank [a, b] [(orderPair lt a b).1, (orderPair lt a b).2] := by
  have hlt := h b (by simp) a (by simp)
  rw [orderPair]
  split
  · rename_i hless
    rw [hlt, decide_eq_true_eq] at hless
    exact ⟨by simpa using hless.le, SameTies.swap hless.ne' []⟩
  · rename_i hless
    rw [hlt, decide_eq_true_eq, not_lt] at hless
    exact Sorts.of_ordered (by simpa using hless)

theorem joinPairs_perm (lt : α → α → Bool) (a b c d : α) :
    (joinPairs lt a b c d).Perm [a, b, c, d] := by
  classical
  refine List.perm_iff_count.mpr fun x => ?_
  simp only [joinPairs]
  split_ifs <;> simp only [List.count_cons, List.count_nil] <;> omega

/-- The pairs `a, b` and `c, d` are put together by moving `c` and `d` forward past those of `a` and
`b` that are greater. -/
theorem sorts_joinPairs {a b c d : α} (h : Ranks rank lt [a, b, c, d]) (hab : rank a ≤ rank b)
    (hcd : rank c ≤ rank d) : Sorts rank [a, b, c, d] (joinPairs lt a b c d) := by
  have hca := h c (by simp) a (by simp)
  have hdb := h d (by simp) b (by simp)
  have hcb := h c (by simp) b (by simp)
  have hda := h d (by simp) a (by simp)
  have hba := h b (by simp) a (by simp)
  have hdc := h d (by simp) c (by simp)
  have hswap {x y : α} (hlt : rank y < rank x) (items : List α) :
      SameTies rank (x :: y :: items) (y :: x :: items) := SameTies.swap hlt.ne' items
  by_cases hfirst : rank c < rank a
  · have hmiddle : rank c < rank b := hfirst.trans_le hab
    -- past both `b` and `a`
    have hfront : SameTies rank [a, b, c, d] [c, a, b, d] :=
      ((hswap hmiddle [d]).cons a).trans (hswap hfirst [b, d])
    by_cases hlast : rank d < rank b
    · have hback : SameTies rank [a, b, c, d] [c, a, d, b] :=
        hfront.trans (((hswap hlast []).cons a).cons c)
      by_cases hinner : rank d < rank a
      · have hout : joinPairs lt a b c d = [c, d, a, b] := by
          simp [joinPairs, hca, hdb, hda, hfirst, hlast, hinner]
        rw [hout]
        refine ⟨?_, hback.trans ((hswap hinner [b]).cons c)⟩
        simp [hcd, hab, hfirst.le, hmiddle.le, hlast.le, hinner.le]
      · have hout : joinPairs lt a b c d = [c, a, d, b] := by
          simp [joinPairs, hca, hdb, hda, hfirst, hlast, hinner]
        rw [hout]
        refine ⟨?_, hback⟩
        simp [hcd, hab, hfirst.le, hmiddle.le, hlast.le, not_lt.mp hinner]
    · have hout : joinPairs lt a b c d = [c, a, b, d] := by
        simp [joinPairs, hca, hdb, hba, hfirst, hlast, not_lt.mpr hab]
      rw [hout]
      refine ⟨?_, hfront⟩
      simp [hcd, hab, hfirst.le, hmiddle.le, not_lt.mp hlast, hab.trans (not_lt.mp hlast)]
  · by_cases hlast : rank d < rank b
    · have hmiddle : rank c < rank b := hcd.trans_lt hlast
      have hout : joinPairs lt a b c d = [a, c, d, b] := by
        simp [joinPairs, hca, hdb, hdc, hfirst, hlast, not_lt.mpr hcd]
      rw [hout]
      refine ⟨?_, ((hswap hmiddle [d]).cons a).trans (((hswap hlast []).cons c).cons a)⟩
      simp [hcd, hab, not_lt.mp hfirst, (not_lt.mp hfirst).trans hcd, hmiddle.le, hlast.le]
    · by_cases hmiddle : rank c < rank b
      · have hout : joinPairs lt a b c d = [a, c, b, d] := by
          simp [joinPairs, hca, hdb, hcb, hfirst, hlast, hmiddle]
        rw [hout]
        refine ⟨?_, (hswap hmiddle [d]).cons a⟩
        simp [hcd, hab, not_lt.mp hfirst, (not_lt.mp hfirst).trans hcd, hmiddle.le,
          not_lt.mp hlast]
      · have hout : joinPairs lt a b c d = [a, b, c, d] := by
          simp [joinPairs, hca, hdb, hcb, hfirst, hlast, hmiddle]
        rw [hout]
        refine Sorts.of_ordered ?_
        simp [hcd, hab, not_lt.mp hfirst, (not_lt.mp hfirst).trans hcd, not_lt.mp hmiddle,
          not_lt.mp hlast]

theorem arranges_sortFour (lt : α → α → Bool) (a b c d : α) :
    Arranges rank (Ranks rank lt [a, b, c, d]) [a, b, c, d] (some (sortFour lt a b c d)) := by
  have hleft := orderPair_perm lt a b
  have hright := orderPair_perm lt c d
  have hpairs : [(orderPair lt a b).1, (orderPair lt a b).2, (orderPair lt c d).1,
      (orderPair lt c d).2].Perm [a, b, c, d] := hleft.append hright
  refine ⟨(joinPairs_perm lt ..).trans hpairs, fun hranks => ?_⟩
  have hab : Sorts rank [a, b] _ := sorts_orderPair (hranks.mono (by simp))
  have hcd : Sorts rank [c, d] _ := sorts_orderPair (hranks.mono (by simp))
  have hjoin := sorts_joinPairs (hranks.mono hpairs.subset) (by simpa using hab.ordered)
    (by simpa using hcd.ordered)
  exact hjoin.of_sameTies (hab.ties.append hcd.ties)

/-! ## Merging from both ends -/

/-- Two sorted lists under the order of ranks. -/
structure Mergeable (rank : α → κ) (lt : α → α → Bool) (left right : List α) : Prop where
  ranks : Ranks rank lt (left ++ right)
  left : left.Pairwise (rank · ≤ rank ·)
  right : right.Pairwise (rank · ≤ rank ·)

/-- The first `i` items on the left and the first `j` on the right come before the others. -/
structure Cut (rank : α → κ) (left right : List α) (i j : Nat) : Prop where
  left_le : ∀ l ∈ left.take i, ∀ r ∈ right.drop j, rank l ≤ rank r
  right_lt : ∀ r ∈ right.take j, ∀ l ∈ left.drop i, rank r < rank l

/-- What has been merged when `i` items of the left list and `j` of the right one are taken. -/
structure Front (rank : α → κ) (lt : α → α → Bool) (left right front : List α) (i j : Nat) :
    Prop where
  left_le : i ≤ left.length
  right_le : j ≤ right.length
  perm : front.Perm (left.take i ++ right.take j)
  sorts : Mergeable rank lt left right → Sorts rank (left.take i ++ right.take j) front
  cut : Mergeable rank lt left right → Cut rank left right i j

/-- What has been merged when only the first `i` items of the left list and the first `j` of the
right one are left. -/
structure Back (rank : α → κ) (lt : α → α → Bool) (left right back : List α) (i j : Nat) :
    Prop where
  perm : back.Perm (left.drop i ++ right.drop j)
  sorts : Mergeable rank lt left right → Sorts rank (left.drop i ++ right.drop j) back
  cut : Mergeable rank lt left right → Cut rank left right i j

variable {left right front back : List α} {i j i' j' : Nat}

/-- Lists that are each in order are merged part by part. -/
theorem Sorts.merge_append {left' right' back : List α}
    (hleft : (left ++ left').Pairwise (rank · ≤ rank ·))
    (hright : (right ++ right').Pairwise (rank · ≤ rank ·))
    (hfront : Sorts rank (left ++ right) front) (hback : Sorts rank (left' ++ right') back)
    (hle : ∀ l ∈ left, ∀ r ∈ right', rank l ≤ rank r)
    (hlt : ∀ r ∈ right, ∀ l ∈ left', rank r < rank l) :
    Sorts rank ((left ++ left') ++ (right ++ right')) (front ++ back) := by
  obtain ⟨-, -, hacross⟩ := List.pairwise_append.mp hleft
  obtain ⟨-, -, hacross'⟩ := List.pairwise_append.mp hright
  refine (hfront.append hback fun a ha b hb => ?_).of_sameTies ?_
  · rcases List.mem_append.mp ha with ha | ha <;> rcases List.mem_append.mp hb with hb | hb
    · exact hacross a ha b hb
    · exact hle a ha b hb
    · exact (hlt a ha b hb).le
    · exact hacross' a ha b hb
  · have hmiddle : SameTies rank (left' ++ right) (right ++ left') :=
      sameTies_append_comm fun l hl r hr => (hlt r hr l hl).ne'
    have hall : SameTies rank (left ++ ((left' ++ right) ++ right'))
        (left ++ ((right ++ left') ++ right')) :=
      (SameTies.refl left).append (hmiddle.append (SameTies.refl right'))
    simpa only [List.append_assoc] using hall

theorem Mergeable.dual (h : Mergeable rank lt left right) :
    Mergeable (OrderDual.toDual ∘ rank) (flip lt) right.reverse left.reverse where
  ranks := (h.ranks.dual).mono fun a ha => by
    rw [List.mem_append, List.mem_reverse, List.mem_reverse] at ha
    exact List.mem_append.mpr ha.symm
  left := List.pairwise_reverse.mpr h.right
  right := List.pairwise_reverse.mpr h.left

/-- Of two cuts, the one with fewer items in front has no more of either list. -/
theorem Cut.le_of_add_le (h : Cut rank left right i j) (h' : Cut rank left right i' j')
    (hi : i ≤ left.length) (hj : j ≤ right.length) (hi' : i' ≤ left.length)
    (hj' : j' ≤ right.length) (hsum : i + j ≤ i' + j') : i ≤ i' ∧ j ≤ j' := by
  constructor
  · by_contra hlt
    have hleft : i' < left.length := by omega
    have hright : j < right.length := by omega
    have hle := h.left_le left[i'] (List.mem_take_iff_getElem.mpr ⟨i', by omega, rfl⟩)
      right[j] (List.mem_drop_iff_getElem.mpr ⟨0, by omega, by simp⟩)
    have hgt := h'.right_lt right[j] (List.mem_take_iff_getElem.mpr ⟨j, by omega, rfl⟩)
      left[i'] (List.mem_drop_iff_getElem.mpr ⟨0, by omega, by simp⟩)
    exact absurd hgt (not_lt.mpr hle)
  · by_contra hlt
    have hleft : i < left.length := by omega
    have hright : j' < right.length := by omega
    have hgt := h.right_lt right[j'] (List.mem_take_iff_getElem.mpr ⟨j', by omega, rfl⟩)
      left[i] (List.mem_drop_iff_getElem.mpr ⟨0, by omega, by simp⟩)
    have hle := h'.left_le left[i] (List.mem_take_iff_getElem.mpr ⟨i, by omega, rfl⟩)
      right[j'] (List.mem_drop_iff_getElem.mpr ⟨0, by omega, by simp⟩)
    exact absurd hgt (not_lt.mpr hle)

/-- If the first item of the right list is less, all of the left list are greater. -/
theorem Mergeable.of_less {l r : α} (h : Mergeable rank lt (l :: left) (r :: right))
    (hless : lt r l = true) :
    Mergeable rank lt (l :: left) right ∧ (∀ x ∈ l :: left, rank r < rank x) ∧
      ∀ x ∈ right, rank r ≤ rank x := by
  obtain ⟨hright, hright'⟩ := List.pairwise_cons.mp h.right
  have hsub := ((List.sublist_cons_self r right).append_left (l :: left)).subset
  refine ⟨⟨h.ranks.mono hsub, h.left, hright'⟩, fun x hx => ?_, hright⟩
  have hrl : rank r < rank l := by
    rw [h.ranks r (by simp) l (by simp), decide_eq_true_eq] at hless
    exact hless
  rcases List.mem_cons.mp hx with rfl | hx
  · exact hrl
  · exact hrl.trans_le ((List.pairwise_cons.mp h.left).1 x hx)

/-- Else the first item of the left list is no greater than any other item. -/
theorem Mergeable.of_not_less {l r : α} (h : Mergeable rank lt (l :: left) (r :: right))
    (hless : ¬ lt r l = true) :
    Mergeable rank lt left (r :: right) ∧ (∀ x ∈ left, rank l ≤ rank x) ∧
      ∀ x ∈ r :: right, rank l ≤ rank x := by
  obtain ⟨hleft, hleft'⟩ := List.pairwise_cons.mp h.left
  refine ⟨⟨h.ranks.mono (List.subset_cons_self l _), hleft', h.right⟩, hleft, fun x hx => ?_⟩
  have hlr : rank l ≤ rank r := by
    rw [h.ranks r (by simp) l (by simp), decide_eq_true_eq, not_lt] at hless
    exact hless
  rcases List.mem_cons.mp hx with rfl | hx
  · exact hlr
  · exact hlr.trans ((List.pairwise_cons.mp h.right).1 x hx)

theorem Front.take_right {l r : α} (hless : lt r l = true)
    (h : Front rank lt (l :: left) right front i j) :
    Front rank lt (l :: left) (r :: right) (r :: front) i (j + 1) := by
  refine ⟨h.left_le, Nat.succ_le_succ h.right_le, ?_, fun hm => ?_, fun hm => ?_⟩
  · exact (h.perm.cons r).trans List.perm_middle.symm
  · obtain ⟨hnext, hlt, hle⟩ := hm.of_less hless
    exact (h.sorts hnext).cons_of_lt (fun x hx => hlt x (List.mem_of_mem_take hx))
      fun x hx => hle x (List.mem_of_mem_take hx)
  · obtain ⟨hnext, hlt, -⟩ := hm.of_less hless
    refine ⟨(h.cut hnext).left_le, fun x hx y hy => ?_⟩
    rcases List.mem_cons.mp hx with rfl | hx
    · exact hlt y (List.mem_of_mem_drop hy)
    · exact (h.cut hnext).right_lt x hx y hy

theorem Front.take_left {l r : α} (hless : ¬ lt r l = true)
    (h : Front rank lt left (r :: right) front i j) :
    Front rank lt (l :: left) (r :: right) (l :: front) (i + 1) j := by
  refine ⟨Nat.succ_le_succ h.left_le, h.right_le, h.perm.cons l, fun hm => ?_, fun hm => ?_⟩
  · obtain ⟨hnext, hle, hle'⟩ := hm.of_not_less hless
    refine (h.sorts hnext).cons fun x hx => ?_
    rcases List.mem_append.mp hx with hx | hx
    · exact hle x (List.mem_of_mem_take hx)
    · exact hle' x (List.mem_of_mem_take hx)
  · obtain ⟨hnext, -, hle⟩ := hm.of_not_less hless
    refine ⟨fun x hx y hy => ?_, (h.cut hnext).right_lt⟩
    rcases List.mem_cons.mp hx with rfl | hx
    · exact hle y (List.mem_of_mem_drop hy)
    · exact (h.cut hnext).left_le x hx y hy

/-- Each step takes one item, as long as neither list can run out. -/
theorem front_mergeSteps (rank : α → κ) (lt : α → α → Bool) {n : Nat} (left right : List α)
    (hleft : n ≤ left.length) (hright : n ≤ right.length) :
    ∃ j, (mergeSteps lt n left right).2 + j = n ∧
      Front rank lt left right (mergeSteps lt n left right).1 (mergeSteps lt n left right).2 j := by
  induction n generalizing left right with
  | zero =>
    refine ⟨0, rfl, ⟨Nat.zero_le _, Nat.zero_le _, List.Perm.refl _, fun _ => ?_, fun _ => ?_⟩⟩
    · exact Sorts.of_ordered List.Pairwise.nil
    · exact ⟨by simp [mergeSteps], by simp [mergeSteps]⟩
  | succ n ih =>
    obtain ⟨l, left, rfl⟩ := List.exists_cons_of_length_pos (Nat.zero_lt_of_lt hleft)
    obtain ⟨r, right, rfl⟩ := List.exists_cons_of_length_pos (Nat.zero_lt_of_lt hright)
    by_cases hless : lt r l = true
    · obtain ⟨j, hsum, hfront⟩ :=
        ih (l :: left) right (Nat.le_of_succ_le hleft) (Nat.le_of_succ_le_succ hright)
      rw [mergeSteps, if_pos hless]
      exact ⟨j + 1, congrArg (· + 1) hsum, hfront.take_right hless⟩
    · obtain ⟨j, hsum, hfront⟩ :=
        ih left (r :: right) (Nat.le_of_succ_le_succ hleft) (Nat.le_of_succ_le hright)
      rw [mergeSteps, if_neg hless]
      exact ⟨j, by rw [Nat.add_right_comm, hsum], hfront.take_left hless⟩

/-- A cut found from the other end. -/
theorem Cut.of_dual (h : Cut (OrderDual.toDual ∘ rank) right.reverse left.reverse j i) :
    Cut rank left right (left.length - i) (right.length - j) where
  left_le l hl r hr := by
    refine h.left_le r ?_ l ?_
    · rwa [List.take_reverse, List.mem_reverse]
    · rwa [List.drop_reverse, List.mem_reverse]
  right_lt r hr l hl := by
    refine h.right_lt l ?_ r ?_
    · rwa [List.take_reverse, List.mem_reverse]
    · rwa [List.drop_reverse, List.mem_reverse]

/-- What is taken in front from the other end is taken from the back. -/
theorem Front.toBack
    (h : Front (OrderDual.toDual ∘ rank) (flip lt) right.reverse left.reverse front j i) :
    Back rank lt left right front.reverse (left.length - i) (right.length - j) := by
  have hrest : left.drop (left.length - i) ++ right.drop (right.length - j) =
      (right.reverse.take j ++ left.reverse.take i).reverse := by
    rw [List.take_reverse, List.take_reverse, List.reverse_append, List.reverse_reverse,
      List.reverse_reverse]
  refine ⟨?_, fun hm => ?_, fun hm => (h.cut hm.dual).of_dual⟩
  · rw [hrest]
    exact (List.reverse_perm _).trans (h.perm.trans (List.reverse_perm _).symm)
  · rw [hrest]
    exact (h.sorts hm.dual).of_dual

/-- What lies behind a place, cut at a later place. -/
theorem drop_eq_append_drop (items : List α) (h : i ≤ j) :
    items.drop i = (items.take j).drop i ++ items.drop j := by
  calc items.drop i
      = (items.drop i).take (j - i) ++ (items.drop i).drop (j - i) :=
        (List.take_append_drop ..).symm
    _ = (items.take j).drop i ++ items.drop j := by
        rw [List.drop_take, List.drop_drop, Nat.add_sub_cancel' h]

/-- Two lists taken part by part. -/
theorem append_parts_perm (left left' right right' : List α) :
    ((left ++ right) ++ (left' ++ right')).Perm ((left ++ left') ++ (right ++ right')) := by
  rw [List.append_assoc, List.append_assoc]
  exact (List.perm_append_comm_assoc right left' right').append_left left

/-- Where at most one item is left between them, the front and the back make up the merge. -/
theorem Front.arranges_append (hfront : Front rank lt left right front i j)
    (hback : Back rank lt left right back i' j') (hi : i ≤ i') (hj : j ≤ j')
    (hnear : ((left.take i').drop i ++ (right.take j').drop j).length ≤ 1) :
    Arranges rank (Mergeable rank lt left right) (left ++ right)
      (some (front ++ ((left.take i').drop i ++ (right.take j').drop j) ++ back)) := by
  have hleft := drop_eq_append_drop left hi
  have hright := drop_eq_append_drop right hj
  have hmiddle : ((left.take i').drop i ++ (right.take j').drop j).Pairwise (rank · ≤ rank ·) :=
    List.pairwise_iff_getElem.mpr fun a b ha hb hab => by omega
  rw [List.append_assoc]
  refine ⟨?_, fun hm => ?_⟩
  · have hrest : ((left.take i').drop i ++ (right.take j').drop j ++ back).Perm
        (left.drop i ++ right.drop j) := by
      rw [hleft, hright]
      exact (hback.perm.append_left _).trans (append_parts_perm ..)
    have hall := (hfront.perm.append hrest).trans (append_parts_perm ..)
    rwa [List.take_append_drop, List.take_append_drop] at hall
  · have hrest : Sorts rank (left.drop i ++ right.drop j)
        ((left.take i').drop i ++ (right.take j').drop j ++ back) := by
      rw [hleft, hright]
      refine Sorts.merge_append ?_ ?_ (Sorts.of_ordered hmiddle) (hback.sorts hm) ?_ ?_
      · rw [← hleft]
        exact hm.left.drop
      · rw [← hright]
        exact hm.right.drop
      · exact fun l hl => (hback.cut hm).left_le l (List.mem_of_mem_drop hl)
      · exact fun r hr => (hback.cut hm).right_lt r (List.mem_of_mem_drop hr)
    have hall := Sorts.merge_append (by simpa using hm.left) (by simpa using hm.right)
      (hfront.sorts hm) hrest (hfront.cut hm).left_le (hfront.cut hm).right_lt
    rwa [List.take_append_drop, List.take_append_drop] at hall

theorem arranges_mergeHalves? (lt : α → α → Bool) {left right : List α}
    (hle : left.length ≤ right.length) (hnear : right.length ≤ left.length + 1) :
    Arranges rank (Mergeable rank lt left right) (left ++ right)
      (mergeHalves? lt left right) := by
  obtain ⟨j, hfronts, hfront⟩ := front_mergeSteps rank lt left right (Nat.le_refl _) hle
  obtain ⟨m, hbacks, hback⟩ := front_mergeSteps (OrderDual.toDual ∘ rank) (flip lt)
    (n := left.length) right.reverse left.reverse (by simpa using hle) (by simp)
  rw [mergeHalves?]
  generalize mergeSteps lt left.length left right = taken at *
  generalize mergeSteps (flip lt) left.length right.reverse left.reverse = taken' at *
  obtain ⟨front, i⟩ := taken
  obtain ⟨back, k⟩ := taken'
  dsimp only at *
  have hback := hback.toBack
  have hbackLeft : left.length - m = k := by omega
  have hfrontRight : left.length - i = j := by omega
  rw [hbackLeft] at hback
  rw [hfrontRight]
  split
  · rename_i hmeet
    refine hfront.arranges_append hback hmeet.1 (by omega) ?_
    simp only [List.length_append, List.length_drop, List.length_take]
    omega
  · rename_i hmeet
    intro hm
    have hbefore := (hfront.cut hm).le_of_add_le (hback.cut hm) hfront.left_le hfront.right_le
      (by omega) (by omega) (by omega)
    omega

/-! ## Two halves -/

/-- What a merge makes of sorted parts. -/
theorem Arranges.of_mergeable {left' right' : List α} {result : Option (List α)}
    (hleft : Arranges rank (Ranks rank lt left) left (some left'))
    (hright : Arranges rank (Ranks rank lt right) right (some right'))
    (h : Arranges rank (Mergeable rank lt left' right') (left' ++ right') result) :
    Arranges rank (Ranks rank lt (left ++ right)) (left ++ right) result := by
  have hperm : (left' ++ right').Perm (left ++ right) := hleft.1.append hright.1
  refine h.of_sameTies hperm fun hranks => ?_
  have hl := hleft.2 hranks.append_left
  have hr := hright.2 hranks.append_right
  exact ⟨⟨hranks.mono hperm.subset, hl.ordered, hr.ordered⟩, hl.ties.append hr.ties⟩

/-- Items are inserted into a sorted part. -/
theorem Arranges.map_insertAll {first : List α} {result : Option (List α)}
    (h : Arranges rank (Ranks rank lt first) first result) (more : List α) :
    Arranges rank (Ranks rank lt (first ++ more)) (first ++ more)
      (result.map fun sorted => insertAll lt sorted more) := by
  refine Yields.map (h.mono Ranks.append_left) fun sorted hsorted => ?_
  have hperm : (sorted ++ more).Perm (first ++ more) := hsorted.1.append_right more
  refine (arranges_insertAll lt sorted more).of_sameTies hperm fun hranks => ?_
  have hsorts := hsorted.2 hranks
  exact ⟨⟨hranks.mono hperm.subset, hsorts.ordered⟩, hsorts.ties.append (SameTies.refl more)⟩

theorem arranges_insertAll_nil (lt : α → α → Bool) (items : List α) :
    Arranges rank (Ranks rank lt items) items (some (insertAll lt [] items)) :=
  (arranges_insertAll lt [] items).mono fun h => ⟨h, List.Pairwise.nil⟩

theorem arranges_sortHalf? (lt : α → α → Bool) (n : Nat) (items : List α) :
    Arranges rank (Ranks rank lt items) items (sortHalf? lt n items) := by
  fun_cases sortHalf? lt n items with
  | case1 => exact arranges_insertAll_nil lt _
  | case2 => exact (arranges_sortFour lt ..).map_insertAll _
  | case3 a b c d _ e f g h more _ =>
    have hleft : Arranges rank _ _ _ := arranges_sortFour lt a b c d
    have hright : Arranges rank _ _ _ := arranges_sortFour lt e f g h
    have height := hleft.of_mergeable hright (arranges_mergeHalves? lt
      (Nat.le_of_eq (hleft.1.length_eq.trans hright.1.length_eq.symm))
      (Nat.le_succ_of_le (Nat.le_of_eq (hright.1.length_eq.trans hleft.1.length_eq.symm))))
    exact height.map_insertAll more
  | case4 => exact (arranges_sortFour lt ..).map_insertAll _
  | case5 => exact arranges_insertAll_nil lt items

theorem arranges_sortFew? (lt : α → α → Bool) (items : List α) :
    Arranges rank (Ranks rank lt items) items (sortFew? lt items) := by
  rw [sortFew?]
  split
  · exact arranges_of_length_le_one (by omega)
  · rename_i hmany
    have hleft : (items.take (items.length / 2)).length = items.length / 2 := by
      rw [List.length_take]; omega
    have hright : (items.drop (items.length / 2)).length = items.length - items.length / 2 :=
      List.length_drop
    have hall : Arranges rank
        (Ranks rank lt (items.take (items.length / 2) ++ items.drop (items.length / 2)))
        (items.take (items.length / 2) ++ items.drop (items.length / 2)) _ :=
      Arranges.both (arranges_sortHalf? lt items.length _) (arranges_sortHalf? lt items.length _)
        (fun h => ⟨h.append_left, h.append_right⟩)
        fun left right hl hr => by
          have hleft' := hl.1.length_eq
          have hright' := hr.1.length_eq
          exact hl.of_mergeable hr (arranges_mergeHalves? lt (by omega) (by omega))
    rwa [List.take_append_drop] at hall

end ShellTutor.Sort
