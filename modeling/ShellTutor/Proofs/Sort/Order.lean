import Mathlib.Data.List.Perm.Basic
import Mathlib.Order.Lattice
import Mathlib.Order.OrderDual

/-!
# Sorted lists with ties in order

Items have ranks in a linear order. A list is sorted out of another one if its ranks never go down
and the items of each rank are those of the other list, in the same order. A sort that is only
handed a comparison is held to this if the comparison is that of the ranks; whatever the comparison
is, it may lose no item.
-/

namespace ShellTutor.Sort

variable {α κ : Type}

section Ties

variable [DecidableEq κ] (rank : α → κ)

/-- The same items, and those of each rank in the same order. -/
def SameTies (items other : List α) : Prop :=
  ∀ k, other.filter (rank · = k) = items.filter (rank · = k)

variable {rank} {items other third : List α}

theorem SameTies.refl (items : List α) : SameTies rank items items := fun _ => rfl

theorem SameTies.symm (h : SameTies rank items other) : SameTies rank other items :=
  fun k => (h k).symm

theorem SameTies.trans (h : SameTies rank items other) (h' : SameTies rank other third) :
    SameTies rank items third :=
  fun k => (h' k).trans (h k)

theorem SameTies.append {items' other' : List α} (h : SameTies rank items other)
    (h' : SameTies rank items' other') : SameTies rank (items ++ items') (other ++ other') := by
  intro k
  rw [List.filter_append, List.filter_append, h k, h' k]

theorem SameTies.cons (a : α) (h : SameTies rank items other) :
    SameTies rank (a :: items) (a :: other) :=
  SameTies.append (SameTies.refl [a]) h

theorem SameTies.reverse (h : SameTies rank items other) :
    SameTies rank items.reverse other.reverse := by
  intro k
  rw [List.filter_reverse, List.filter_reverse, h k]

/-- Two neighbours of different ranks may change places. -/
theorem SameTies.swap {a b : α} (h : rank a ≠ rank b) (items : List α) :
    SameTies rank (a :: b :: items) (b :: a :: items) := by
  intro k
  by_cases ha : rank a = k
  · have hb : rank b ≠ k := fun hb => h (ha.trans hb.symm)
    simp [ha, hb]
  · simp [ha, List.filter_cons]

theorem SameTies.perm (h : SameTies rank items other) : other.Perm items := by
  classical
  refine List.perm_iff_count.mpr fun a => ?_
  have hcount := congrArg (List.count a) (h (rank a))
  rwa [List.count_filter (by simp), List.count_filter (by simp)] at hcount

end Ties

variable [LinearOrder κ] (rank : α → κ)

/-- The list that a stable sort makes out of another one. -/
structure Sorts (items sorted : List α) : Prop where
  ordered : sorted.Pairwise (rank · ≤ rank ·)
  ties : SameTies rank items sorted

/-- Among these items, to be less is to have a lower rank. -/
def Ranks (lt : α → α → Bool) (items : List α) : Prop :=
  ∀ a ∈ items, ∀ b ∈ items, lt a b = decide (rank a < rank b)

/-- A result keeps a promise. There is none only if the condition is not met. -/
def Yields {β : Type} (condition : Prop) (promise : β → Prop) : Option β → Prop
  | some result => promise result
  | none => ¬ condition

/-- What a sort may come to: the same items, sorted if the condition is met, or nothing, if it is
not met. -/
def Arranges (condition : Prop) (items : List α) : Option (List α) → Prop :=
  Yields condition fun sorted => sorted.Perm items ∧ (condition → Sorts rank items sorted)

variable {rank} {lt : α → α → Bool} {items other sorted : List α}

theorem Ranks.mono (h : Ranks rank lt items) (hsub : other ⊆ items) : Ranks rank lt other :=
  fun a ha b hb => h a (hsub ha) b (hsub hb)

theorem Ranks.append_left (h : Ranks rank lt (items ++ other)) : Ranks rank lt items :=
  h.mono (List.subset_append_left ..)

theorem Ranks.append_right (h : Ranks rank lt (items ++ other)) : Ranks rank lt other :=
  h.mono (List.subset_append_right ..)

/-- Read from the other end, the order is turned around. -/
theorem Ranks.dual (h : Ranks rank lt items) :
    Ranks (OrderDual.toDual ∘ rank) (flip lt) items := by
  intro a ha b hb
  exact (h b hb a ha).trans (decide_eq_decide.mpr OrderDual.toDual_lt_toDual.symm)

theorem Sorts.perm (h : Sorts rank items sorted) : sorted.Perm items := h.ties.perm

theorem Sorts.of_ordered (h : items.Pairwise (rank · ≤ rank ·)) : Sorts rank items items :=
  ⟨h, SameTies.refl items⟩

theorem Sorts.of_sameTies (h : Sorts rank items sorted) (hties : SameTies rank other items) :
    Sorts rank other sorted :=
  ⟨h.ordered, hties.trans h.ties⟩

theorem Sorts.of_dual (h : Sorts (OrderDual.toDual ∘ rank) items sorted) :
    Sorts rank items.reverse sorted.reverse := by
  refine ⟨List.pairwise_reverse.mpr h.ordered, SameTies.reverse fun k => ?_⟩
  exact h.ties (OrderDual.toDual k)

theorem Sorts.map {β : Type} {f : β → α} {items sorted : List β}
    (h : Sorts (fun b => rank (f b)) items sorted) : Sorts rank (items.map f) (sorted.map f) := by
  refine ⟨List.pairwise_map.mpr h.ordered, fun k => ?_⟩
  rw [List.filter_map, List.filter_map]
  exact congrArg (List.map f) (h.ties k)

/-- A sorted list goes on with another one if its ranks are no higher. -/
theorem Sorts.append {items' sorted' : List α} (h : Sorts rank items sorted)
    (h' : Sorts rank items' sorted') (hle : ∀ a ∈ items, ∀ b ∈ items', rank a ≤ rank b) :
    Sorts rank (items ++ items') (sorted ++ sorted') := by
  refine ⟨List.pairwise_append.mpr ⟨h.ordered, h'.ordered, fun a ha b hb => ?_⟩,
    h.ties.append h'.ties⟩
  exact hle a (h.perm.mem_iff.mp ha) b (h'.perm.mem_iff.mp hb)

/-- Parts with no common rank may change places. -/
theorem sameTies_append_comm (h : ∀ a ∈ items, ∀ b ∈ other, rank a ≠ rank b) :
    SameTies rank (items ++ other) (other ++ items) := by
  intro k
  rw [List.filter_append, List.filter_append]
  by_cases hnone : items.filter (rank · = k) = []
  · rw [hnone, List.append_nil, List.nil_append]
  · obtain ⟨a, ha⟩ := List.exists_mem_of_ne_nil _ hnone
    obtain ⟨hmem, hrank⟩ := List.mem_filter.mp ha
    have hother : other.filter (rank · = k) = [] := by
      refine List.filter_eq_nil_iff.mpr fun b hb hk => h a hmem b hb ?_
      exact (of_decide_eq_true hrank).trans (of_decide_eq_true hk).symm
    rw [hother, List.append_nil, List.nil_append]

theorem Sorts.cons {a : α} (h : Sorts rank items sorted) (hle : ∀ b ∈ items, rank a ≤ rank b) :
    Sorts rank (a :: items) (a :: sorted) :=
  (Sorts.of_ordered (List.pairwise_singleton _ a)).append h fun _ hmem =>
    List.mem_singleton.mp hmem ▸ hle

/-- An item goes to the front over all that are greater. -/
theorem Sorts.cons_of_lt {a : α} {before after : List α} (h : Sorts rank (before ++ after) sorted)
    (hlt : ∀ b ∈ before, rank a < rank b) (hle : ∀ b ∈ after, rank a ≤ rank b) :
    Sorts rank (before ++ a :: after) (a :: sorted) := by
  have hfirst : SameTies rank (before ++ [a]) ([a] ++ before) :=
    sameTies_append_comm fun b hb c hc => List.mem_singleton.mp hc ▸ (hlt b hb).ne'
  have hties : SameTies rank (before ++ a :: after) (a :: (before ++ after)) := by
    rw [List.append_cons]
    exact hfirst.append (SameTies.refl after)
  refine (h.cons fun b hb => ?_).of_sameTies hties
  rcases List.mem_append.mp hb with hb | hb
  · exact (hlt b hb).le
  · exact hle b hb

section Yields

variable {β γ : Type} {condition condition' : Prop} {promise : β → Prop} {promise' : γ → Prop}

theorem Yields.imp {result : Option β} (h : Yields condition promise result)
    (himp : condition' → condition) : Yields condition' promise result := by
  cases result with
  | none => exact fun hc => h (himp hc)
  | some b => exact h

theorem Yields.bind {result : Option β} {next : β → Option γ}
    (h : Yields condition promise result)
    (hnext : ∀ b, promise b → Yields condition promise' (next b)) :
    Yields condition promise' (result.bind next) := by
  cases result with
  | none => exact h
  | some b => exact hnext b h

theorem Yields.map {result : Option β} {f : β → γ} (h : Yields condition promise result)
    (hf : ∀ b, promise b → promise' (f b)) : Yields condition promise' (result.map f) := by
  cases result with
  | none => exact h
  | some b => exact hf b h

theorem Arranges.mono {result : Option (List α)} (h : Arranges rank condition items result)
    (himp : condition' → condition) : Arranges rank condition' items result := by
  cases result with
  | none => exact fun hc => h (himp hc)
  | some sorted => exact ⟨h.1, fun hc => h.2 (himp hc)⟩

/-- Sorting goes on from other items of the same ties. -/
theorem Arranges.of_sameTies {result : Option (List α)} (h : Arranges rank condition other result)
    (hperm : other.Perm items) (hties : condition' → condition ∧ SameTies rank items other) :
    Arranges rank condition' items result := by
  cases result with
  | none => exact fun hc => h (hties hc).1
  | some sorted =>
    exact ⟨h.1.trans hperm, fun hc => (h.2 (hties hc).1).of_sameTies (hties hc).2⟩

/-- Two parts are sorted, and then something is made of them. -/
theorem Arranges.both {condition₁ condition₂ : Prop} {first second : Option (List α)}
    {join : List α → List α → Option γ} (h₁ : Arranges rank condition₁ items first)
    (h₂ : Arranges rank condition₂ other second) (himp : condition → condition₁ ∧ condition₂)
    (hjoin : ∀ left right, Arranges rank condition₁ items (some left) →
      Arranges rank condition₂ other (some right) → Yields condition promise' (join left right)) :
    Yields condition promise'
      (first.bind fun left => second.bind fun right => join left right) := by
  cases first with
  | none => exact fun h => h₁ (himp h).1
  | some left =>
    cases second with
    | none => exact fun h => h₂ (himp h).2
    | some right => exact hjoin left right h₁ h₂

theorem arranges_of_length_le_one (h : items.length ≤ 1) :
    Arranges rank condition items (some items) := by
  refine ⟨List.Perm.refl _, fun _ => Sorts.of_ordered ?_⟩
  exact List.pairwise_iff_getElem.mpr fun a b ha hb hab => by omega

end Yields

end ShellTutor.Sort
