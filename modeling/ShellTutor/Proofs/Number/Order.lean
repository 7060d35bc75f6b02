import Mathlib.Data.Int.ConditionallyCompleteOrder
import Mathlib.Order.ConditionallyCompleteLattice.Basic
import ShellTutor.Number.Binary64

/-!
# The order of numbers

All numbers but `nan` lie on a line that goes from one infinity to the other. To be below a number
is to lie before it on this line, so numbers without `nan` can be sorted.
-/

namespace ShellTutor.Number

/-- Where a number lies. Nothing is to be said of `nan`. -/
def Binary64.place : Binary64 → WithBot (WithTop Int)
  | .nan => ⊥
  | .infinite true => ⊥
  | .infinite false => ((⊤ : WithTop Int) : WithBot (WithTop Int))
  | .finite units => ((units : WithTop Int) : WithBot (WithTop Int))

theorem Binary64.lt_eq_place {a b : Binary64} (ha : a ≠ .nan) (hb : b ≠ .nan) :
    a.lt b = decide (a.place < b.place) := by
  cases a with
  | nan => exact absurd rfl ha
  | infinite negative =>
    cases b with
    | nan => exact absurd rfl hb
    | infinite negative' => cases negative <;> cases negative' <;> simp [lt, place]
    | finite units => cases negative <;> simp [lt, place]
  | finite units =>
    cases b with
    | nan => exact absurd rfl hb
    | infinite negative =>
      cases negative with
      | true => simp [lt, place]
      | false =>
        exact (decide_eq_true (WithBot.coe_lt_coe.mpr (WithTop.coe_lt_top units))).symm
    | finite units' => simp [lt, place]

end ShellTutor.Number
