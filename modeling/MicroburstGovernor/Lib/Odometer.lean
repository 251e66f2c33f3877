import Mathlib.Algebra.Order.Ring.Nat
import Mathlib.Data.List.Basic
import Mathlib.Data.UInt

/-! Readings of a counter that wraps: what the two ends of a series tell about the way between.

    A counter of 64 bits only moves forward, and a reading shows where it stands on its circle. The
    way from each reading to the next is known when it is less than one turn; the way from the first
    to the last is known up to whole turns. -/

namespace Mbg

namespace Odometer

variable {α : Type*} (read : α → UInt64)

/-- The way the counter goes over a series of readings. -/
def travel : List α → ℕ
  | a :: b :: rest => (read b - read a).toNat + travel (b :: rest)
  | _ => 0

@[simp] theorem travel_nil : travel read [] = 0 := rfl

@[simp] theorem travel_singleton (a : α) : travel read [a] = 0 := rfl

theorem travel_cons_cons (a b : α) (rest : List α) :
    travel read (a :: b :: rest) = (read b - read a).toNat + travel read (b :: rest) := rfl

/-- ENDS: the readings at the two ends show the way between them up to whole turns. -/
theorem toNat_ends (a : α) (rest : List α) :
    (read ((a :: rest).getLast (List.cons_ne_nil a rest)) - read a).toNat =
      travel read (a :: rest) % 2 ^ 64 := by
  induction rest generalizing a with
  | nil => simp
  | cons b rest ih =>
    have hrest := ih b
    rw [List.getLast_cons (List.cons_ne_nil b rest), travel_cons_cons]
    generalize (b :: rest).getLast (List.cons_ne_nil b rest) = last at hrest ⊢
    rw [UInt64.toNat_sub] at hrest ⊢
    rw [UInt64.toNat_sub]
    have := (read a).toNat_lt
    have := (read b).toNat_lt
    have := (read last).toNat_lt
    omega

/-- A way of less than one turn is what the two ends show. -/
theorem toNat_ends_of_lt {a : α} {rest : List α} (h : travel read (a :: rest) < 2 ^ 64) :
    (read ((a :: rest).getLast (List.cons_ne_nil a rest)) - read a).toNat =
      travel read (a :: rest) := by
  rw [toNat_ends, Nat.mod_eq_of_lt h]

end Odometer

end Mbg
