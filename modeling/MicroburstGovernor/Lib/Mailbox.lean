import Mathlib.Data.List.Basic

/-! A bounded mailbox that drops its oldest entry to make room for a new one. -/

namespace Mailbox

variable {α : Type*}

/-- What is left of the values pushed: the newest, as many as there is room for. -/
def newest (cap : ℕ) (as : List α) : List α := as.drop (as.length - cap)

/-- What had to make room for it. -/
def overrun (cap : ℕ) (as : List α) : List α := as.take (as.length - cap)

/-- A push into a full mailbox drops the oldest value and counts it. -/
def push (cap : ℕ) (pending : List α) (a : α) : List α :=
  if cap ≤ pending.length then pending.tail ++ [a] else pending ++ [a]

@[simp] theorem newest_nil (cap : ℕ) : newest cap ([] : List α) = [] := by simp [newest]

@[simp] theorem overrun_nil (cap : ℕ) : overrun cap ([] : List α) = [] := by simp [overrun]

theorem length_newest (cap : ℕ) (as : List α) : (newest cap as).length = min as.length cap := by
  rw [newest, List.length_drop]
  omega

theorem length_overrun (cap : ℕ) (as : List α) : (overrun cap as).length = as.length - cap := by
  rw [overrun, List.length_take]
  omega

/-- Nothing is lost between the two. -/
theorem overrun_append_newest (cap : ℕ) (as : List α) : overrun cap as ++ newest cap as = as :=
  List.take_append_drop _ as

/-- A mailbox is full once as many values were pushed as it holds. -/
theorem full_iff {cap : ℕ} {as : List α} : cap ≤ (newest cap as).length ↔ cap ≤ as.length := by
  rw [length_newest]
  omega

/-- PUSH: the mailbox holds the newest values before and after. -/
theorem push_newest {cap : ℕ} (hcap : 0 < cap) (as : List α) (a : α) :
    push cap (newest cap as) a = newest cap (as ++ [a]) := by
  have hlen : (as ++ [a]).length = as.length + 1 := by simp
  rw [push]
  by_cases hfull : cap ≤ as.length
  · rw [if_pos (full_iff.mpr hfull), newest, newest, hlen, List.tail_drop,
      List.drop_append_of_le_length (by omega)]
    congr 2
    omega
  · have hroom : ¬ cap ≤ (newest cap as).length := fun h => hfull (full_iff.mp h)
    rw [if_neg hroom, newest, newest, hlen, Nat.sub_eq_zero_of_le (by omega),
      Nat.sub_eq_zero_of_le (by omega), List.drop_zero, List.drop_zero]

/-- A push loses a value exactly when the mailbox is full. -/
theorem length_overrun_push (cap : ℕ) (as : List α) (a : α) :
    (overrun cap (as ++ [a])).length =
      (overrun cap as).length + if cap ≤ (newest cap as).length then 1 else 0 := by
  rw [length_overrun, length_overrun, List.length_append, List.length_singleton]
  by_cases hfull : cap ≤ as.length
  · rw [if_pos (full_iff.mpr hfull)]
    omega
  · rw [if_neg fun h => hfull (full_iff.mp h)]
    omega

end Mailbox
