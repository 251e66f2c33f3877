import Mathlib.Algebra.Order.Ring.Nat
import Mathlib.Data.Nat.Bits
import Mathlib.Tactic.Ring

/-! Restoring division: quotient and remainder of a number, one bit of it at a time from the top.

    The dividend's bits above a position are a number of their own, the dividend shifted down. A
    division that has taken these bits has divided that number. -/

namespace Mbg

namespace LongDivision

/-- The bit of a number at a position. -/
def bitAt (dividend bit : ℕ) : ℕ := dividend / 2 ^ bit % 2

theorem bitAt_lt_two (dividend bit : ℕ) : bitAt dividend bit < 2 := Nat.mod_lt _ Nat.two_pos

/-- One more bit of the dividend: what was above it moves up by one. -/
theorem shifted_eq (dividend bit : ℕ) :
    dividend / 2 ^ bit = 2 * (dividend / 2 ^ (bit + 1)) + bitAt dividend bit := by
  rw [bitAt, Nat.pow_succ, ← Nat.div_div_eq_div_mul]
  omega

/-- The remainder takes the next bit. -/
def shiftIn (dividend remainder bit : ℕ) : ℕ := 2 * remainder + bitAt dividend bit

/-- One bit: a remainder that reaches the divisor gives it back, and the quotient gets the bit. -/
def step (dividend divisor : ℕ) (state : ℕ × ℕ) (bit : ℕ) : ℕ × ℕ :=
  let remainder := shiftIn dividend state.2 bit
  if divisor ≤ remainder then (state.1 + 2 ^ bit, remainder - divisor) else (state.1, remainder)

/-- The state of a division that has taken the bits from `bit` up. -/
structure Divided (dividend divisor bit : ℕ) (state : ℕ × ℕ) : Prop where
  quotient : state.1 = dividend / 2 ^ bit / divisor * 2 ^ bit
  remainder : state.2 = dividend / 2 ^ bit % divisor

section

variable {dividend divisor bit : ℕ} {state : ℕ × ℕ}

theorem Divided.remainder_lt (h : Divided dividend divisor bit state) (hd : 0 < divisor) :
    state.2 < divisor := by
  rw [h.remainder]
  exact Nat.mod_lt _ hd

/-- The shifted remainder and the dividend's bits differ by what the quotient has taken. -/
theorem Divided.shiftIn_eq (h : Divided dividend divisor (bit + 1) state) :
    dividend / 2 ^ bit = divisor * (2 * (dividend / 2 ^ (bit + 1) / divisor)) +
      shiftIn dividend state.2 bit := by
  rw [shiftIn, h.remainder, shifted_eq dividend bit]
  have hsplit := Nat.div_add_mod (dividend / 2 ^ (bit + 1)) divisor
  rw [Nat.mul_left_comm divisor 2]
  omega

theorem Divided.shiftIn_lt (h : Divided dividend divisor (bit + 1) state) (hd : 0 < divisor) :
    shiftIn dividend state.2 bit < 2 * divisor := by
  have hlt := h.remainder_lt hd
  have hbit := bitAt_lt_two dividend bit
  rw [shiftIn]
  omega

/-- STEP: taking the next bit divides the number the bits make with it. -/
theorem Divided.step (h : Divided dividend divisor (bit + 1) state) (hd : 0 < divisor) :
    Divided dividend divisor bit (LongDivision.step dividend divisor state bit) := by
  have hshift := h.shiftIn_eq
  have hlt := h.shiftIn_lt hd
  have hquotient : state.1 = 2 * (dividend / 2 ^ (bit + 1) / divisor) * 2 ^ bit := by
    rw [h.quotient, Nat.pow_succ]
    ring
  rw [LongDivision.step]
  generalize shiftIn dividend state.2 bit = remainder at hshift hlt ⊢
  generalize dividend / 2 ^ (bit + 1) / divisor = q at hshift hquotient
  by_cases hfits : divisor ≤ remainder
  · have hunique := (Nat.div_mod_unique (a := dividend / 2 ^ bit) (c := remainder - divisor)
      (d := 2 * q + 1) hd).mpr ⟨by rw [hshift, Nat.mul_add]; omega, by omega⟩
    refine ⟨?_, ?_⟩
    · rw [if_pos hfits, hunique.1, hquotient]
      ring
    · rw [if_pos hfits, hunique.2]
  · have hunique := (Nat.div_mod_unique (a := dividend / 2 ^ bit) (c := remainder)
      (d := 2 * q) hd).mpr ⟨by rw [hshift]; omega, by omega⟩
    refine ⟨?_, ?_⟩
    · rw [if_neg hfits, hunique.1, hquotient]
    · rw [if_neg hfits, hunique.2]

/-- A bit the quotient does not reach finds the remainder below the divisor. -/
theorem Divided.shiftIn_lt_of_high (h : Divided dividend divisor (bit + 1) state)
    (hhigh : dividend < divisor * 2 ^ bit) : shiftIn dividend state.2 bit < divisor := by
  have hlt : dividend / 2 ^ bit < divisor := Nat.div_lt_of_lt_mul (by rwa [Nat.mul_comm])
  rw [h.shiftIn_eq] at hlt
  omega

end

end LongDivision

end Mbg
