import Mathlib.Algebra.Group.Units.Basic
import Mathlib.Data.List.Basic
import Mathlib.Logic.Function.Basic

/-! Mixing steps that lose nothing, and what folds over them tell apart.

    An addition, a product with a unit and an exclusive or with a right shift of itself are each
    injective on words. A fold whose step is injective in the state and in the entry tells apart any
    two lists that differ in one place. -/

namespace Mixing

variable {w : ℕ}

/-- A word that is its own right shift is zero: its bits move out at the end. -/
theorem eq_zero_of_eq_shift {k : ℕ} (hk : 0 < k) {z : BitVec w} (h : z = z >>> k) : z = 0#w := by
  by_contra hne
  have hpos : 0 < z.toNat := by
    refine Nat.pos_of_ne_zero fun hzero => hne ?_
    exact BitVec.eq_of_toNat_eq (by simpa using hzero)
  have hshift : z.toNat = z.toNat / 2 ^ k := by
    have hnat := congrArg BitVec.toNat h
    rwa [BitVec.toNat_ushiftRight, Nat.shiftRight_eq_div_pow] at hnat
  have hless : z.toNat / 2 ^ k < z.toNat := Nat.div_lt_self hpos (Nat.one_lt_two_pow (by omega))
  omega

/-- An exclusive or with a right shift of itself is undone from the top bits down. -/
theorem xorShift_injective {k : ℕ} (hk : 0 < k) :
    Function.Injective fun x : BitVec w => x ^^^ (x >>> k) := by
  intro x y h
  have hsum : x ^^^ y = (x ^^^ y) >>> k := by
    have h' : x ^^^ x >>> k = y ^^^ y >>> k := h
    rw [BitVec.ushiftRight_xor_distrib]
    calc x ^^^ y = x ^^^ x >>> k ^^^ x >>> k ^^^ y := by
          rw [BitVec.xor_assoc x, BitVec.xor_self, BitVec.xor_zero]
      _ = y ^^^ (y ^^^ (y >>> k ^^^ x >>> k)) := by
          rw [h', BitVec.xor_comm _ y, BitVec.xor_assoc y (y >>> k)]
      _ = x >>> k ^^^ y >>> k := by
          rw [← BitVec.xor_assoc, BitVec.xor_self, BitVec.zero_xor, BitVec.xor_comm]
  have hzero := eq_zero_of_eq_shift hk hsum
  exact (BitVec.xor_eq_zero_iff).mp hzero

/-- A product with a unit is undone by its inverse. -/
theorem mul_injective {M : Type*} [Monoid M] {c d : M} (h : c * d = 1) :
    Function.Injective fun x : M => x * c := by
  intro x y hxy
  have hd := congrArg (· * d) hxy
  simpa only [mul_assoc, h, mul_one] using hd

/-! ### Folds -/

variable {σ α : Type*} {f : σ → α → σ}

/-- Two lists that differ in one place, and there only. -/
def OneChange (l m : List α) : Prop :=
  ∃ before a b after, l = before ++ a :: after ∧ m = before ++ b :: after ∧ a ≠ b

theorem foldl_injective (hstate : ∀ a, Function.Injective fun s => f s a) (l : List α) :
    Function.Injective fun s => l.foldl f s := by
  induction l with
  | nil => exact fun s t h => h
  | cons a l ih =>
    intro s t h
    exact hstate a (ih h)

/-- A fold tells apart lists that differ in one place. -/
theorem foldl_ne (hstate : ∀ a, Function.Injective fun s => f s a)
    (hentry : ∀ s, Function.Injective (f s)) {l m : List α} (h : OneChange l m) (s : σ) :
    l.foldl f s ≠ m.foldl f s := by
  obtain ⟨before, a, b, after, rfl, rfl, hne⟩ := h
  rw [List.foldl_append, List.foldl_append, List.foldl_cons, List.foldl_cons]
  intro heq
  exact hne (hentry _ (foldl_injective hstate after heq))

end Mixing
