import Mathlib.Algebra.Order.Group.Int
import Mathlib.Algebra.Order.Ring.Int
import Mathlib.Tactic.Linarith
import Mathlib.Tactic.Ring

/-! Fixed-point quotients: a ratio scaled, truncated toward zero and saturated.

    The scaled quotient splits into the whole part, scaled, and a fraction of less than one whole that
    the remainder leaves. Neither needs more room than the range the result saturates to, if the
    remainder can be scaled. -/

namespace Mbg

namespace FixedPoint

/-- The ratio of two numbers in units of one over `scale`, truncated toward zero. -/
def ratio (scale numerator denominator : ℤ) : ℤ := (numerator * scale).tdiv denominator

/-- What the remainder adds to the whole part. -/
def fraction (scale numerator denominator : ℤ) : ℤ :=
  (numerator.tmod denominator * scale).tdiv denominator

/-- A value held to the range of `bound` values below zero and as many from zero up. -/
def saturate (bound value : ℤ) : ℤ := max (-bound) (min (bound - 1) value)

section

variable {bound value : ℤ}

theorem saturate_of_ge (hbound : 0 < bound) (h : bound - 1 ≤ value) :
    saturate bound value = bound - 1 := by
  rw [saturate]
  omega

theorem saturate_of_le (h : value ≤ -bound) : saturate bound value = -bound := by
  rw [saturate]
  omega

theorem saturate_mem (value : ℤ) (hbound : 0 < bound) :
    -bound ≤ saturate bound value ∧ saturate bound value < bound := by
  rw [saturate]
  omega

theorem saturate_of_mem (hlow : -bound ≤ value) (hhigh : value < bound) :
    saturate bound value = value := by
  rw [saturate]
  omega

end

section

variable {scale numerator denominator : ℤ}

theorem fraction_neg : fraction scale (-numerator) denominator =
    -fraction scale numerator denominator := by
  rw [fraction, fraction, Int.neg_tmod, Int.neg_mul, Int.neg_tdiv]

/-- Without a sign the two parts are those of floor division. -/
theorem ratio_of_nonneg (hscale : 0 ≤ scale) (hd : 0 < denominator) (hn : 0 ≤ numerator) :
    ratio scale numerator denominator =
      numerator.tdiv denominator * scale + fraction scale numerator denominator := by
  have hsplit := Int.mul_tdiv_add_tmod numerator denominator
  have hrest : 0 ≤ numerator.tmod denominator * scale :=
    Int.mul_nonneg (Int.tmod_nonneg denominator hn) hscale
  rw [ratio, fraction, Int.tdiv_eq_ediv_of_nonneg (Int.mul_nonneg hn hscale),
    Int.tdiv_eq_ediv_of_nonneg hrest]
  nth_rewrite 1 [← hsplit]
  rw [Int.add_mul, Int.mul_assoc, Int.add_comm, Int.add_mul_ediv_left _ _ hd.ne']
  ring

/-- SPLIT: a scaled quotient is the scaled whole part and the fraction. -/
theorem ratio_eq (hscale : 0 ≤ scale) (hd : 0 < denominator) :
    ratio scale numerator denominator =
      numerator.tdiv denominator * scale + fraction scale numerator denominator := by
  rcases Int.le_total 0 numerator with hn | hn
  · exact ratio_of_nonneg hscale hd hn
  · have hpos := ratio_of_nonneg hscale hd (Int.neg_nonneg_of_nonpos hn)
    rw [ratio, Int.neg_mul, Int.neg_tdiv, Int.neg_tdiv, fraction_neg] at hpos
    rw [ratio]
    linarith

theorem fraction_of_nonneg (hscale : 0 < scale) (hd : 0 < denominator) (hn : 0 ≤ numerator) :
    0 ≤ fraction scale numerator denominator ∧ fraction scale numerator denominator < scale := by
  have hrest := Int.tmod_nonneg denominator hn
  have hlt := Int.tmod_lt_of_pos numerator hd
  have hscaled : 0 ≤ numerator.tmod denominator * scale := Int.mul_nonneg hrest hscale.le
  rw [fraction, Int.tdiv_eq_ediv_of_nonneg hscaled]
  refine ⟨Int.ediv_nonneg hscaled hd.le, Int.ediv_lt_of_lt_mul hd ?_⟩
  rw [Int.mul_comm scale]
  exact Int.mul_lt_mul_of_pos_right hlt hscale

/-- The fraction is less than one whole, to the side the numerator is on. -/
theorem fraction_bounds (numerator : ℤ) (hscale : 0 < scale) (hd : 0 < denominator) :
    -scale < fraction scale numerator denominator ∧ fraction scale numerator denominator < scale ∧
      (0 ≤ numerator → 0 ≤ fraction scale numerator denominator) ∧
      (numerator ≤ 0 → fraction scale numerator denominator ≤ 0) := by
  rcases Int.le_total 0 numerator with hn | hn
  · obtain ⟨hlow, hhigh⟩ := fraction_of_nonneg hscale hd hn
    refine ⟨by omega, hhigh, fun _ => hlow, fun hle => ?_⟩
    have hzero : numerator = 0 := by omega
    rw [hzero, fraction]
    simp
  · obtain ⟨hlow, hhigh⟩ := fraction_of_nonneg hscale hd (Int.neg_nonneg_of_nonpos hn)
    rw [fraction_neg] at hlow hhigh
    refine ⟨by omega, by omega, fun hge => ?_, fun _ => by omega⟩
    have hzero : numerator = 0 := by omega
    rw [hzero, fraction]
    simp

/-- The sign of a whole part that is not zero is its numerator's. -/
theorem sign_of_whole (numerator : ℤ) (hd : 0 < denominator) :
    (0 < numerator.tdiv denominator → 0 ≤ numerator) ∧
      (numerator.tdiv denominator < 0 → numerator ≤ 0) := by
  constructor
  · intro h
    by_contra hneg
    have hle := Int.tdiv_nonneg (a := -numerator) (by omega) hd.le
    rw [Int.neg_tdiv] at hle
    omega
  · intro h
    by_contra hpos
    have hle := Int.tdiv_nonneg (a := numerator) (by omega) hd.le
    omega

/-- A quotient is within a bound when its numerator is within as many denominators. -/
theorem tdiv_bounds (numerator limit : ℤ) (hd : 0 < denominator) (hlimit : 0 ≤ limit)
    (hlow : -(denominator * limit) ≤ numerator) (hhigh : numerator ≤ denominator * limit) :
    -limit ≤ numerator.tdiv denominator ∧ numerator.tdiv denominator ≤ limit := by
  have hsplit := Int.mul_tdiv_add_tmod numerator denominator
  obtain ⟨hpos, hneg⟩ := sign_of_whole numerator hd
  constructor
  · by_contra hlt
    have hrest := Int.tmod_nonneg denominator (a := -numerator)
      (Int.neg_nonneg_of_nonpos (hneg (by omega)))
    have hscaled : denominator * numerator.tdiv denominator ≤ denominator * (-limit - 1) :=
      Int.mul_le_mul_of_nonneg_left (by omega) hd.le
    rw [Int.neg_tmod] at hrest
    linarith
  · by_contra hlt
    have hrest := Int.tmod_nonneg denominator (hpos (by omega))
    have hscaled : denominator * (limit + 1) ≤ denominator * numerator.tdiv denominator :=
      Int.mul_le_mul_of_nonneg_left (by omega) hd.le
    linarith

/-- SATURATION: a whole part past the limit saturates the ratio, one within it leaves room for the
    fraction. -/
theorem saturate_ratio (numerator : ℤ) {limit : ℤ} (hlimit : 0 ≤ limit) (hscale : 0 < scale)
    (hd : 0 < denominator) :
    saturate ((limit + 1) * scale) (ratio scale numerator denominator) =
      if numerator.tdiv denominator > limit then (limit + 1) * scale - 1
      else if numerator.tdiv denominator < -limit then -((limit + 1) * scale)
      else numerator.tdiv denominator * scale + fraction scale numerator denominator := by
  obtain ⟨hlow, hhigh, hnonneg, hnonpos⟩ :=
    fraction_bounds numerator hscale hd
  obtain ⟨hpos, hneg⟩ := sign_of_whole numerator hd
  rw [ratio_eq hscale.le hd]
  generalize numerator.tdiv denominator = whole at *
  generalize fraction scale numerator denominator = rest at *
  split_ifs with hover hunder
  · have hge : (limit + 1) * scale ≤ whole * scale :=
      Int.mul_le_mul_of_nonneg_right (by omega) hscale.le
    have hroom : 0 < (limit + 1) * scale := Int.mul_pos (by omega) hscale
    have := hnonneg (hpos (by omega))
    exact saturate_of_ge hroom (by linarith)
  · have hle : whole * scale ≤ -(limit + 1) * scale :=
      Int.mul_le_mul_of_nonneg_right (by omega) hscale.le
    have := hnonpos (hneg (by omega))
    exact saturate_of_le (by linarith)
  · have hge : -limit * scale ≤ whole * scale :=
      Int.mul_le_mul_of_nonneg_right (by omega) hscale.le
    have hle : whole * scale ≤ limit * scale :=
      Int.mul_le_mul_of_nonneg_right (by omega) hscale.le
    exact saturate_of_mem (by linarith) (by linarith)

/-- Two numerators of one truncated quotient are less than two denominators apart. -/
theorem sub_lt_of_tdiv_eq {a b : ℤ} (hd : 0 < denominator)
    (h : a.tdiv denominator = b.tdiv denominator) :
    -(2 * denominator) < a - b ∧ a - b < 2 * denominator := by
  have ha := Int.mul_tdiv_add_tmod a denominator
  have hb := Int.mul_tdiv_add_tmod b denominator
  have := Int.tmod_lt_of_pos a hd
  have := Int.tmod_lt_of_pos b hd
  have := Int.lt_tmod_of_pos a hd
  have := Int.lt_tmod_of_pos b hd
  rw [h] at ha
  constructor <;> linarith

end

end FixedPoint

end Mbg
