import Mathlib.Data.Int.Order.Basic
import Mathlib.Tactic.Ring
import Mathlib.Tactic.Linarith

/-! Integral types of any width: their ranges, conversions between them, and arithmetic in them.

    A conversion reduces modulo the width. Arithmetic in an unsigned type wraps; a signed overflow has
    no defined result, so an evaluation is an option that is `none` there. -/

/-- An integral type: whether it is signed, and its width in bits. -/
structure IntegralType where
  signed : Bool
  width : ℕ
  pos : 0 < width

namespace IntegralType

variable {T : IntegralType}

/-- The bits that hold a value's magnitude. -/
def digits (T : IntegralType) : ℕ := if T.signed then T.width - 1 else T.width

def maxValue (T : IntegralType) : ℤ := 2 ^ T.digits - 1

def minValue (T : IntegralType) : ℤ := if T.signed then -2 ^ T.digits else 0

def InRange (T : IntegralType) (z : ℤ) : Prop := T.minValue ≤ z ∧ z ≤ T.maxValue

instance (z : ℤ) : Decidable (T.InRange z) := inferInstanceAs (Decidable (_ ∧ _))

/-- A value of the type: an integer in its range. -/
@[ext] structure Val (T : IntegralType) where
  toInt : ℤ
  inRange : T.InRange toInt

/-- The value that an integer is, if it is one. -/
def represent (T : IntegralType) (z : ℤ) : Option T.Val := if h : T.InRange z then some ⟨z, h⟩ else none

/-! ### Ranges -/

theorem two_pow_digits_pos (T : IntegralType) : (0 : ℤ) < 2 ^ T.digits := by positivity

theorem maxValue_nonneg (T : IntegralType) : 0 ≤ T.maxValue := by
  have := T.two_pow_digits_pos
  rw [maxValue]
  omega

theorem minValue_of_signed (h : T.signed = true) : T.minValue = -T.maxValue - 1 := by
  rw [minValue, if_pos h, maxValue]
  omega

theorem minValue_of_unsigned (h : T.signed = false) : T.minValue = 0 := by
  rw [minValue, if_neg (by simp [h])]

theorem minValue_nonpos (T : IntegralType) : T.minValue ≤ 0 := by
  have := T.maxValue_nonneg
  cases h : T.signed with
  | false => rw [minValue_of_unsigned h]
  | true => rw [minValue_of_signed h]; omega

theorem inRange_zero (T : IntegralType) : T.InRange 0 := ⟨T.minValue_nonpos, T.maxValue_nonneg⟩

/-- The modulus of a type is the number of its values. -/
theorem two_pow_width (T : IntegralType) : (2 : ℤ) ^ T.width = T.maxValue - T.minValue + 1 := by
  cases h : T.signed with
  | false =>
    rw [minValue_of_unsigned h, maxValue, digits, if_neg (by simp [h])]
    ring
  | true =>
    have hwidth : T.width = T.digits + 1 := by
      have := T.pos
      rw [digits, if_pos h]
      omega
    rw [minValue_of_signed h, maxValue, hwidth, pow_succ]
    ring

theorem represent_of_inRange {z : ℤ} (h : T.InRange z) : T.represent z = some ⟨z, h⟩ := dif_pos h

theorem represent_of_not_inRange {z : ℤ} (h : ¬ T.InRange z) : T.represent z = none := dif_neg h

theorem represent_eq_some {z : ℤ} {v : T.Val} : T.represent z = some v ↔ v.toInt = z := by
  constructor
  · intro h
    by_cases hz : T.InRange z
    · rw [represent_of_inRange hz, Option.some.injEq] at h
      rw [← h]
    · rw [represent_of_not_inRange hz] at h
      cases h
  · rintro rfl
    exact represent_of_inRange v.inRange

/-! ### Clamping -/

def greatest (T : IntegralType) : T.Val :=
  ⟨T.maxValue, T.minValue_nonpos.trans T.maxValue_nonneg, Int.le_refl _⟩

def lowest (T : IntegralType) : T.Val :=
  ⟨T.minValue, Int.le_refl _, T.minValue_nonpos.trans T.maxValue_nonneg⟩

/-- The value nearest to an integer. -/
def clamp (T : IntegralType) (z : ℤ) : T.Val :=
  if h : T.InRange z then ⟨z, h⟩ else if 0 < z then T.greatest else T.lowest

/-- What stands in for a value the type cannot hold is a limit, on the side of its sign. -/
theorem represent_getD {z : ℤ} {other : T.Val}
    (h : ¬ T.InRange z → other = if 0 < z then T.greatest else T.lowest) :
    (T.represent z).getD other = T.clamp z := by
  by_cases hz : T.InRange z
  · rw [represent_of_inRange hz, clamp, dif_pos hz, Option.getD_some]
  · rw [represent_of_not_inRange hz, clamp, dif_neg hz, Option.getD_none, h hz]

/-! ### Conversion -/

/-- The integer a conversion leaves: the one in range that is congruent modulo the width. -/
def wrap (T : IntegralType) (z : ℤ) : ℤ := (z - T.minValue) % 2 ^ T.width + T.minValue

theorem inRange_wrap (T : IntegralType) (z : ℤ) : T.InRange (T.wrap z) := by
  have hpos : (0 : ℤ) < 2 ^ T.width := by positivity
  have hlow := Int.emod_nonneg (z - T.minValue) (Int.ne_of_gt hpos)
  have hhigh := Int.emod_lt_of_pos (z - T.minValue) hpos
  have hwidth := T.two_pow_width
  rw [wrap]
  constructor <;> omega

/-- Conversion of an integer to the type. -/
def cast (T : IntegralType) (z : ℤ) : T.Val := ⟨T.wrap z, T.inRange_wrap z⟩

/-- A conversion keeps what the type can hold. -/
theorem wrap_of_inRange {z : ℤ} (h : T.InRange z) : T.wrap z = z := by
  have hwidth := T.two_pow_width
  obtain ⟨hlow, hhigh⟩ := h
  rw [wrap, Int.emod_eq_of_lt (by omega) (by omega)]
  omega

theorem cast_of_inRange {z : ℤ} (h : T.InRange z) : T.cast z = ⟨z, h⟩ :=
  Val.ext (wrap_of_inRange h)

/-- A conversion depends on the integer modulo the width only. -/
theorem wrap_congr {y z : ℤ} (h : (2 : ℤ) ^ T.width ∣ y - z) : T.wrap y = T.wrap z := by
  have hmod : (y - T.minValue) % 2 ^ T.width = (z - T.minValue) % 2 ^ T.width := by
    rw [Int.emod_eq_emod_iff_emod_sub_eq_zero, sub_sub_sub_cancel_right]
    exact Int.emod_eq_zero_of_dvd h
  rw [wrap, wrap, hmod]

/-- All ones stay all ones: a conversion to an unsigned type cuts a limit down to its own. -/
theorem wrap_ones (h : T.signed = false) (k : ℕ) : T.wrap (2 ^ k - 1) = min (2 ^ k - 1) T.maxValue := by
  have hdigits : T.digits = T.width := by rw [digits, if_neg (by simp [h])]
  have hmin := minValue_of_unsigned h
  rcases Nat.le_total k T.width with hle | hle
  · have hpow : (2 : ℤ) ^ k ≤ 2 ^ T.width := pow_le_pow_right₀ (by decide) hle
    have hpos : (0 : ℤ) < 2 ^ k := by positivity
    have hmax : T.maxValue = 2 ^ T.width - 1 := by rw [maxValue, hdigits]
    rw [min_eq_left (by omega), wrap_of_inRange]
    exact ⟨by omega, by omega⟩
  · have hpow : (2 : ℤ) ^ T.width ≤ 2 ^ k := pow_le_pow_right₀ (by decide) hle
    have hmax : T.maxValue = 2 ^ T.width - 1 := by rw [maxValue, hdigits]
    have hdvd : (2 : ℤ) ^ T.width ∣ 2 ^ k - 1 - T.maxValue := by
      rw [hmax, show (2 : ℤ) ^ k - 1 - (2 ^ T.width - 1) = 2 ^ k - 2 ^ T.width by ring]
      exact Int.dvd_sub (pow_dvd_pow 2 hle) (Int.dvd_refl _)
    rw [min_eq_right (by omega), wrap_congr hdvd, wrap_of_inRange]
    exact ⟨by have := T.maxValue_nonneg; omega, Int.le_refl _⟩

/-! ### Arithmetic -/

/-- The result of an operator in the type: unsigned it wraps, and a signed overflow has none. -/
def eval (T : IntegralType) (z : ℤ) : Option T.Val :=
  if T.signed then T.represent z else some (T.cast z)

/-- What the type can hold is computed exactly. -/
theorem eval_of_inRange {z : ℤ} (h : T.InRange z) : T.eval z = some ⟨z, h⟩ := by
  rw [eval]
  split
  · exact represent_of_inRange h
  · rw [cast_of_inRange h]

end IntegralType
