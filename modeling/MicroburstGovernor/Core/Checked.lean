import MicroburstGovernor.Core.Basic
import MicroburstGovernor.Lib.Integral

/-! Checked arithmetic at every width: the helpers behind every externally influenced quantity.

    A helper is written in the arithmetic of its own type, so its guard could overflow itself. Its
    result is an option of an option: none at all where a step has no defined result, and otherwise
    what the helper returns. EXACT means both: every step is defined, and a value comes back exactly when
    the type can hold the exact one. -/

namespace Mbg

namespace Integral

open IntegralType

variable {T : IntegralType}

/-! ### The helpers -/

/-- `a > limit` and `a < limit`, the limit computed in the type. -/
def above (a : T.Val) (limit : ℤ) : Option Bool := (T.eval limit).map fun l => a.toInt > l.toInt

def below (a : T.Val) (limit : ℤ) : Option Bool := (T.eval limit).map fun l => a.toInt < l.toInt

/-- Nothing when the guard fired, the result of the operator otherwise. -/
def guarded (overflows : Option Bool) (result : ℤ) : Option (Option T.Val) := do
  if ← overflows then return none
  return some (← T.eval result)

def addChecked (a b : T.Val) : Option (Option T.Val) :=
  guarded
    (if T.signed = false then above a (T.maxValue - b.toInt)
    else if b.toInt > 0 then above a (T.maxValue - b.toInt)
    else if b.toInt < 0 then below a (T.minValue - b.toInt)
    else some false)
    (a.toInt + b.toInt)

def subChecked (a b : T.Val) : Option (Option T.Val) :=
  guarded
    (if T.signed = false then some (b.toInt > a.toInt)
    else if b.toInt < 0 then above a (T.maxValue + b.toInt)
    else if b.toInt > 0 then below a (T.minValue + b.toInt)
    else some false)
    (a.toInt - b.toInt)

def mulChecked (a b : T.Val) : Option (Option T.Val) :=
  if a.toInt = 0 ∨ b.toInt = 0 then some (some (T.cast 0))
  else
    guarded
      (if T.signed = false then above a (T.maxValue.tdiv b.toInt)
      else if a.toInt > 0 then
        if b.toInt > 0 then above a (T.maxValue.tdiv b.toInt)
        else below b (T.minValue.tdiv a.toInt)
      else if b.toInt > 0 then below a (T.minValue.tdiv b.toInt)
      else below a (T.maxValue.tdiv b.toInt))
      (a.toInt * b.toInt)

def divChecked (a b : T.Val) : Option (Option T.Val) :=
  if b.toInt = 0 then some none
  else
    guarded (some (T.signed ∧ a.toInt = T.minValue ∧ b.toInt = T.wrap (-1)))
      (a.toInt.tdiv b.toInt)

/-- The unsigned type of the same width. -/
def makeUnsigned (T : IntegralType) : IntegralType := { T with signed := false }

/-- Narrowing conversion that fails instead of truncating. -/
def narrowChecked (To : IntegralType) {From : IntegralType} (value : From.Val) : Option To.Val :=
  if From.signed = To.signed then
    if value.toInt < From.wrap To.minValue ∨ value.toInt > From.wrap To.maxValue then none
    else some (To.cast value.toInt)
  else if From.signed then
    if value.toInt < 0 then none
    else if (makeUnsigned From).wrap value.toInt > (makeUnsigned From).wrap To.maxValue then none
    else some (To.cast value.toInt)
  else if value.toInt > From.wrap To.maxValue then none
  else some (To.cast value.toInt)

/-! Saturating helpers for accounting counters, where a clamp is preferable to a hard failure. -/

def saturatingAdd (a b : T.Val) : Option T.Val :=
  (addChecked a b).map fun r => r.getD (if b.toInt > 0 then T.greatest else T.lowest)

def saturatingSub (a b : T.Val) : Option T.Val :=
  (subChecked a b).map fun r => r.getD (if b.toInt > 0 then T.lowest else T.greatest)

def saturatingMul (a b : T.Val) : Option T.Val :=
  let negative := decide (a.toInt < 0) != decide (b.toInt < 0)
  (mulChecked a b).map fun r =>
    r.getD (if T.signed = false then T.greatest else if negative then T.lowest else T.greatest)

/-! ### The guards -/

theorem above_eq (a : T.Val) {limit : ℤ} (h : T.InRange limit) :
    above a limit = some (decide (a.toInt > limit)) := by
  rw [above, eval_of_inRange h, Option.map_some]

theorem below_eq (a : T.Val) {limit : ℤ} (h : T.InRange limit) :
    below a limit = some (decide (a.toInt < limit)) := by
  rw [below, eval_of_inRange h, Option.map_some]

/-- A guard that decides whether the type can hold the result makes the helper exact. -/
theorem guarded_exact {overflows : Option Bool} {p : Prop} [Decidable p] {result : ℤ}
    (hguard : overflows = some (decide p)) (h : p ↔ ¬ T.InRange result) :
    guarded overflows result = some (T.represent result) := by
  rw [hguard]
  by_cases hp : p
  · rw [represent_of_not_inRange (h.mp hp)]
    simp [guarded, hp]
  · have hin : T.InRange result := by_contra fun hout => hp (h.mpr hout)
    rw [represent_of_inRange hin]
    simp [guarded, hp, eval_of_inRange hin]

/-! ### Sums and differences -/

/-- EXACT: a sum is returned exactly when the type can hold it. -/
theorem addChecked_eq (a b : T.Val) : addChecked a b = some (T.represent (a.toInt + b.toInt)) := by
  obtain ⟨a, halow, hahigh⟩ := a
  obtain ⟨b, hblow, hbhigh⟩ := b
  have hmax := T.maxValue_nonneg
  rw [addChecked]
  dsimp only
  cases hs : T.signed with
  | false =>
    have hmin := minValue_of_unsigned hs
    rw [if_pos rfl]
    exact guarded_exact (above_eq _ ⟨by omega, by omega⟩) (by unfold InRange; dsimp only; omega)
  | true =>
    have hmin := minValue_of_signed hs
    rw [if_neg (by simp)]
    by_cases hpos : b > 0
    · rw [if_pos hpos]
      exact guarded_exact (above_eq _ ⟨by omega, by omega⟩) (by unfold InRange; dsimp only; omega)
    · rw [if_neg hpos]
      by_cases hneg : b < 0
      · rw [if_pos hneg]
        exact guarded_exact (below_eq _ ⟨by omega, by omega⟩) (by unfold InRange; dsimp only; omega)
      · rw [if_neg hneg]
        have hin : T.InRange (a + b) := ⟨by omega, by omega⟩
        exact guarded_exact (p := False) (by simp) ⟨False.elim, fun hout => hout hin⟩

/-- EXACT: a difference is returned exactly when the type can hold it. -/
theorem subChecked_eq (a b : T.Val) : subChecked a b = some (T.represent (a.toInt - b.toInt)) := by
  obtain ⟨a, halow, hahigh⟩ := a
  obtain ⟨b, hblow, hbhigh⟩ := b
  have hmax := T.maxValue_nonneg
  rw [subChecked]
  dsimp only
  cases hs : T.signed with
  | false =>
    have hmin := minValue_of_unsigned hs
    rw [if_pos rfl]
    exact guarded_exact rfl (by unfold InRange; omega)
  | true =>
    have hmin := minValue_of_signed hs
    rw [if_neg (by simp)]
    by_cases hneg : b < 0
    · rw [if_pos hneg]
      exact guarded_exact (above_eq _ ⟨by omega, by omega⟩) (by unfold InRange; dsimp only; omega)
    · rw [if_neg hneg]
      by_cases hpos : b > 0
      · rw [if_pos hpos]
        exact guarded_exact (below_eq _ ⟨by omega, by omega⟩) (by unfold InRange; dsimp only; omega)
      · rw [if_neg hpos]
        have hin : T.InRange (a - b) := ⟨by omega, by omega⟩
        exact guarded_exact (p := False) (by simp) ⟨False.elim, fun hout => hout hin⟩

/-! ### Products -/

/-- For a divisor of either sign, being past the truncated quotient is being past the limit. -/
theorem tdiv_lt_iff {m a b : ℤ} (hm : 0 ≤ m) (hb : 0 < b) : m.tdiv b < a ↔ m < a * b := by
  rw [Int.tdiv_eq_ediv_of_nonneg hm, Int.ediv_lt_iff_lt_mul hb]

theorem lt_neg_tdiv_iff {m a b : ℤ} (hm : 0 ≤ m) (hb : 0 < b) :
    a < (-m).tdiv b ↔ a * b < -m := by
  rw [Int.neg_tdiv, lt_neg, tdiv_lt_iff hm hb, neg_mul]
  omega

theorem lt_tdiv_neg_iff {m a b : ℤ} (hm : 0 ≤ m) (hb : b < 0) : a < m.tdiv b ↔ m < a * b := by
  obtain ⟨c, rfl⟩ : ∃ c, b = -c := ⟨-b, by omega⟩
  rw [Int.tdiv_neg, lt_neg, tdiv_lt_iff hm (by omega), neg_mul, mul_neg]

/-- A quotient is no farther from zero than its dividend. -/
theorem tdiv_bounds {m b : ℤ} (hm : 0 ≤ m) : -m ≤ m.tdiv b ∧ m.tdiv b ≤ m := by
  have h := Int.natAbs_tdiv_le_natAbs m b
  omega

/-- EXACT: a product is returned exactly when the type can hold it. -/
theorem mulChecked_eq (a b : T.Val) : mulChecked a b = some (T.represent (a.toInt * b.toInt)) := by
  obtain ⟨a, ha⟩ := a
  obtain ⟨b, hb⟩ := b
  have hmax := T.maxValue_nonneg
  rw [mulChecked]
  dsimp only
  by_cases hzero : a = 0 ∨ b = 0
  · have hprod : a * b = 0 := mul_eq_zero.mpr hzero
    rw [if_pos hzero, hprod, represent_of_inRange T.inRange_zero, cast_of_inRange T.inRange_zero]
  · rw [if_neg hzero]
    push Not at hzero
    obtain ⟨ha0, hb0⟩ := hzero
    obtain ⟨halow, hahigh⟩ := id ha
    obtain ⟨hblow, hbhigh⟩ := id hb
    cases hs : T.signed with
    | false =>
      have hmin := minValue_of_unsigned hs
      have hbound := tdiv_bounds (b := b) hmax
      have hlimit := Int.tdiv_nonneg hmax (show 0 ≤ b by omega)
      have hprod : 0 ≤ a * b := Int.mul_nonneg (by omega) (by omega)
      have hiff := tdiv_lt_iff (a := a) hmax (show 0 < b by omega)
      rw [if_pos rfl]
      exact guarded_exact (above_eq _ ⟨by omega, by omega⟩) (by unfold InRange; dsimp only; omega)
    | true =>
      have hmin := minValue_of_signed hs
      have hneg : T.minValue = -(T.maxValue + 1) := by omega
      rw [if_neg (by simp)]
      by_cases hapos : a > 0
      · rw [if_pos hapos]
        by_cases hbpos : b > 0
        · -- both positive: only the upper limit can be passed
          have hbound := tdiv_bounds (b := b) hmax
          have hprod : 0 < a * b := Int.mul_pos hapos hbpos
          have hiff := tdiv_lt_iff (a := a) hmax hbpos
          rw [if_pos hbpos]
          exact guarded_exact (above_eq _ ⟨by omega, by omega⟩)
            (by unfold InRange; dsimp only; omega)
        · -- a positive times a negative factor: only the lower limit
          have hbound := tdiv_bounds (m := T.maxValue + 1) (b := a) (by omega)
          have hlimit := Int.tdiv_nonneg (show 0 ≤ T.maxValue + 1 by omega) (show 0 ≤ a by omega)
          have hprod : a * b < 0 := Int.mul_neg_of_pos_of_neg hapos (by omega)
          have hiff := lt_neg_tdiv_iff (m := T.maxValue + 1) (a := b) (by omega) hapos
          rw [if_neg hbpos, hneg]
          rw [mul_comm b a] at hiff
          rw [Int.neg_tdiv] at hiff ⊢
          exact guarded_exact (below_eq _ ⟨by omega, by omega⟩)
            (by unfold InRange; dsimp only; omega)
      · rw [if_neg hapos]
        by_cases hbpos : b > 0
        · have hbound := tdiv_bounds (m := T.maxValue + 1) (b := b) (by omega)
          have hlimit := Int.tdiv_nonneg (show 0 ≤ T.maxValue + 1 by omega) (show 0 ≤ b by omega)
          have hprod : a * b < 0 := Int.mul_neg_of_neg_of_pos (by omega) hbpos
          have hiff := lt_neg_tdiv_iff (m := T.maxValue + 1) (a := a) (by omega) hbpos
          rw [if_pos hbpos, hneg]
          rw [Int.neg_tdiv] at hiff ⊢
          exact guarded_exact (below_eq _ ⟨by omega, by omega⟩)
            (by unfold InRange; dsimp only; omega)
        · -- both negative: only the upper limit
          have hbound := tdiv_bounds (b := b) hmax
          have hprod : 0 < a * b := Int.mul_pos_of_neg_of_neg (by omega) (by omega)
          have hiff := lt_tdiv_neg_iff (a := a) hmax (show b < 0 by omega)
          rw [if_neg hbpos]
          exact guarded_exact (below_eq _ ⟨by omega, by omega⟩)
            (by unfold InRange; dsimp only; omega)

/-! ### Quotients -/

/-- The one quotient a type cannot hold is the lowest value's negation. -/
theorem inRange_tdiv_iff {a b : ℤ} (ha : T.InRange a) (hb : T.InRange b) (hb0 : b ≠ 0) :
    T.InRange (a.tdiv b) ↔ ¬ (T.signed = true ∧ a = T.minValue ∧ b = -1) := by
  have hmax := T.maxValue_nonneg
  obtain ⟨halow, hahigh⟩ := ha
  obtain ⟨hblow, hbhigh⟩ := hb
  cases hs : T.signed with
  | false =>
    have hmin := minValue_of_unsigned hs
    have hlow := Int.tdiv_nonneg (show 0 ≤ a by omega) (show 0 ≤ b by omega)
    have hhigh := (tdiv_bounds (b := b) (show 0 ≤ a by omega)).2
    simp only [Bool.false_eq_true, false_and, not_false_iff, iff_true]
    exact ⟨by omega, by omega⟩
  | true =>
    have hmin := minValue_of_signed hs
    simp only [true_and]
    by_cases hone : b = -1
    · subst hone
      rw [Int.tdiv_neg, Int.tdiv_one, InRange]
      omega
    · -- any other divisor halves the dividend or keeps its sign
      have hin : T.InRange (a.tdiv b) := by
        by_cases hanonneg : 0 ≤ a
        · have hbound := tdiv_bounds (b := b) hanonneg
          exact ⟨by omega, by omega⟩
        · obtain ⟨c, rfl⟩ : ∃ c, a = -c := ⟨-a, by omega⟩
          rw [Int.neg_tdiv]
          have hbound := tdiv_bounds (m := c) (b := b) (by omega)
          by_cases hbpos : 0 < b
          · have hlow := Int.tdiv_nonneg (show 0 ≤ c by omega) (show 0 ≤ b by omega)
            exact ⟨by omega, by omega⟩
          · have hhalf : (c.tdiv b).natAbs ≤ c.natAbs / 2 := by
              rw [Int.natAbs_tdiv]
              exact Nat.div_le_div_left (by omega) (by decide)
            exact ⟨by omega, by omega⟩
      exact iff_of_true hin fun h => hone h.2

/-- EXACT: a truncated quotient is returned exactly when the type can hold it. -/
theorem divChecked_eq (a b : T.Val) : divChecked a b =
    some (if b.toInt = 0 then none else T.represent (a.toInt.tdiv b.toInt)) := by
  rw [divChecked]
  by_cases hb : b.toInt = 0
  · rw [if_pos hb, if_pos hb]
  · rw [if_neg hb, if_neg hb]
    refine guarded_exact rfl ?_
    rw [inRange_tdiv_iff a.inRange b.inRange hb, not_not]
    constructor
    · rintro ⟨hs, hmin, hone⟩
      have hrange : T.InRange (-1) := by
        have hlow := minValue_of_signed hs
        have hmax := T.maxValue_nonneg
        exact ⟨by omega, by omega⟩
      exact ⟨hs, hmin, hone.trans (wrap_of_inRange hrange)⟩
    · rintro ⟨hs, hmin, hone⟩
      have hrange : T.InRange (-1) := hone ▸ b.inRange
      exact ⟨hs, hmin, hone.trans (wrap_of_inRange hrange).symm⟩

/-! ### Saturation -/

theorem saturatingAdd_eq (a b : T.Val) : saturatingAdd a b = some (T.clamp (a.toInt + b.toInt)) := by
  obtain ⟨halow, hahigh⟩ := a.inRange
  obtain ⟨hblow, hbhigh⟩ := b.inRange
  rw [saturatingAdd, addChecked_eq, Option.map_some, represent_getD]
  -- a sum out of range lies on the side of its second summand
  intro hout
  have hside : b.toInt > 0 ↔ 0 < a.toInt + b.toInt := by
    have := T.maxValue_nonneg
    have := T.minValue_nonpos
    unfold InRange at hout
    omega
  simp only [hside]

theorem saturatingSub_eq (a b : T.Val) : saturatingSub a b = some (T.clamp (a.toInt - b.toInt)) := by
  obtain ⟨halow, hahigh⟩ := a.inRange
  obtain ⟨hblow, hbhigh⟩ := b.inRange
  rw [saturatingSub, subChecked_eq, Option.map_some, represent_getD]
  intro hout
  have hside : b.toInt > 0 ↔ ¬ 0 < a.toInt - b.toInt := by
    have := T.maxValue_nonneg
    have := T.minValue_nonpos
    unfold InRange at hout
    omega
  simp only [hside, ite_not]

theorem saturatingMul_eq (a b : T.Val) : saturatingMul a b = some (T.clamp (a.toInt * b.toInt)) := by
  obtain ⟨halow, hahigh⟩ := a.inRange
  obtain ⟨hblow, hbhigh⟩ := b.inRange
  rw [saturatingMul, mulChecked_eq, Option.map_some, represent_getD]
  intro hout
  have hne : a.toInt ≠ 0 ∧ b.toInt ≠ 0 := by
    rw [← not_or, ← mul_eq_zero]
    intro hzero
    exact hout (hzero ▸ T.inRange_zero)
  have hside : 0 < a.toInt * b.toInt ↔ (a.toInt < 0 ↔ b.toInt < 0) := by
    rw [mul_pos_iff]
    omega
  cases hs : T.signed with
  | false =>
    have hmin := minValue_of_unsigned hs
    rw [if_pos rfl, if_pos (hside.mpr ⟨fun h => by omega, fun h => by omega⟩)]
  | true =>
    rw [if_neg (by simp), if_congr hside rfl rfl]
    by_cases ha : a.toInt < 0 <;> by_cases hb : b.toInt < 0 <;> simp [ha, hb]

/-! ### Narrowing -/

/-- Both types are signed and the target is the wider one. -/
def WidensSigned (From To : IntegralType) : Prop :=
  From.signed = true ∧ To.signed = true ∧ From.width < To.width

instance (From To : IntegralType) : Decidable (WidensSigned From To) :=
  inferInstanceAs (Decidable (_ ∧ _ ∧ _))

/-- A check that decides whether the target can hold the value makes the conversion exact. -/
theorem checked_cast {To : IntegralType} {z : ℤ} {refused : Prop} [Decidable refused]
    (h : refused ↔ ¬ To.InRange z) :
    (if refused then none else some (To.cast z)) = To.represent z := by
  by_cases hr : refused
  · rw [if_pos hr, represent_of_not_inRange (h.mp hr)]
  · have hin : To.InRange z := by_contra fun hout => hr (h.mpr hout)
    rw [if_neg hr, represent_of_inRange hin, cast_of_inRange hin]

/-- A limit cut down to a type is passed by the type's values that pass the limit itself. -/
theorem wrap_maxValue_lt_iff {U To : IntegralType} (hU : U.signed = false) {z : ℤ}
    (hz : z ≤ U.maxValue) : U.wrap To.maxValue < z ↔ To.maxValue < z := by
  have hwrap : U.wrap To.maxValue = min To.maxValue U.maxValue := wrap_ones hU To.digits
  rw [hwrap]
  omega

/-- What is not negative has a place in the unsigned type of the same width. -/
theorem inRange_makeUnsigned {From : IntegralType} {z : ℤ} (hz : 0 ≤ z) (hhigh : z ≤ From.maxValue) :
    (makeUnsigned From).InRange z := by
  have hdigits : From.digits ≤ (makeUnsigned From).digits := by
    rw [digits, digits]
    split
    · exact Nat.sub_le _ _
    · exact Nat.le_refl _
  have hpow : (2 : ℤ) ^ From.digits ≤ 2 ^ (makeUnsigned From).digits :=
    pow_le_pow_right₀ (by decide) hdigits
  have hmin : (makeUnsigned From).minValue = 0 := minValue_of_unsigned rfl
  rw [maxValue] at hhigh
  refine ⟨by omega, ?_⟩
  rw [maxValue]
  omega

/-- The limits of a wider signed type are cut down to nothing and to minus one. -/
theorem wrap_limits {From To : IntegralType} (h : WidensSigned From To) :
    From.wrap To.minValue = 0 ∧ From.wrap To.maxValue = -1 := by
  obtain ⟨hfrom, hto, hwidth⟩ := h
  have hdigits : From.width ≤ To.digits := by
    rw [digits, if_pos hto]
    omega
  have hdvd : (2 : ℤ) ^ From.width ∣ 2 ^ To.digits := pow_dvd_pow 2 hdigits
  have hlow := minValue_of_signed hfrom
  have hmax := From.maxValue_nonneg
  have hone : From.InRange (-1) := ⟨by omega, by omega⟩
  constructor
  · have hzero : From.wrap To.minValue = From.wrap 0 := by
      refine wrap_congr ?_
      rw [minValue, if_pos hto, sub_zero]
      exact Int.dvd_neg.mpr hdvd
    rw [hzero, wrap_of_inRange From.inRange_zero]
  · have hminus : From.wrap To.maxValue = From.wrap (-1) := by
      refine wrap_congr ?_
      rw [maxValue, sub_neg_eq_add, sub_add_cancel]
      exact hdvd
    rw [hminus, wrap_of_inRange hone]

/-- The range of a signed type holds that of a narrower one. -/
theorem limits_le {From To : IntegralType} (hfrom : From.signed = true) (hto : To.signed = true)
    (h : From.width ≤ To.width) : To.minValue ≤ From.minValue ∧ From.maxValue ≤ To.maxValue := by
  have hdigits : From.digits ≤ To.digits := by
    rw [digits, digits, if_pos hfrom, if_pos hto]
    omega
  have hpow : (2 : ℤ) ^ From.digits ≤ 2 ^ To.digits := pow_le_pow_right₀ (by decide) hdigits
  rw [minValue_of_signed hfrom, minValue_of_signed hto, maxValue, maxValue]
  omega

/-- EXACTLY WHEN: a value is narrowed by its range, unless a signed type is to become a wider signed
    one. Then the limits it is compared with were cut down to the narrow type, and no value passes. -/
theorem narrowChecked_eq_iff {From To : IntegralType} (value : From.Val) :
    narrowChecked To value = To.represent value.toInt ↔ ¬ WidensSigned From To := by
  obtain ⟨z, hz⟩ := value
  obtain ⟨hlow, hhigh⟩ := id hz
  have hfrommax := From.maxValue_nonneg
  have htomax := To.maxValue_nonneg
  rw [narrowChecked]
  dsimp only
  cases hfrom : From.signed with
  | false =>
    have hfrommin := minValue_of_unsigned hfrom
    have hcut : From.wrap To.maxValue < z ↔ To.maxValue < z := wrap_maxValue_lt_iff hfrom hhigh
    refine iff_of_true ?_ fun h => by simp [WidensSigned, hfrom] at h
    cases hto : To.signed with
    | false =>
      have htomin := minValue_of_unsigned hto
      have hzero : From.wrap To.minValue = 0 := by
        rw [htomin, wrap_of_inRange From.inRange_zero]
      rw [if_pos rfl, hzero]
      exact checked_cast (by unfold InRange; omega)
    | true =>
      have htomin := To.minValue_nonpos
      rw [if_neg (by simp), if_neg (by simp)]
      exact checked_cast (by unfold InRange; omega)
  | true =>
    have hfrommin := minValue_of_signed hfrom
    cases hto : To.signed with
    | false =>
      have htomin := minValue_of_unsigned hto
      refine iff_of_true ?_ fun h => by simp [WidensSigned, hto] at h
      rw [if_neg (by simp), if_pos rfl]
      by_cases hneg : z < 0
      · rw [if_pos hneg, represent_of_not_inRange fun h => by have := h.1; omega]
      · have hU : (makeUnsigned From).signed = false := rfl
        have hUmin := minValue_of_unsigned hU
        have hUz := inRange_makeUnsigned (Int.not_lt.mp hneg) hhigh
        have hcut : (makeUnsigned From).wrap To.maxValue < z ↔ To.maxValue < z :=
          wrap_maxValue_lt_iff hU hUz.2
        rw [if_neg hneg, wrap_of_inRange hUz]
        exact checked_cast (by unfold InRange; omega)
    | true =>
      have htomin := minValue_of_signed hto
      rw [if_pos rfl]
      by_cases hwidth : From.width < To.width
      · -- every value is below 0 or above -1
        have hwide : WidensSigned From To := ⟨hfrom, hto, hwidth⟩
        obtain ⟨hmin, hmax⟩ := wrap_limits hwide
        obtain ⟨hle, hge⟩ := limits_le hfrom hto (Nat.le_of_lt hwidth)
        have hin : To.InRange z := ⟨by omega, by omega⟩
        rw [hmin, hmax, if_pos (by omega), represent_of_inRange hin]
        exact iff_of_false (by simp) (not_not.mpr hwide)
      · obtain ⟨hle, hge⟩ := limits_le hto hfrom (Nat.le_of_not_lt hwidth)
        have hmin : From.InRange To.minValue := ⟨by omega, by omega⟩
        have hmax : From.InRange To.maxValue := ⟨by omega, by omega⟩
        refine iff_of_true ?_ fun h => hwidth h.2.2
        rw [wrap_of_inRange hmin, wrap_of_inRange hmax]
        exact checked_cast (by unfold InRange; omega)

/-! ### Every helper -/

/-- The helpers are exact on these values: what the type can hold is returned, and nothing else. -/
def Exact {T From : IntegralType} (a b : T.Val) (To : IntegralType) (value : From.Val) : Prop :=
  addChecked a b = some (T.represent (a.toInt + b.toInt)) ∧
  subChecked a b = some (T.represent (a.toInt - b.toInt)) ∧
  mulChecked a b = some (T.represent (a.toInt * b.toInt)) ∧
  divChecked a b = some (if b.toInt = 0 then none else T.represent (a.toInt.tdiv b.toInt)) ∧
  narrowChecked To value = To.represent value.toInt

/-- EXACTLY WHEN: at all types and values every helper is exact, but for the narrowing of a signed
    type to a wider signed one, which is exact on none. -/
theorem helpers_exact_iff {T From : IntegralType} (a b : T.Val) (To : IntegralType) (value : From.Val) :
    Exact a b To value ↔ ¬ WidensSigned From To := by
  rw [← narrowChecked_eq_iff value]
  constructor
  · exact fun h => h.2.2.2.2
  · exact fun h => ⟨addChecked_eq a b, subChecked_eq a b, mulChecked_eq a b, divChecked_eq a b, h⟩

def int32 : IntegralType := ⟨true, 32, by decide⟩

def int64 : IntegralType := ⟨true, 64, by decide⟩

/-- The 32-bit value 5 is not found to be in the range of 64 bits. -/
theorem narrow_five_refused :
    ¬ ∀ (T From : IntegralType) (a b : T.Val) (To : IntegralType) (value : From.Val),
      Exact a b To value := by
  intro h
  have hnarrow := (h int64 int32 (int64.cast 0) (int64.cast 0) int64 (int32.cast 5)).2.2.2.2
  have hrefused : narrowChecked int64 (int32.cast 5) = none := by decide
  rw [hrefused, represent_of_inRange (show int64.InRange (int32.cast 5).toInt by decide)] at hnarrow
  cases hnarrow

/-! ### The words of the code -/

def uint64 : IntegralType := ⟨false, 64, by decide⟩

/-- A machine word as a value of the type. -/
def ofWord (v : UInt64) : uint64.Val :=
  ⟨v.toNat, Int.natCast_nonneg _, by
    have hlt := v.toNat_lt
    have hmax : uint64.maxValue = 2 ^ 64 - 1 := rfl
    omega⟩

theorem represent_natCast (n : ℕ) :
    uint64.represent n = if n < 2 ^ 64 then some (ofWord (UInt64.ofNat n)) else none := by
  have hmax : uint64.maxValue = 2 ^ 64 - 1 := rfl
  have hmin : uint64.minValue = 0 := rfl
  by_cases h : n < 2 ^ 64
  · rw [if_pos h, represent_eq_some]
    exact congrArg Nat.cast (UInt64.toNat_ofNat_of_lt' h)
  · rw [if_neg h, represent_of_not_inRange]
    rintro ⟨-, hhigh⟩
    omega

/-- The sum that the governor checks is this one at 64 bits. -/
theorem addChecked_ofWord (a b : UInt64) :
    addChecked (ofWord a) (ofWord b) = some ((Mbg.addChecked a b).map ofWord) := by
  have hsum : (ofWord a).toInt + (ofWord b).toInt = ((a.toNat + b.toNat : ℕ) : ℤ) :=
    (Int.natCast_add _ _).symm
  rw [addChecked_eq, hsum, represent_natCast]
  by_cases h : a.toNat + b.toNat < 2 ^ 64
  · have hword : UInt64.ofNat (a.toNat + b.toNat) = a + b := by
      rw [UInt64.ofNat_add, UInt64.ofNat_toNat, UInt64.ofNat_toNat]
    rw [if_pos h, addChecked_eq_some.mpr ⟨h, rfl⟩, Option.map_some, hword]
  · have hnone : Mbg.addChecked a b = none := by
      cases hc : Mbg.addChecked a b with
      | none => rfl
      | some c => exact absurd (addChecked_eq_some.mp hc).1 h
    rw [if_neg h, hnone, Option.map_none]

end Integral

end Mbg
