import MicroburstGovernor.Detect.Window
import MicroburstGovernor.Lib.LongDivision
import Mathlib.Data.UInt

/-! The per-mille ratio: the two words of the product and of the division as the numbers they are. -/

namespace Mbg

/-- Two words as one number. -/
def wide (hi lo : UInt64) : ℕ := hi.toNat * 2 ^ 64 + lo.toNat

/-! ### The product -/

/-- The product of a value and a small multiplier, its words put together. -/
theorem wide_multiply128 (value multiplier : UInt64) (h : multiplier.toNat < 2 ^ 32) :
    wide (multiply128 value multiplier).1 (multiply128 value multiplier).2 =
      value.toNat * multiplier.toNat := by
  have hvalue := value.toNat_lt
  have hlow : (value &&& 0xFFFFFFFF).toNat = value.toNat % 2 ^ 32 := by
    rw [UInt64.toNat_and]
    exact Nat.and_two_pow_sub_one_eq_mod value.toNat 32
  have hhigh : (value >>> 32).toNat = value.toNat / 2 ^ 32 := by
    rw [UInt64.toNat_shiftRight, Nat.shiftRight_eq_div_pow]
    rfl
  have hlowest : value.toNat % 2 ^ 32 * multiplier.toNat ≤ (2 ^ 32 - 1) * 2 ^ 32 :=
    Nat.mul_le_mul (by omega) h.le
  have hhighest : value.toNat / 2 ^ 32 * multiplier.toNat ≤ (2 ^ 32 - 1) * 2 ^ 32 :=
    Nat.mul_le_mul (by omega) h.le
  have hp0 : ((value &&& 0xFFFFFFFF) * multiplier).toNat =
      value.toNat % 2 ^ 32 * multiplier.toNat := by
    rw [UInt64.toNat_mul, hlow]
    exact Nat.mod_eq_of_lt (by omega)
  have hp1 : ((value >>> 32) * multiplier).toNat =
      value.toNat / 2 ^ 32 * multiplier.toNat := by
    rw [UInt64.toNat_mul, hhigh]
    exact Nat.mod_eq_of_lt (by omega)
  have hproduct : value.toNat * multiplier.toNat =
      value.toNat / 2 ^ 32 * multiplier.toNat * 2 ^ 32 +
        value.toNat % 2 ^ 32 * multiplier.toNat := by
    nth_rewrite 1 [← Nat.div_add_mod value.toNat (2 ^ 32)]
    ring
  rw [multiply128, hproduct, ← hp0, ← hp1]
  dsimp only
  generalize (value &&& 0xFFFFFFFF) * multiplier = p0 at *
  generalize (value >>> 32) * multiplier = p1 at *
  have hup : (p1 <<< 32).toNat = p1.toNat * 2 ^ 32 % 2 ^ 64 := by
    rw [UInt64.toNat_shiftLeft, Nat.shiftLeft_eq]
    rfl
  have hdown : (p1 >>> 32).toNat = p1.toNat / 2 ^ 32 := by
    rw [UInt64.toNat_shiftRight, Nat.shiftRight_eq_div_pow]
    rfl
  rw [wide]
  split_ifs with hcarry
  all_goals
    rw [UInt64.lt_iff_toNat_lt, UInt64.toNat_add, hup] at hcarry
    simp only [UInt64.toNat_add, hup, hdown, UInt64.toNat_one, UInt64.toNat_zero]
    have := p0.toNat_lt
    have := p1.toNat_lt
    omega

/-! ### The division -/

/-- The word that holds a bit of the dividend, and the bit read from it. -/
def nextBit (hi lo : UInt64) (bit : ℕ) : UInt64 :=
  if bit ≥ 64 then (hi >>> (bit - 64).toUInt64) &&& 1 else (lo >>> bit.toUInt64) &&& 1

/-- The remainder after the next bit was shifted in: its word, without the bit that left it. -/
def shiftedWord (hi lo remainder : UInt64) (bit : ℕ) : UInt64 :=
  (remainder <<< 1) ||| nextBit hi lo bit

/-- The step at this bit sets it in the quotient. -/
def SetsBit (hi lo divisor remainder : UInt64) (bit : ℕ) : Prop :=
  remainder >>> 63 ≠ 0 ∨ shiftedWord hi lo remainder bit ≥ divisor

instance (hi lo divisor remainder : UInt64) (bit : ℕ) :
    Decidable (SetsBit hi lo divisor remainder bit) :=
  inferInstanceAs (Decidable (_ ∨ _))

theorem divideStep_eq (hi lo divisor : UInt64) (state : UInt64 × UInt64) (bit : ℕ) :
    divideStep hi lo divisor state bit =
      if SetsBit hi lo divisor state.2 bit then
        (state.1 ||| ((1 : UInt64) <<< bit.toUInt64), shiftedWord hi lo state.2 bit - divisor)
      else (state.1, shiftedWord hi lo state.2 bit) := rfl

/-- Quotient and remainder of the division once it has taken the bits from `bit` up. -/
def divisionAt (hi lo divisor : UInt64) (bit : ℕ) : UInt64 × UInt64 :=
  (List.range' bit (128 - bit)).reverse.foldl (divideStep hi lo divisor) (0, 0)

theorem divisionAt_top (hi lo divisor : UInt64) : divisionAt hi lo divisor 128 = (0, 0) := rfl

theorem divisionAt_succ (hi lo divisor : UInt64) {bit : ℕ} (h : bit < 128) :
    divisionAt hi lo divisor bit =
      divideStep hi lo divisor (divisionAt hi lo divisor (bit + 1)) bit := by
  rw [divisionAt, show 128 - bit = (128 - (bit + 1)) + 1 by omega, List.range'_succ,
    List.reverse_cons, List.foldl_append]
  rfl

theorem divide128By64_eq (hi lo divisor : UInt64) :
    divide128By64 hi lo divisor = (divisionAt hi lo divisor 0).1 := by
  rw [divide128By64, divisionAt, List.range_eq_range']

theorem toNat_and_one (x : UInt64) : (x &&& 1).toNat = x.toNat % 2 := by
  rw [UInt64.toNat_and, UInt64.toNat_one, Nat.and_one_is_mod]

theorem toNat_shiftRight_of_lt (x : UInt64) {n : ℕ} (h : n < 64) :
    (x >>> n.toUInt64).toNat = x.toNat / 2 ^ n := by
  rw [UInt64.toNat_shiftRight, Nat.shiftRight_eq_div_pow, Nat.toUInt64_eq, UInt64.toNat_ofNat']
  congr 2
  omega

/-- The bit read is the dividend's. -/
theorem toNat_nextBit (hi lo : UInt64) {bit : ℕ} (h : bit < 128) :
    (nextBit hi lo bit).toNat = LongDivision.bitAt (wide hi lo) bit := by
  rw [nextBit, LongDivision.bitAt, wide]
  have hlo := lo.toNat_lt
  split
  · rename_i hhigh
    have hbit : bit = 64 + (bit - 64) := by omega
    rw [toNat_and_one, toNat_shiftRight_of_lt _ (by omega)]
    nth_rewrite 2 [hbit]
    rw [Nat.pow_add, ← Nat.div_div_eq_div_mul]
    congr 2
    omega
  · rename_i hlow
    have hpow : hi.toNat * 2 ^ 64 = 2 ^ bit * (2 * (hi.toNat * 2 ^ (63 - bit))) := by
      have hbit : 64 = bit + (63 - bit) + 1 := by omega
      rw [hbit, Nat.pow_succ, Nat.pow_add]
      ring
    rw [toNat_and_one, toNat_shiftRight_of_lt _ (by omega), hpow,
      Nat.mul_add_div (Nat.two_pow_pos bit)]
    omega

theorem toNat_shiftedWord (hi lo remainder : UInt64) {bit : ℕ} (h : bit < 128) :
    (shiftedWord hi lo remainder bit).toNat =
      LongDivision.shiftIn (wide hi lo) remainder.toNat bit % 2 ^ 64 := by
  have hnext := toNat_nextBit hi lo h
  have hbit := LongDivision.bitAt_lt_two (wide hi lo) bit
  have hshift : (remainder <<< 1).toNat = 2 ^ 1 * (remainder.toNat % 2 ^ 63) := by
    rw [UInt64.toNat_shiftLeft, Nat.shiftLeft_eq]
    change remainder.toNat * 2 ^ 1 % 2 ^ 64 = _
    omega
  rw [shiftedWord, LongDivision.shiftIn, UInt64.toNat_or, hshift, hnext,
    ← Nat.two_pow_add_eq_or_of_lt (by omega)]
  omega

/-- The bit that left the word tells what the word alone cannot. -/
theorem setsBit_iff (hi lo divisor remainder : UInt64) {bit : ℕ} (h : bit < 128) :
    SetsBit hi lo divisor remainder bit ↔
      divisor.toNat ≤ LongDivision.shiftIn (wide hi lo) remainder.toNat bit := by
  have hword := toNat_shiftedWord hi lo remainder h
  have hbit := LongDivision.bitAt_lt_two (wide hi lo) bit
  have hcarry : remainder >>> 63 ≠ 0 ↔ 2 ^ 63 ≤ remainder.toNat := by
    rw [Ne, ← UInt64.toNat_inj, UInt64.toNat_shiftRight, Nat.shiftRight_eq_div_pow]
    change ¬ remainder.toNat / 2 ^ 63 = 0 ↔ _
    omega
  have := divisor.toNat_lt
  have := remainder.toNat_lt
  rw [SetsBit, hcarry, ge_iff_le, UInt64.le_iff_toNat_le, hword, LongDivision.shiftIn]
  omega

/-- The words of a division that has taken the bits from `bit` up. The remainder is one word for any
    dividend; the quotient is when the dividend's high word is below the divisor. -/
structure DividedWords (hi lo divisor : UInt64) (bit : ℕ) (state : UInt64 × UInt64) : Prop where
  remainder : state.2.toNat = wide hi lo / 2 ^ bit % divisor.toNat
  quotient : hi < divisor → state.1.toNat = wide hi lo / 2 ^ bit / divisor.toNat * 2 ^ bit

section

variable {hi lo divisor : UInt64} {bit : ℕ} {state : UInt64 × UInt64}

theorem wide_lt_of_high (h : hi < divisor) : wide hi lo < divisor.toNat * 2 ^ 64 := by
  rw [UInt64.lt_iff_toNat_lt] at h
  have := lo.toNat_lt
  rw [wide]
  omega

/-- The numbers of a division whose remainder these words hold. -/
theorem DividedWords.numbers (h : DividedWords hi lo divisor (bit + 1) state) :
    LongDivision.Divided (wide hi lo) divisor.toNat (bit + 1)
      (wide hi lo / 2 ^ (bit + 1) / divisor.toNat * 2 ^ (bit + 1), state.2.toNat) :=
  ⟨rfl, h.remainder⟩

/-- A bit that has no place in the quotient's word is not set in it. -/
theorem DividedWords.not_setsBit (h : DividedWords hi lo divisor (bit + 1) state)
    (hhigh : hi < divisor) (hover : bit ≥ 64) (hbit : bit < 128) :
    ¬ SetsBit hi lo divisor state.2 bit := by
  have hwide : wide hi lo < divisor.toNat * 2 ^ bit :=
    (wide_lt_of_high hhigh).trans_le
      (Nat.mul_le_mul_left _ (Nat.pow_le_pow_right Nat.two_pos hover))
  rw [setsBit_iff hi lo divisor state.2 hbit]
  exact Nat.not_le.mpr (h.numbers.shiftIn_lt_of_high hwide)

/-- STEP: a word step is a step on the numbers, also where the shifted remainder leaves its word. -/
theorem DividedWords.step (h : DividedWords hi lo divisor (bit + 1) state) (hbit : bit < 128)
    (hd : divisor ≠ 0) : DividedWords hi lo divisor bit (divideStep hi lo divisor state bit) := by
  have hpos : 0 < divisor.toNat := by
    rw [Nat.pos_iff_ne_zero, Ne, ← UInt64.toNat_zero, UInt64.toNat_inj]
    exact hd
  have hnext := h.numbers.step hpos
  have hlt := h.numbers.shiftIn_lt hpos
  have hsets := setsBit_iff hi lo divisor state.2 hbit
  have hword := toNat_shiftedWord hi lo state.2 hbit
  have hdivisor := divisor.toNat_lt
  rw [LongDivision.step] at hnext
  rw [divideStep_eq]
  dsimp only at hnext hlt
  by_cases hset : SetsBit hi lo divisor state.2 bit
  · have hle := hsets.mp hset
    rw [if_pos hset]
    rw [if_pos hle] at hnext
    refine ⟨?_, fun hhigh => ?_⟩
    · rw [← hnext.remainder]
      dsimp only
      rw [UInt64.toNat_sub, hword]
      omega
    · -- a bit that is set is one the quotient reaches, and it is not set yet
      have hlow : bit < 64 := by
        by_contra hover
        exact h.not_setsBit hhigh (Nat.not_lt.mp hover) hbit hset
      have hone : ((1 : UInt64) <<< bit.toUInt64).toNat = 2 ^ bit := by
        have hpow := Nat.pow_lt_pow_right (Nat.lt_add_one 1) hlow
        have hshift : bit.toUInt64.toNat % 64 = bit := by
          rw [Nat.toUInt64_eq, UInt64.toNat_ofNat']
          omega
        rw [UInt64.toNat_shiftLeft, hshift, UInt64.toNat_one, Nat.one_shiftLeft]
        exact Nat.mod_eq_of_lt hpow
      rw [← hnext.quotient]
      dsimp only
      rw [UInt64.toNat_or, hone, h.quotient hhigh, Nat.mul_comm _ (2 ^ (bit + 1)),
        ← Nat.two_pow_add_eq_or_of_lt (Nat.pow_lt_pow_right (Nat.lt_add_one 1) (Nat.lt_add_one bit))]
  · have hnot := mt hsets.mpr hset
    rw [if_neg hset]
    rw [if_neg hnot] at hnext
    refine ⟨?_, fun hhigh => ?_⟩
    · rw [← hnext.remainder]
      dsimp only
      rw [hword]
      omega
    · rw [← hnext.quotient]
      exact h.quotient hhigh

theorem dividedWords_at (hi lo : UInt64) (hd : divisor ≠ 0) : ∀ n ≤ 128,
    DividedWords hi lo divisor (128 - n) (divisionAt hi lo divisor (128 - n)) := by
  intro n
  induction n with
  | zero =>
    intro _
    have hzero : wide hi lo / 2 ^ 128 = 0 := by
      have := hi.toNat_lt
      have := lo.toNat_lt
      refine Nat.div_eq_of_lt ?_
      rw [wide]
      omega
    refine ⟨?_, fun _ => ?_⟩
    · rw [Nat.sub_zero, divisionAt_top, hzero, Nat.zero_mod]
      rfl
    · rw [Nat.sub_zero, divisionAt_top, hzero, Nat.zero_div, Nat.zero_mul]
      rfl
  | succ n ih =>
    intro hn
    have hbit : 128 - n = 128 - (n + 1) + 1 := by omega
    have hstep := ih (by omega)
    rw [hbit] at hstep
    rw [divisionAt_succ hi lo divisor (by omega)]
    exact hstep.step (by omega) hd

end

/-- The quotient of a dividend whose high word is below the divisor. -/
theorem toNat_divide128By64 {hi divisor : UInt64} (lo : UInt64) (h : hi < divisor) :
    (divide128By64 hi lo divisor).toNat = wide hi lo / divisor.toNat := by
  have hd : divisor ≠ 0 := by
    rintro rfl
    exact UInt64.not_lt_zero h
  have hwords := dividedWords_at hi lo hd 128 le_rfl
  rw [divide128By64_eq, hwords.quotient h, Nat.sub_self, Nat.pow_zero, Nat.div_one, Nat.mul_one]

/-! ### The ratio -/

/-- Below the limit the product's high word is below the limit too. -/
theorem high_lt_of_lt {value limit : UInt64} (h : value < limit) :
    (multiply128 value 1000).1 < limit := by
  have hwide := wide_multiply128 value 1000 (by decide)
  rw [wide, show (1000 : UInt64).toNat = 1000 from rfl] at hwide
  rw [UInt64.lt_iff_toNat_lt] at h ⊢
  omega

/-- The ratio per mille, over the integers. -/
theorem toNat_computePermille {value limit : UInt64} (h : limit ≠ 0) :
    (computePermille value limit).toNat = min 1000 (1000 * value.toNat / limit.toNat) := by
  have hpos : 0 < limit.toNat := by
    rw [Nat.pos_iff_ne_zero, Ne, ← UInt64.toNat_zero, UInt64.toNat_inj]
    exact h
  rw [computePermille, if_neg h]
  by_cases hge : value ≥ limit
  · have hratio : 1000 ≤ 1000 * value.toNat / limit.toNat := by
      rw [ge_iff_le, UInt64.le_iff_toNat_le] at hge
      rw [Nat.le_div_iff_mul_le hpos]
      exact Nat.mul_le_mul_left 1000 hge
    rw [if_pos hge, Nat.min_eq_left hratio]
    rfl
  · have hlt : value < limit := UInt64.not_le.mp hge
    have hdiv := toNat_divide128By64 (multiply128 value 1000).2 (high_lt_of_lt hlt)
    rw [wide_multiply128 value 1000 (by decide), show (1000 : UInt64).toNat = 1000 from rfl,
      Nat.mul_comm] at hdiv
    have hratio : 1000 * value.toNat / limit.toNat < 1000 := by
      rw [UInt64.lt_iff_toNat_lt] at hlt
      rw [Nat.div_lt_iff_lt_mul hpos]
      exact Nat.mul_lt_mul_of_pos_left hlt (by decide)
    rw [if_neg hge]
    dsimp only
    generalize divide128By64 _ _ _ = ratio at hdiv
    have hsmall : ¬ ratio > 1000 := by
      rw [gt_iff_lt, UInt64.lt_iff_toNat_lt, hdiv]
      change ¬ 1000 < _
      omega
    rw [if_neg hsmall, UInt64.toNat_toUInt32, hdiv, Nat.min_eq_right hratio.le]
    exact Nat.mod_eq_of_lt (by omega)

/-- PER MILLE: the ratio is the integers', the product loses nothing, the division keeps its
    remainder below the divisor whatever it divides, and a ratio sets no bit of the quotient that has
    no place in its word. -/
theorem permille_exact (value limit : UInt64) (h : limit ≠ 0) :
    (computePermille value limit).toNat = min 1000 (1000 * value.toNat / limit.toNat) ∧
      wide (multiply128 value 1000).1 (multiply128 value 1000).2 = value.toNat * 1000 ∧
      (∀ hi lo : UInt64, ∀ bit ≤ 128, (divisionAt hi lo limit bit).2 < limit) ∧
      (value < limit → ∀ bit ≥ 64, bit < 128 →
        ¬ SetsBit (multiply128 value 1000).1 (multiply128 value 1000).2 limit
          (divisionAt (multiply128 value 1000).1 (multiply128 value 1000).2 limit (bit + 1)).2
          bit) := by
  have hpos : 0 < limit.toNat := by
    rw [Nat.pos_iff_ne_zero, Ne, ← UInt64.toNat_zero, UInt64.toNat_inj]
    exact h
  have hwords : ∀ (hi lo : UInt64), ∀ bit ≤ 128,
      DividedWords hi lo limit bit (divisionAt hi lo limit bit) := by
    intro hi lo bit hbit
    have hat := dividedWords_at hi lo h (128 - bit) (by omega)
    rwa [show 128 - (128 - bit) = bit by omega] at hat
  refine ⟨toNat_computePermille h, wide_multiply128 value 1000 (by decide), ?_, ?_⟩
  · intro hi lo bit hbit
    rw [UInt64.lt_iff_toNat_lt, (hwords hi lo bit hbit).remainder]
    exact Nat.mod_lt _ hpos
  · intro hlt bit hhigh hbit
    exact (hwords _ _ (bit + 1) (by omega)).not_setsBit (high_lt_of_lt hlt) hhigh hbit

/-- A ratio over a limit above half the word's range. -/
theorem permille_exact_large : (computePermille 0xC000000000000000 0xFFFFFFFFFFFFFFFF).toNat =
      min 1000 (1000 * 0xC000000000000000 / 0xFFFFFFFFFFFFFFFF) ∧
    (divisionAt 1 0 0xFFFFFFFFFFFFFFFF 0).2 < 0xFFFFFFFFFFFFFFFF :=
  have h := permille_exact 0xC000000000000000 0xFFFFFFFFFFFFFFFF (by decide)
  ⟨h.1, h.2.2.1 1 0 0 (by decide)⟩

end Mbg
