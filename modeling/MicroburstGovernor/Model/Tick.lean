import MicroburstGovernor.Core.Basic

/-! Logical ticks: a 64-bit counter that may roll over, compared by wrapping-safe distance. -/

namespace Mbg

@[ext] structure Tick where
  value : UInt64 := 0
  deriving DecidableEq, Repr, Inhabited

/-- Signed, wrapping-safe distance from the first tick to the second. -/
def tickDelta (start stop : Tick) : Int64 := (stop.value - start.value).toInt64

/-- The second tick is strictly after the first in wrapping-safe order. -/
def tickAfter (start stop : Tick) : Bool := tickDelta start stop > 0

/-- Non-negative distance between two ticks, clamped at zero for non-monotonic inputs. -/
def forwardGap (start stop : Tick) : UInt64 :=
  let delta := tickDelta start stop
  if delta ≤ 0 then 0 else delta.toUInt64

/-- Tick addition clamped at the largest tick (`add_ticks_saturating`, `add_ticks_checked`). -/
def addTicksSaturating (base : Tick) (span : UInt64) : Tick := ⟨saturatingAdd base.value span⟩

theorem toInt64_pos_iff (x : UInt64) : x.toInt64 > 0 ↔ 0 < x.toNat ∧ x.toNat < 2 ^ 63 := by
  have hx : x.toInt64.toInt = (x.toNat : ℤ).bmod (2 ^ 64) := by
    exact BitVec.toInt_eq_toNat_bmod x.toBitVec
  rw [gt_iff_lt, Int64.lt_iff_toInt_lt, hx, Int64.toInt_zero, Int.bmod_def]
  have := x.toNat_lt
  split <;> omega

/-- A tick is after another when it is less than half the counter's range ahead of it. -/
theorem tickAfter_iff {a b : Tick} :
    tickAfter a b ↔ 0 < (b.value - a.value).toNat ∧ (b.value - a.value).toNat < 2 ^ 63 := by
  simpa [tickAfter, tickDelta] using toInt64_pos_iff (b.value - a.value)

@[simp] theorem tickAfter_self (a : Tick) : tickAfter a a = false := by
  simp [tickAfter, tickDelta]

/-- Wrapping-safe order is asymmetric. -/
theorem not_tickAfter_of_tickAfter {a b : Tick} (h : tickAfter a b) : ¬ tickAfter b a := by
  rw [tickAfter_iff] at h ⊢
  rw [UInt64.toNat_sub] at *
  have := a.value.toNat_lt
  have := b.value.toNat_lt
  omega

/-- In the lower half of its range wrapping-safe order is the order of the numbers. -/
theorem tickAfter_iff_lt {a b : Tick} (ha : a.value.toNat < 2 ^ 63) (hb : b.value.toNat < 2 ^ 63) :
    tickAfter a b ↔ a.value < b.value := by
  rw [tickAfter_iff, UInt64.lt_iff_toNat_lt, UInt64.toNat_sub]
  omega

/-- In the lower half of the range the forward gap is the difference of the numbers. -/
theorem toNat_forwardGap {a b : Tick} (ha : a.value.toNat < 2 ^ 63) (hb : b.value.toNat < 2 ^ 63) :
    (forwardGap a b).toNat = b.value.toNat - a.value.toNat := by
  rw [forwardGap]
  by_cases hafter : tickAfter a b
  · have hpos : tickDelta a b > 0 := by simpa [tickAfter] using hafter
    have hlt := UInt64.lt_iff_toNat_lt.mp ((tickAfter_iff_lt ha hb).mp hafter)
    rw [if_neg (Int64.not_le.mpr hpos), tickDelta, UInt64.toUInt64_toInt64, UInt64.toNat_sub]
    omega
  · have hle : tickDelta a b ≤ 0 := by simpa [tickAfter] using hafter
    rw [tickAfter_iff_lt ha hb, UInt64.lt_iff_toNat_lt] at hafter
    rw [if_pos hle, UInt64.toNat_zero]
    omega

/-! ### The tick source of a window -/

inductive Observation where
  | first | advance | duplicate | reorder | rollover | discontinuity
  deriving DecidableEq, Repr

/-- How an offered tick was read, and its distance from the previous accepted tick. -/
structure TickStep where
  observation : Observation
  forwardTicks : UInt64 := 0
  deriving DecidableEq, Repr

structure TickSource where
  last : Tick := {}
  hasObservation : Bool := false
  accepted : UInt64 := 0
  rejected : UInt64 := 0
  rollovers : UInt64 := 0
  deriving DecidableEq, Repr, Inhabited

/-- Feeds a tick; a tick that goes backwards is a rollover, a reorder or a discontinuity. -/
def TickSource.observe (t : TickSource) (tick : Tick) (reorderToleranceTicks : UInt64) :
    TickSource × TickStep :=
  if !t.hasObservation then
    ({ t with hasObservation := true, last := tick, accepted := t.accepted + 1 }, ⟨.first, 0⟩)
  else
    let delta := tickDelta t.last tick
    if delta > 0 then
      ({ t with last := tick, accepted := t.accepted + 1 }, ⟨.advance, delta.toUInt64⟩)
    else if delta = 0 then
      ({ t with rejected := t.rejected + 1 }, ⟨.duplicate, 0⟩)
    else
      let backwards := (-(delta + 1)).toUInt64 + 1
      let distanceToWrap := ~~~0 - t.last.value + 1
      if backwards > distanceToWrap ∧ backwards - distanceToWrap ≤ reorderToleranceTicks then
        ({ t with rollovers := t.rollovers + 1, last := tick, accepted := t.accepted + 1 },
          ⟨.rollover, backwards - distanceToWrap⟩)
      else if backwards ≤ reorderToleranceTicks then
        ({ t with rejected := t.rejected + 1 }, ⟨.reorder, 0⟩)
      else
        ({ t with rejected := t.rejected + 1 }, ⟨.discontinuity, 0⟩)

end Mbg
