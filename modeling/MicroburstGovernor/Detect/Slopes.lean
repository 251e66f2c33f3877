import MicroburstGovernor.Detect.Retained
import MicroburstGovernor.Lib.FixedPoint
import MicroburstGovernor.Lib.Odometer

/-! Slopes: the word arithmetic of a slope against the ratio it stands for. -/

namespace Mbg

/-! ### One slope -/

/-- Units of a Q16.16 rate in one whole. -/
def rateScale : ℤ := 2 ^ 16

/-- The ratio of a depth difference and a span of ticks as a saturated Q16.16 rate. -/
def exactSlope (difference : ℤ) (span : ℕ) : ℤ :=
  FixedPoint.saturate (2 ^ 63) (FixedPoint.ratio rateScale difference span)

/-- A number that a signed word holds. -/
def FitsWord (x : ℤ) : Prop := -2 ^ 63 ≤ x ∧ x < 2 ^ 63

instance (x : ℤ) : Decidable (FitsWord x) := inferInstanceAs (Decidable (_ ∧ _))

/-- The whole part of a slope that leaves room for its fraction bits. -/
def WithinShift (difference : ℤ) (span : ℕ) : Prop :=
  -(2 ^ 47 - 1) ≤ difference.tdiv span ∧ difference.tdiv span ≤ 2 ^ 47 - 1

instance (difference : ℤ) (span : ℕ) : Decidable (WithinShift difference span) :=
  inferInstanceAs (Decidable (_ ∧ _))

theorem bmod_of_fitsWord {x : ℤ} (h : FitsWord x) : x.bmod (2 ^ 64) = x := by
  rw [FitsWord] at h
  rw [Int.bmod_def]
  omega

theorem fitsWord_bmod (x : ℤ) : FitsWord (x.bmod (2 ^ 64)) := by
  rw [FitsWord, Int.bmod_def]
  omega

theorem toInt_shiftLeft (x : Int64) :
    (x <<< rateFractionBits).toInt = (x.toInt * rateScale).bmod (2 ^ 64) := by
  have hmul : x <<< rateFractionBits = x * 65536 := by
    apply Int64.toBitVec_inj.mp
    rw [Int64.toBitVec_shiftLeft, Int64.toBitVec_mul]
    exact BitVec.shiftLeft_eq_mul_twoPow x.toBitVec 16
  rw [hmul, Int64.toInt_mul]
  rfl

theorem toInt_toInt64_of_lt {x : UInt64} (h : x.toNat < 2 ^ 63) : x.toInt64.toInt = x.toNat := by
  have hx : x.toInt64.toInt = (x.toNat : ℤ).bmod (2 ^ 64) := by
    exact BitVec.toInt_eq_toNat_bmod x.toBitVec
  rw [hx, bmod_of_fitsWord ⟨by omega, by omega⟩]

/-- The word of a slope: the guards, then the shifted parts, the remainder's as it wraps. -/
theorem toInt_computeSlopeQ16 {numerator : Int64} {denominator : UInt64}
    (hn : -2 ^ 62 ≤ numerator.toInt ∧ numerator.toInt ≤ 2 ^ 62)
    (hd : 0 < denominator.toNat) (hspan : denominator.toNat < 2 ^ 63) :
    (computeSlopeQ16 numerator denominator).toInt =
      if numerator.toInt.tdiv denominator.toNat > 2 ^ 47 - 1 then 2 ^ 63 - 1
      else if numerator.toInt.tdiv denominator.toNat < -(2 ^ 47 - 1) then -2 ^ 63
      else (numerator.toInt.tdiv denominator.toNat * rateScale +
        ((numerator.toInt.tmod denominator.toNat * rateScale).bmod (2 ^ 64)).tdiv
          denominator.toNat).bmod (2 ^ 64) := by
  have hne : denominator ≠ 0 := by
    rintro rfl
    exact absurd hd (by decide)
  have hcast := toInt_toInt64_of_lt hspan
  have hlimit : (Int64.maxValue >>> rateFractionBits).toInt = 2 ^ 47 - 1 := by decide
  have hlimit' : (-(Int64.maxValue >>> rateFractionBits)).toInt = -(2 ^ 47 - 1) := by decide
  have hpos : (0 : ℤ) < denominator.toNat := by omega
  have hquotient : (numerator / denominator.toInt64).toInt =
      numerator.toInt.tdiv denominator.toNat := by
    rw [Int64.toInt_div, hcast]
    have hbounds := FixedPoint.tdiv_bounds numerator.toInt (2 ^ 62) hpos (by decide)
      (by nlinarith) (by nlinarith)
    exact bmod_of_fitsWord ⟨by omega, by omega⟩
  have hremainder : (numerator % denominator.toInt64).toInt =
      numerator.toInt.tmod denominator.toNat := by
    rw [Int64.toInt_mod, hcast]
  rw [computeSlopeQ16, if_neg hne]
  dsimp only
  simp only [gt_iff_lt, Int64.lt_iff_toInt_lt, hlimit, hlimit', hquotient]
  split_ifs
  · decide
  · decide
  · rw [Int64.toInt_add, toInt_shiftLeft, hquotient, Int64.toInt_div _ denominator.toInt64,
      toInt_shiftLeft, hremainder, hcast, Int.bmod_add_bmod, Int.add_bmod_bmod]

/-- A word and what it wraps from are equal when they are less than one turn apart. -/
theorem fitsWord_of_near {x : ℤ} (hlow : -2 ^ 64 < x.bmod (2 ^ 64) - x)
    (hhigh : x.bmod (2 ^ 64) - x < 2 ^ 64) : FitsWord x := by
  rw [Int.bmod_def] at hlow hhigh
  rw [FitsWord]
  split at hlow <;> rename_i hhalf
  · rw [if_pos hhalf] at hhigh
    omega
  · rw [if_neg hhalf] at hhigh
    omega

/-- SLOPE: the word is the exact rate, saturated, exactly when the scaled remainder fits a word or is
    not needed. -/
theorem computeSlopeQ16_exact_iff {numerator : Int64} {denominator : UInt64}
    (hn : -2 ^ 62 ≤ numerator.toInt ∧ numerator.toInt ≤ 2 ^ 62)
    (hd : 0 < denominator.toNat) (hspan : denominator.toNat < 2 ^ 63) :
    (computeSlopeQ16 numerator denominator).toInt =
        exactSlope numerator.toInt denominator.toNat ↔
      (WithinShift numerator.toInt denominator.toNat →
        FitsWord (numerator.toInt.tmod denominator.toNat * rateScale)) := by
  have hpos : (0 : ℤ) < denominator.toNat := by omega
  have hbelow : (denominator.toNat : ℤ) < 2 ^ 63 := by omega
  have hscale : 0 < rateScale := by decide
  have hsaturate := FixedPoint.saturate_ratio numerator.toInt
    (show (0 : ℤ) ≤ 2 ^ 47 - 1 by decide) hscale hpos
  have hmem := FixedPoint.saturate_mem
    (FixedPoint.ratio rateScale numerator.toInt denominator.toNat) (show (0 : ℤ) < 2 ^ 63 by decide)
  rw [show ((2 : ℤ) ^ 47 - 1 + 1) * rateScale = 2 ^ 63 by decide] at hsaturate
  rw [toInt_computeSlopeQ16 hn hd hspan, exactSlope, WithinShift]
  generalize numerator.toInt = n at *
  generalize (denominator.toNat : ℤ) = d at *
  rw [hsaturate] at hmem ⊢
  split_ifs at hmem ⊢ with hover hunder
  · exact iff_of_true rfl fun h => (Int.not_lt.mpr h.2 hover).elim
  · exact iff_of_true rfl fun h => (Int.not_lt.mpr h.1 hunder).elim
  · have hwithin : -(2 ^ 47 - 1) ≤ n.tdiv d ∧ n.tdiv d ≤ 2 ^ 47 - 1 :=
      ⟨Int.not_lt.mp hunder, Int.not_lt.mp hover⟩
    constructor
    · intro heq _
      by_contra hnot
      -- a remainder that does not fit comes from a span of more than 2^47 ticks
      have hlow := Int.lt_tmod_of_pos n hpos
      have hhigh := Int.tmod_lt_of_pos n hpos
      have hlong : 2 ^ 47 < d := by
        rw [FitsWord, rateScale] at hnot
        omega
      have hword := fitsWord_bmod (n.tmod d * rateScale)
      rw [FitsWord] at hword
      have hwhole := FixedPoint.tdiv_bounds n (2 ^ 15) hpos (by decide) (by omega) (by omega)
      have hrest := FixedPoint.tdiv_bounds ((n.tmod d * rateScale).bmod (2 ^ 64)) (2 ^ 16) hpos
        (by decide) (by omega) (by omega)
      have hsum : FitsWord (n.tdiv d * rateScale +
          ((n.tmod d * rateScale).bmod (2 ^ 64)).tdiv d) := by
        have hscaled : n.tdiv d * rateScale = n.tdiv d * 65536 := rfl
        rw [FitsWord, hscaled]
        omega
      rw [bmod_of_fitsWord hsum] at heq
      have hnear := FixedPoint.sub_lt_of_tdiv_eq hpos (Int.add_left_cancel heq)
      exact hnot (fitsWord_of_near (by omega) (by omega))
    · intro hfits
      rw [bmod_of_fitsWord (hfits hwithin)]
      exact bmod_of_fitsWord hmem

/-! ### The slopes of a window -/

/-- How far the depth went from one sample to another. -/
def depthChange (first last : Sample) : ℤ := last.depth.toNat - first.depth.toNat

/-- What the slope between two samples has to be: the exact rate over the span, saturated, with no
    cast, shift or sum on the way that leaves its word. -/
structure SlopeLaw (first last : Sample) (span : ℕ) (slope : RateQ16) : Prop where
  cast : span < 2 ^ 63
  difference : (last.depth.toInt64 - first.depth.toInt64).toInt = depthChange first last
  shifts : span ≠ 0 → WithinShift (depthChange first last) span →
    FitsWord ((depthChange first last).tdiv span * rateScale) ∧
      FitsWord ((depthChange first last).tmod span * rateScale) ∧
      FitsWord ((depthChange first last).tdiv span * rateScale +
        FixedPoint.fraction rateScale (depthChange first last) span)
  exact : slope.toInt = exactSlope (depthChange first last) span

/-- The span fits a signed word, and the remainder of an unsaturated slope leaves room for its
    fraction bits. -/
def SlopeFits (first last : Sample) (span : ℕ) : Prop :=
  span < 2 ^ 63 ∧ (span ≠ 0 → WithinShift (depthChange first last) span →
    -2 ^ 47 ≤ (depthChange first last).tmod span ∧ (depthChange first last).tmod span < 2 ^ 47)

instance (first last : Sample) (span : ℕ) : Decidable (SlopeFits first last span) :=
  inferInstanceAs (Decidable (_ ∧ (_ → _ → _)))

theorem fitsWord_scaled_iff {x : ℤ} : FitsWord (x * rateScale) ↔ -2 ^ 47 ≤ x ∧ x < 2 ^ 47 := by
  have hscaled : x * rateScale = x * 65536 := rfl
  rw [FitsWord, hscaled]
  omega

theorem depth_le_of_validateSample {s : Sample} (h : validateSample s = .ok ()) :
    s.depth.toNat ≤ 2 ^ 62 := by
  have hbound : ¬ s.depth > (1 : UInt64) <<< 62 := by
    intro hover
    simp only [validateSample, hover, true_or, if_true] at h
    split_ifs at h <;> simp [Status.failure] at h
  exact UInt64.le_iff_toNat_le.mp (UInt64.not_lt.mp hbound)

/-- Within the shift the parts of a slope and their sum fit a word, the remainder's aside. -/
theorem fitsWord_parts {difference : ℤ} {span : ℕ} (hspan : span ≠ 0)
    (h : WithinShift difference span) : FitsWord (difference.tdiv span * rateScale) ∧
      FitsWord (difference.tdiv span * rateScale +
        FixedPoint.fraction rateScale difference span) := by
  have hsaturate := FixedPoint.saturate_ratio difference (show (0 : ℤ) ≤ 2 ^ 47 - 1 by decide)
    (show 0 < rateScale by decide) (show (0 : ℤ) < span by omega)
  have hmem := FixedPoint.saturate_mem (FixedPoint.ratio rateScale difference span)
    (show (0 : ℤ) < (2 ^ 47 - 1 + 1) * rateScale by decide)
  rw [hsaturate, if_neg (Int.not_lt.mpr h.2), if_neg (Int.not_lt.mpr h.1)] at hmem
  refine ⟨?_, hmem⟩
  have hscaled : difference.tdiv span * rateScale = difference.tdiv span * 65536 := rfl
  rw [WithinShift] at h
  rw [FitsWord, hscaled]
  omega

/-- STEP: the slope of one pair of samples is lawful exactly when it fits. -/
theorem slopeLaw_iff {first last : Sample} {span : ℕ} {denominator : UInt64}
    (hfirst : first.depth.toNat ≤ 2 ^ 62) (hlast : last.depth.toNat ≤ 2 ^ 62)
    (hspan : denominator.toNat = span % 2 ^ 64) :
    SlopeLaw first last span
        (computeSlopeQ16 (last.depth.toInt64 - first.depth.toInt64) denominator) ↔
      SlopeFits first last span := by
  have hdifference : (last.depth.toInt64 - first.depth.toInt64).toInt =
      depthChange first last := by
    rw [Int64.toInt_sub, toInt_toInt64_of_lt (by omega), toInt_toInt64_of_lt (by omega), depthChange]
    exact bmod_of_fitsWord ⟨by omega, by omega⟩
  have hn : -2 ^ 62 ≤ (last.depth.toInt64 - first.depth.toInt64).toInt ∧
      (last.depth.toInt64 - first.depth.toInt64).toInt ≤ 2 ^ 62 := by
    rw [hdifference, depthChange]
    omega
  by_cases hlt : span < 2 ^ 63
  · have hword : denominator.toNat = span := by omega
    by_cases hzero : span = 0
    · have hnone : denominator = 0 := UInt64.toNat_inj.mp (hword.trans hzero)
      refine iff_of_true ⟨hlt, hdifference, fun h => (h hzero).elim, ?_⟩
        ⟨hlt, fun h => (h hzero).elim⟩
      rw [computeSlopeQ16, if_pos hnone, hzero, exactSlope, FixedPoint.ratio, Nat.cast_zero,
        Int.tdiv_zero]
      decide
    · have hexact := computeSlopeQ16_exact_iff hn (show 0 < denominator.toNat by omega)
        (show denominator.toNat < 2 ^ 63 by omega)
      rw [hdifference, hword] at hexact
      constructor
      · intro h
        refine ⟨hlt, fun _ hwithin => ?_⟩
        exact fitsWord_scaled_iff.mp (hexact.mp h.exact hwithin)
      · rintro ⟨-, hfits⟩
        refine ⟨hlt, hdifference, fun _ hwithin => ?_, hexact.mpr fun hwithin => ?_⟩
        · obtain ⟨hwhole, hsum⟩ := fitsWord_parts hzero hwithin
          exact ⟨hwhole, fitsWord_scaled_iff.mpr (hfits hzero hwithin), hsum⟩
        · exact fitsWord_scaled_iff.mpr (hfits hzero hwithin)
  · exact iff_of_false (fun h => hlt h.cast) fun h => hlt h.1

namespace EvidenceWindow

/-- The ticks the retained samples span: the way the tick went from sample to sample. -/
def elapsed (w : EvidenceWindow) : ℕ := Odometer.travel (fun s => s.tick.value) w.retained

/-- The retained sample before the newest. -/
def prior (w : EvidenceWindow) : Sample := w.sampleAt (w.size - 2)

/-- The ticks from the last sample but one to the newest. -/
def lastStep (w : EvidenceWindow) : ℕ := (w.newest.tick.value - w.prior.tick.value).toNat

/-- Both slopes of the metrics are what they have to be. -/
structure SlopesLawful (w : EvidenceWindow) (policy : DetectionPolicy) : Prop where
  window : w.size ≠ 0 →
    SlopeLaw w.oldest w.newest w.elapsed (w.metrics policy).windowSlopeQ16
  recent : w.size ≥ 2 →
    SlopeLaw w.prior w.newest w.lastStep (w.metrics policy).recentSlopeQ16

/-- Both slopes have room on the way. -/
structure SlopesFit (w : EvidenceWindow) : Prop where
  window : w.size ≠ 0 → SlopeFits w.oldest w.newest w.elapsed
  recent : w.size ≥ 2 → SlopeFits w.prior w.newest w.lastStep

theorem mem_retained_sampleAt {w : EvidenceWindow} {i : ℕ} (h : i < w.size) :
    w.sampleAt i ∈ w.retained := List.mem_map_of_mem (List.mem_range.mpr h)

theorem toNat_spanTicks {w : EvidenceWindow} (h : w.size ≠ 0) :
    (tickDelta w.oldest.tick w.newest.tick).toUInt64.toNat = w.elapsed % 2 ^ 64 := by
  obtain ⟨rest, hretained, hlast⟩ := retained_cons h
  have hends := Odometer.toNat_ends (fun s : Sample => s.tick.value) w.oldest rest
  rw [hlast, ← hretained] at hends
  rw [tickDelta, UInt64.toUInt64_toInt64, hends, elapsed]

/-- SLOPES: over valid samples the slopes of a window are the exact rates, with nothing lost on the
    way, exactly when the spans fit and the remainders leave room for the fraction bits. -/
theorem slopes_run (capacity : ℕ) (offers : List (Sample × UInt64)) (policy : DetectionPolicy)
    (h : ∀ o ∈ offers, validateSample o.1 = .ok ()) :
    (after capacity offers).SlopesLawful policy ↔ (after capacity offers).SlopesFit := by
  have hvalid := retained_of_offers capacity (fun s => validateSample s = .ok ()) h
  generalize after capacity offers = w at *
  have hdepth : ∀ i < w.size, (w.sampleAt i).depth.toNat ≤ 2 ^ 62 := fun i hi =>
    depth_le_of_validateSample (hvalid _ (mem_retained_sampleAt hi))
  have hwindow : w.size ≠ 0 →
      (SlopeLaw w.oldest w.newest w.elapsed (w.metrics policy).windowSlopeQ16 ↔
        SlopeFits w.oldest w.newest w.elapsed) := by
    intro hsize
    rw [metrics, if_neg hsize]
    exact slopeLaw_iff (hdepth 0 (by omega)) (hdepth _ (by omega)) (toNat_spanTicks hsize)
  have hrecent : w.size ≥ 2 →
      (SlopeLaw w.prior w.newest w.lastStep (w.metrics policy).recentSlopeQ16 ↔
        SlopeFits w.prior w.newest w.lastStep) := by
    intro hsize
    have hspan : (tickDelta w.prior.tick w.newest.tick).toUInt64.toNat =
        w.lastStep % 2 ^ 64 := by
      rw [tickDelta, UInt64.toUInt64_toInt64, lastStep, Nat.mod_eq_of_lt (UInt64.toNat_lt _)]
    rw [metrics, if_neg (by omega)]
    dsimp only
    rw [if_pos hsize]
    exact slopeLaw_iff (hdepth _ (by omega)) (hdepth _ (by omega)) hspan
  constructor
  · intro hlaw
    exact ⟨fun hsize => (hwindow hsize).mp (hlaw.window hsize),
      fun hsize => (hrecent hsize).mp (hlaw.recent hsize)⟩
  · intro hfit
    exact ⟨fun hsize => (hwindow hsize).mpr (hfit.window hsize),
      fun hsize => (hrecent hsize).mpr (hfit.recent hsize)⟩

/-- A sample of one stream. -/
def depthSample (tick depth : UInt64) : Sample :=
  { stream := ⟨⟨1⟩, ⟨1⟩, ⟨1⟩⟩, tick := ⟨tick⟩, depth }

/-- Two samples a tick apart. -/
theorem slopes_run_two :
    (after 4 [(depthSample 1 5, 0), (depthSample 2 9, 0)]).SlopesLawful {} ↔
      (after 4 [(depthSample 1 5, 0), (depthSample 2 9, 0)]).SlopesFit :=
  slopes_run 4 _ {} (by decide)

/-- Each offered tick is after the newest retained one. -/
def Advancing (w : EvidenceWindow) (o : Sample × UInt64) : Prop :=
  w.size = 0 ∨ tickAfter w.newest.tick o.1.tick

instance (w : EvidenceWindow) (o : Sample × UInt64) : Decidable (w.Advancing o) :=
  inferInstanceAs (Decidable (_ ∨ _))

/-- A depth of 2^62 that builds up over one tick more than that: a slope of nearly one reads zero. -/
theorem slopes_violated : ¬ ∀ capacity offers policy,
    (∀ o ∈ offers, validateSample o.1 = .ok ()) →
    Runs.Meets step Advancing (reset capacity) offers →
      (after capacity offers).SlopesLawful policy := by
  intro h
  have hexact := ((h 4 [(depthSample 0 0, 0),
    (depthSample 0x4000000000000001 0x4000000000000000, 0)] {}
    (by decide +kernel) (by decide +kernel)).window (by decide +kernel)).exact
  revert hexact
  decide +kernel

end EvidenceWindow

end Mbg
