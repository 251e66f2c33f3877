import MicroburstGovernor.Detect.Classifier
import MicroburstGovernor.Detect.Permille

/-! The classifier is monotone: an episode that measures more in any dimension is graded no lower in
    any, and no lower overall.

    A ladder grades by the last step a value reaches. Nothing is asked of its steps: they may be
    disabled, and they need not rise. -/

namespace Mbg

/-! ### Ladders -/

namespace GradeLadder

/-- One step of a ladder, by its threshold and its position. -/
def gradeStep (value : UInt64) (result : SeverityClass) (step : UInt64 × ℕ) : SeverityClass :=
  if step.1 = disabledStep then result
  else if value ≥ step.1 then ⟨step.2.toUInt8 + 1⟩
  else result

/-- The steps reached by a value are reached by a greater one, and a later step grades higher. -/
theorem foldl_gradeStep_mono {value value' : UInt64} (h : value ≤ value')
    (thresholds : List UInt64) : ∀ (n : ℕ) (r r' : SeverityClass), r.raw ≤ r'.raw →
      r'.raw.toNat ≤ n → n + thresholds.length < 256 →
      ((thresholds.zipIdx n).foldl (gradeStep value) r).raw ≤
        ((thresholds.zipIdx n).foldl (gradeStep value') r').raw := by
  induction thresholds with
  | nil =>
    intro n r r' hr _ _
    exact hr
  | cons threshold thresholds ih =>
    intro n r r' hr hn hlen
    rw [List.length_cons] at hlen
    rw [List.zipIdx_cons, List.foldl_cons, List.foldl_cons]
    have hnext : ((n.toUInt8 + 1 : UInt8)).toNat = n + 1 := by
      rw [UInt8.toNat_add, Nat.toUInt8_eq, UInt8.toNat_ofNat']
      simp only [UInt8.toNat_one]
      omega
    have hle : ∀ s : SeverityClass, s.raw.toNat ≤ n → s.raw ≤ (⟨n.toUInt8 + 1⟩ : SeverityClass).raw := by
      intro s hs
      rw [UInt8.le_iff_toNat_le, hnext]
      omega
    have hrn : r.raw.toNat ≤ n := le_trans (UInt8.le_iff_toNat_le.mp hr) hn
    refine ih (n + 1) _ _ ?_ ?_ (by omega)
    · simp only [gradeStep]
      split_ifs with hdisabled hreached hreached' hreached'
      · exact hr
      · exact UInt8.le_refl _
      · exact absurd (UInt64.le_trans hreached h) hreached'
      · exact hle r hrn
      · exact hr
    · simp only [gradeStep]
      split_ifs
      · omega
      · exact le_of_eq hnext
      · omega

theorem grade_mono (l : GradeLadder) {value value' : UInt64} (h : value ≤ value') :
    (l.grade value).raw ≤ (l.grade value').raw :=
  foldl_gradeStep_mono h l.thresholds 0 SeverityClass.none SeverityClass.none (UInt8.le_refl _)
    (Nat.le_refl _) (show 0 + 4 < 256 by decide)

/-- A positive rate is the same number as a word. -/
theorem toNat_toUInt64_of_pos {rate : RateQ16} (h : 0 < rate) :
    (rate.toUInt64.toNat : ℤ) = rate.toInt := by
  have hint : rate.toInt = (rate.toUInt64.toNat : ℤ).bmod (2 ^ 64) :=
    BitVec.toInt_eq_toNat_bmod rate.toBitVec
  have hlt := rate.toUInt64.toNat_lt
  rw [Int64.lt_iff_toInt_lt, Int64.toInt_zero] at h
  rw [Int.bmod_def] at hint
  split_ifs at hint <;> omega

theorem gradeRate_mono (l : GradeLadder) {rate rate' : RateQ16} (h : rate ≤ rate') :
    (l.gradeRate rate).raw ≤ (l.gradeRate rate').raw := by
  rw [gradeRate, gradeRate]
  split_ifs with hneg hneg' hneg'
  · exact UInt8.le_refl _
  · exact UInt8.zero_le
  · exact absurd (Int64.le_trans h hneg') hneg
  · have hpos := toNat_toUInt64_of_pos (Int64.not_le.mp hneg)
    have hpos' := toNat_toUInt64_of_pos (Int64.not_le.mp hneg')
    rw [Int64.le_iff_toInt_le] at h
    refine l.grade_mono ?_
    rw [UInt64.le_iff_toNat_le]
    omega

end GradeLadder

/-! ### The classifier -/

theorem severityMax_mono {a a' b b' : SeverityClass} (ha : a.raw ≤ a'.raw) (hb : b.raw ≤ b'.raw) :
    (severityMax a b).raw ≤ (severityMax a' b').raw := by
  rw [UInt8.le_iff_toNat_le] at *
  rw [severityMax, severityMax]
  split_ifs with h h' h' <;> simp only [ge_iff_le, UInt8.le_iff_toNat_le] at h h' ⊢ <;> omega

theorem severityMin_mono {a a' : SeverityClass} (ha : a.raw ≤ a'.raw) (cap : SeverityClass) :
    (severityMin a cap).raw ≤ (severityMin a' cap).raw := by
  rw [UInt8.le_iff_toNat_le] at *
  rw [severityMin, severityMin]
  split_ifs with h h' h' <;> simp only [UInt8.le_iff_toNat_le] at h h' ⊢ <;> omega

/-- The ratio per mille rises with the value. -/
theorem computePermille_mono {value value' : UInt64} (h : value ≤ value') (limit : UInt64) :
    (computePermille value limit).toUInt64 ≤ (computePermille value' limit).toUInt64 := by
  by_cases hlimit : limit = 0
  · rw [computePermille, computePermille, if_pos hlimit, if_pos hlimit]
    split_ifs with hzero hzero' hzero'
    · exact UInt64.le_refl _
    · exact UInt64.zero_le
    · rw [hzero', UInt64.le_iff_toNat_le, UInt64.toNat_zero, Nat.le_zero, ← UInt64.toNat_zero,
        UInt64.toNat_inj] at h
      exact absurd h hzero
    · exact UInt64.le_refl _
  · rw [UInt64.le_iff_toNat_le] at h ⊢
    rw [UInt32.toNat_toUInt64, UInt32.toNat_toUInt64, toNat_computePermille hlimit,
      toNat_computePermille hlimit]
    have hratio := Nat.div_le_div_right (c := limit.toNat) (Nat.mul_le_mul_left 1000 h)
    omega

/-- An episode measures at most another in every dimension the classifier grades, at one capacity. -/
structure BurstMetrics.Within (m m' : BurstMetrics) : Prop where
  occupancy : m.peakOccupancyBytes ≤ m'.peakOccupancyBytes
  capacity : m.capacityBytes = m'.capacityBytes
  depth : m.peakDepth ≤ m'.peakDepth
  slope : m.peakSlopeQ16 ≤ m'.peakSlopeQ16
  duration : m.durationTicks ≤ m'.durationTicks
  drops : m.dropDelta ≤ m'.dropDelta

/-- No grade lies below that of another breakdown. -/
structure GradeBreakdown.Within (g g' : GradeBreakdown) : Prop where
  occupancy : g.occupancy.raw ≤ g'.occupancy.raw
  depth : g.depth.raw ≤ g'.depth.raw
  slope : g.slope.raw ≤ g'.slope.raw
  duration : g.duration.raw ≤ g'.duration.raw
  drops : g.drops.raw ≤ g'.drops.raw
  overall : g.overall.raw ≤ g'.overall.raw

/-- The overall grade of the dimensions: their maximum, minor at least, moderate at most when the
    capacity is not known. -/
def overallGrade (grades : List SeverityClass) (known : Bool) : SeverityClass :=
  let graded := grades.foldl severityMax SeverityClass.none
  let raised := if graded = SeverityClass.none then SeverityClass.minor else graded
  if known then raised else severityMin raised SeverityClass.moderate

theorem foldl_severityMax_mono {grades grades' : List SeverityClass}
    (h : List.Forall₂ (fun a b => a.raw ≤ b.raw) grades grades') :
    ∀ (r r' : SeverityClass), r.raw ≤ r'.raw →
      (grades.foldl severityMax r).raw ≤ (grades'.foldl severityMax r').raw := by
  induction h with
  | nil => exact fun r r' hr => hr
  | cons ha _ ih =>
    intro r r' hr
    exact ih _ _ (severityMax_mono hr ha)

theorem overallGrade_mono {grades grades' : List SeverityClass}
    (h : List.Forall₂ (fun a b => a.raw ≤ b.raw) grades grades') (known : Bool) :
    (overallGrade grades known).raw ≤ (overallGrade grades' known).raw := by
  have hgraded := foldl_severityMax_mono h SeverityClass.none SeverityClass.none (UInt8.le_refl _)
  rw [overallGrade, overallGrade]
  generalize grades.foldl severityMax SeverityClass.none = graded at *
  generalize grades'.foldl severityMax SeverityClass.none = graded' at *
  have hraised : (if graded = SeverityClass.none then SeverityClass.minor else graded).raw ≤
      (if graded' = SeverityClass.none then SeverityClass.minor else graded').raw := by
    rw [UInt8.le_iff_toNat_le] at hgraded ⊢
    have hzero : ∀ s : SeverityClass, s ≠ SeverityClass.none → 1 ≤ s.raw.toNat := by
      intro s hs
      by_contra hlt
      apply hs
      rw [SeverityClass.ext_iff, ← UInt8.toNat_inj]
      change s.raw.toNat = 0
      omega
    split_ifs with hn hn' hn'
    · exact Nat.le_refl _
    · exact hzero graded' hn'
    · rw [hn'] at hgraded
      have hpos := hzero graded hn
      change graded.raw.toNat ≤ 0 at hgraded
      omega
    · exact hgraded
  cases known with
  | true => exact hraised
  | false => exact severityMin_mono hraised SeverityClass.moderate

/-- CLASSIFY IS MONOTONE: at one capacity and under evidence that agrees on knowing it, measuring more
    in any dimension lowers no grade, whatever the ladders of the policy are. -/
theorem classify_mono {m m' : BurstMetrics} (h : m.Within m') {evidence evidence' : EvidenceSummary}
    (hknown : evidence.capacityKnown = evidence'.capacityKnown) (policy : DetectionPolicy)
    (tick tick' : Tick) (x x' : Explanation) :
    (classify m evidence policy tick x).1.Within (classify m' evidence' policy tick' x').1 := by
  have hoccupancy : (policy.occupancyPermilleLadder.grade
      (computePermille m.peakOccupancyBytes m.capacityBytes).toUInt64).raw ≤
        (policy.occupancyPermilleLadder.grade
          (computePermille m'.peakOccupancyBytes m'.capacityBytes).toUInt64).raw := by
    rw [← h.capacity]
    exact policy.occupancyPermilleLadder.grade_mono
      (computePermille_mono h.occupancy m.capacityBytes)
  have hdepth := policy.depthLadder.grade_mono h.depth
  have hslope := policy.slopeLadder.gradeRate_mono h.slope
  have hduration := policy.durationLadder.grade_mono h.duration
  have hdrops := policy.dropLadder.grade_mono h.drops
  have hoverall := overallGrade_mono (.cons hoccupancy (.cons hdepth (.cons hslope
    (.cons hduration (.cons hdrops .nil))))) evidence.capacityKnown
  refine ⟨hoccupancy, hdepth, hslope, hduration, hdrops, ?_⟩
  simp only [classify, ← hknown]
  exact hoverall

end Mbg
