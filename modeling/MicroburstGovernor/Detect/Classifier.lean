import MicroburstGovernor.Detect.Window

/-! Deterministic severity classification of an episode. -/

namespace Mbg

/-- Severity contributed by each independent dimension. -/
structure GradeBreakdown where
  occupancy : SeverityClass := SeverityClass.none
  depth : SeverityClass := SeverityClass.none
  slope : SeverityClass := SeverityClass.none
  duration : SeverityClass := SeverityClass.none
  drops : SeverityClass := SeverityClass.none
  overall : SeverityClass := SeverityClass.none
  deriving DecidableEq, Repr, Inhabited

/-- Records a crossed ladder step: what was observed, and the threshold of the grade reached. -/
def Explanation.addGrade (x : Explanation) (code : ReasonCode) (grade : SeverityClass)
    (ladder : GradeLadder) (observed : Int64) (tick : Tick) : Explanation :=
  if grade = SeverityClass.none then x
  else x.add code observed (ladder.thresholds.getD (grade.raw.toNat - 1) 0).toInt64 tick

/-- Grades an episode: each dimension against its own ladder, the overall grade their maximum. -/
def classify (metrics : BurstMetrics) (evidence : EvidenceSummary) (policy : DetectionPolicy)
    (tick : Tick) (explanation : Explanation) : GradeBreakdown × Explanation :=
  let permille := computePermille metrics.peakOccupancyBytes metrics.capacityBytes
  let occupancy := policy.occupancyPermilleLadder.grade permille.toUInt64
  let explanation := explanation.addGrade ReasonCode.occupancyGradeCrossed occupancy
    policy.occupancyPermilleLadder permille.toUInt64.toInt64 tick
  let depth := policy.depthLadder.grade metrics.peakDepth
  let explanation := explanation.addGrade ReasonCode.depthGradeCrossed depth policy.depthLadder
    metrics.peakDepth.toInt64 tick
  let slope := policy.slopeLadder.gradeRate metrics.peakSlopeQ16
  let explanation := explanation.addGrade ReasonCode.slopeGradeCrossed slope policy.slopeLadder
    metrics.peakSlopeQ16 tick
  let duration := policy.durationLadder.grade metrics.durationTicks
  let explanation := explanation.addGrade ReasonCode.durationGradeCrossed duration
    policy.durationLadder metrics.durationTicks.toInt64 tick
  let drops := policy.dropLadder.grade metrics.dropDelta
  let explanation := explanation.addGrade ReasonCode.dropGradeCrossed drops policy.dropLadder
    metrics.dropDelta.toInt64 tick
  let graded := [occupancy, depth, slope, duration, drops].foldl severityMax SeverityClass.none
  -- a confirmed microburst is at least minor
  let raised := if graded = SeverityClass.none then SeverityClass.minor else graded
  -- without a known capacity the occupancy dimension is unmeasurable
  let overall :=
    if evidence.capacityKnown then raised else severityMin raised SeverityClass.moderate
  ({ occupancy, depth, slope, duration, drops, overall }, explanation)

/-- Projects window metrics and refusal counters into an evidence summary. -/
def summarize (metrics : EvidenceWindow.Metrics) (window : EvidenceWindow) : EvidenceSummary where
  windowStart := metrics.windowStart
  windowEnd := metrics.windowEnd
  samples := metrics.samples
  expectedSamples := metrics.expectedSamples
  completenessPermille := metrics.completenessPermille
  gaps := window.discontinuities
  reordered := window.reordered
  duplicates := window.duplicates
  counterResets := window.counterResets
  counterRollovers := window.counterRollovers
  droppedSamples := window.discontinuities + window.reordered + window.duplicates
  capacityKnown := metrics.capacityKnown
  capacityBytes := metrics.capacityBytes
  sparse := metrics.sparse
  synthetic := metrics.synthetic
  provenance := metrics.provenance
  provenanceCount := metrics.provenanceCount

end Mbg
