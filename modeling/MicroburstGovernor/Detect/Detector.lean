import MicroburstGovernor.Detect.Classifier

/-! The per-stream detector: onset and release accounting, one episode at a time, cooldown. -/

namespace Mbg

/-- Detector state machine for a single evidence stream. -/
inductive DetectorState where
  | idle | active | recovering
  deriving DecidableEq, Repr, Inhabited

/-- Outcome of one rule evaluation: the complete justification of a classification. -/
structure DetectionDecision where
  classification : Classification := .unknown
  authority : EvidenceAuthority := .unknown
  severity : SeverityClass := SeverityClass.none
  grades : GradeBreakdown := {}
  stream : StreamKey := default
  tick : Tick := {}
  event : EventId := default
  resourceGeneration : ResourceGeneration := default
  policyGeneration : PolicyGeneration := default
  policyDigest : UInt64 := 0
  opened : Bool := false
  updated : Bool := false
  closed : Bool := false
  fenced : Bool := false
  suppressedByCooldown : Bool := false
  closeReason : CloseReason := CloseReason.none
  evidence : EvidenceSummary := {}
  metrics : BurstMetrics := {}
  explanation : Explanation := {}
  stalenessTicks : UInt64 := 0
  onsetProgressTicks : UInt64 := 0
  releaseProgressTicks : UInt64 := 0
  deriving DecidableEq, Inhabited

namespace DetectionDecision

def explain (d : DetectionDecision) (code : ReasonCode) (observed threshold : Int64) (tick : Tick) :
    DetectionDecision :=
  { d with explanation := d.explanation.add code observed threshold tick }

/-- Adds a rule outcome when it applies. -/
def explainIf (d : DetectionDecision) (applies : Bool) (code : ReasonCode)
    (observed threshold : Int64) (tick : Tick) : DetectionDecision :=
  if applies then d.explain code observed threshold tick else d

end DetectionDecision

/-- Deterministic detector for one stream. -/
structure Detector where
  key : StreamKey := default
  policy : Policy := {}
  generation : PolicyGeneration := default
  resourceGeneration : ResourceGeneration := default
  window : EvidenceWindow := {}
  state : DetectorState := .idle
  episode : BurstEvent := {}
  lastDecision : DetectionDecision := {}
  lastEvaluated : Tick := {}
  hasEvaluated : Bool := false
  onsetRunActive : Bool := false
  onsetStartTick : Tick := {}
  onsetRunTicks : UInt64 := 0
  onsetRiseObserved : Bool := false
  releaseSustaining : Bool := false
  releaseProgressTicks : UInt64 := 0
  recoveryStartTick : Tick := {}
  cooldownUntil : Tick := {}
  inadmissibleSinceSet : Bool := false
  inadmissibleSince : Tick := {}
  lastAccept : WindowAccept := .accepted
  deriving Inhabited

namespace Detector

def hasOpenEpisode (d : Detector) : Bool := d.state = .active || d.state = .recovering

def inCooldown (d : Detector) (now : Tick) : Bool := tickAfter now d.cooldownUntil

def resetWindow (policy : Policy) : EvidenceWindow :=
  EvidenceWindow.reset policy.detection.windowCapacity.toNat

/-- Resets everything but the resource generation and the last window acceptance. -/
def configure (d : Detector) (key : StreamKey) (policy : Policy) (generation : PolicyGeneration) :
    Detector :=
  { key, policy, generation, window := resetWindow policy
    resourceGeneration := d.resourceGeneration, lastAccept := d.lastAccept }

/-- A decision about this detector at a tick, with nothing evaluated yet. -/
def newDecision (d : Detector) (now : Tick) : DetectionDecision :=
  { stream := d.key, tick := now, policyGeneration := d.generation, policyDigest := d.policy.digest
    resourceGeneration := d.resourceGeneration }

/-! ### Episodes -/

def openEpisode (d : Detector) (now : Tick) (decision : DetectionDecision) :
    Detector × DetectionDecision :=
  let episode : BurstEvent :=
    { stream := d.key
      resourceGeneration := d.resourceGeneration
      id := makeEventId d.key d.onsetStartTick
      lifecycle := .opened
      policyId := d.policy.id
      policyGeneration := d.generation
      policyDigest := d.policy.digest
      metrics :=
        { onsetTick := d.onsetStartTick, peakTick := now, lastUpdateTick := now, endTick := now }
      revision := 1 }
  ({ d with episode, state := .active, releaseSustaining := false, releaseProgressTicks := 0 },
    { decision with opened := true, event := episode.id }.explain ReasonCode.episodeOpened
      d.onsetStartTick.value.toInt64 now.value.toInt64 now)

/-- Running peaks of an episode under the window's metrics. -/
def raiseMetrics (episode : BurstMetrics) (metrics : EvidenceWindow.Metrics) (now : Tick) :
    BurstMetrics :=
  { episode with
    peakDepth := max episode.peakDepth metrics.peakDepth
    peakOccupancyBytes := max episode.peakOccupancyBytes metrics.peakOccupancyBytes
    peakSlopeQ16 := max episode.peakSlopeQ16 metrics.recentSlopeQ16
    peakImbalanceQ16 := max episode.peakImbalanceQ16 metrics.imbalanceQ16
    capacityBytes := metrics.capacityBytes
    dropDelta := max episode.dropDelta metrics.dropDelta
    markDelta := max episode.markDelta metrics.markDelta
    lastUpdateTick := now
    endTick := now
    durationTicks := forwardGap episode.onsetTick now
    peakTick := if metrics.peakDepth > episode.peakDepth then now else episode.peakTick }

/-- Degraded evidence never claims more than the policy cap, whatever the metrics say. -/
def capSeverity (d : Detector) (now : Tick) (severity : SeverityClass)
    (decision : DetectionDecision) : SeverityClass × DetectionDecision :=
  if decision.authority = .degraded then
    let capped := severityMin severity d.policy.detection.degradedSeverityCap
    (capped, decision.explainIf (capped ≠ severity) ReasonCode.authorityDegraded
      severity.raw.toUInt64.toInt64 capped.raw.toUInt64.toInt64 now)
  else (severity, decision)

def updateEpisode (d : Detector) (now : Tick) (metrics : EvidenceWindow.Metrics)
    (decision : DetectionDecision) : Detector × DetectionDecision :=
  if !d.hasOpenEpisode then (d, decision)
  else
    let raised := raiseMetrics d.episode.metrics metrics now
    let (breakdown, explanation) :=
      classify raised decision.evidence d.policy.detection now decision.explanation
    let (severity, decision) :=
      d.capSeverity now breakdown.overall { decision with explanation }
    let episode :=
      { d.episode with
        metrics := raised
        evidence := decision.evidence
        severity
        authority := decision.authority
        revision := saturatingAdd d.episode.revision 1 }
    ({ d with episode },
      { decision with
        metrics := raised
        severity
        event := episode.id
        updated := true
        grades := { breakdown with overall := severity } })

def closeEpisode (d : Detector) (reason : CloseReason) (now : Tick) (decision : DetectionDecision)
    (fenced : Bool) : Detector × DetectionDecision :=
  let episode :=
    { d.episode with
      lifecycle := if fenced then .fenced else .closed
      closeReason := reason
      closedTick := now
      metrics :=
        { d.episode.metrics with
          endTick := now
          durationTicks := forwardGap d.episode.metrics.onsetTick now }
      revision := saturatingAdd d.episode.revision 1 }
  let decision :=
    { decision with
      closed := true
      fenced
      event := episode.id
      closeReason := reason
      metrics := episode.metrics
      severity := episode.severity
      evidence :=
        if decision.evidence.samples = 0 then d.lastDecision.evidence else decision.evidence }
  let decision := decision.explain
    (if fenced then ReasonCode.episodeFenced else ReasonCode.episodeClosed)
    now.value.toInt64 episode.metrics.durationTicks.toInt64 now
  ({ d with
      episode
      state := .idle
      cooldownUntil := addTicksSaturating now d.policy.detection.cooldownTicks
      onsetRunActive := false
      onsetRunTicks := 0
      onsetRiseObserved := false
      releaseSustaining := false
      releaseProgressTicks := 0
      inadmissibleSinceSet := false },
    decision.explainIf fenced ReasonCode.authorityFenced 0 0 now)

/-! ### Evidence admissibility -/

/-- The six admissibility conditions of one evaluation. -/
structure Admissibility where
  hasSamples : Bool
  enoughSamples : Bool
  complete : Bool
  fresh : Bool
  gapsOk : Bool
  stable : Bool
  /-- The degraded path is open: allowed, with its own sample and completeness floors met. -/
  degradedFloors : Bool

namespace Admissibility

def authoritative (a : Admissibility) : Bool :=
  a.hasSamples && a.enoughSamples && a.complete && a.fresh && a.gapsOk && a.stable

def degradedAllowed (a : Admissibility) : Bool :=
  !a.authoritative && a.degradedFloors && a.hasSamples && a.fresh && a.stable

def admissible (a : Admissibility) : Bool := a.authoritative || a.degradedAllowed

end Admissibility

def admissibility (dp : DetectionPolicy) (metrics : EvidenceWindow.Metrics)
    (stalenessTicks : UInt64) : Admissibility where
  hasSamples := metrics.samples > 0
  enoughSamples := metrics.samples ≥ dp.minSamplesForClassification
  complete := metrics.completenessPermille ≥ dp.minCompletenessPermille
  fresh := metrics.samples > 0 && stalenessTicks ≤ dp.stalenessLimitTicks
  gapsOk := metrics.maxGapTicks ≤ dp.maxSampleGapTicks
  stable := dp.allowCapacityChangeWithinWindow || !metrics.capacityChanged
  degradedFloors := dp.allowDegradedClassification && metrics.samples ≥ 2 &&
    metrics.completenessPermille ≥ dp.degradedMinCompletenessPermille

/-- Records which evidence rules failed, and how the evidence was admitted. -/
def explainEvidence (d : Detector) (metrics : EvidenceWindow.Metrics) (adm : Admissibility)
    (now : Tick) (decision : DetectionDecision) : DetectionDecision :=
  let dp := d.policy.detection
  let w := d.window
  let decision :=
    if !adm.hasSamples then decision.explain ReasonCode.evidenceNoSamples 0 0 now
    else decision
      |>.explainIf (!adm.enoughSamples) ReasonCode.evidenceInsufficientSamples
        metrics.samples.toInt64 dp.minSamplesForClassification.toInt64 now
      |>.explainIf (!adm.complete) ReasonCode.evidenceIncomplete
        metrics.completenessPermille.toUInt64.toInt64 dp.minCompletenessPermille.toUInt64.toInt64 now
      |>.explainIf (!adm.gapsOk) ReasonCode.evidenceGap
        metrics.maxGapTicks.toInt64 dp.maxSampleGapTicks.toInt64 now
      |>.explainIf (!adm.stable) ReasonCode.evidenceCapacityChanged
        metrics.capacityBytes.toInt64 metrics.capacityBytes.toInt64 now
      |>.explainIf (!adm.fresh) ReasonCode.evidenceStale
        decision.stalenessTicks.toInt64 dp.stalenessLimitTicks.toInt64 now
      |>.explainIf (w.duplicates ≠ 0) ReasonCode.evidenceDuplicate w.duplicates.toInt64 0 now
      |>.explainIf (w.reordered ≠ 0) ReasonCode.evidenceReordered w.reordered.toInt64 0 now
      |>.explainIf (w.counterResets ≠ 0) ReasonCode.evidenceCounterReset
        w.counterResets.toInt64 0 now
      |>.explainIf (w.counterRollovers ≠ 0) ReasonCode.evidenceTickRollover
        w.counterRollovers.toInt64 0 now
  decision.explain
    (if adm.authoritative then ReasonCode.evidenceAccepted
     else if adm.degradedAllowed then ReasonCode.evidenceDegradedAllowed
     else ReasonCode.evidenceDegradedRefused) 0 0 now

/-! ### Evaluation -/

/-- Inadmissible evidence: an open episode is suspended within its grace, then fenced. -/
def evaluateInadmissible (d : Detector) (now : Tick) (adm : Admissibility)
    (decision : DetectionDecision) : Detector × DetectionDecision :=
  let dp := d.policy.detection
  let decision :=
    { decision with
      classification := .unknown, authority := .unknown, severity := SeverityClass.none }
  if !d.hasOpenEpisode then (d, decision)
  else
    let d :=
      if d.inadmissibleSinceSet then d
      else { d with inadmissibleSinceSet := true, inadmissibleSince := now }
    let staleExcess :=
      if decision.stalenessTicks > dp.stalenessLimitTicks then
        decision.stalenessTicks - dp.stalenessLimitTicks
      else 0
    let held := max (forwardGap d.inadmissibleSince now) staleExcess
    if held ≤ dp.evidenceGraceTicks then
      -- suspended, never positive
      (d, { decision with
              classification := .recovering
              event := d.episode.id
              metrics := d.episode.metrics
              severity := d.episode.severity })
    else
      let reason :=
        if !adm.fresh then CloseReason.evidenceStale
        else if !adm.stable then CloseReason.capacityChanged
        else CloseReason.evidenceStale
      let (d, decision) := d.closeEpisode reason now decision true
      (d, { decision with classification := .fenced })

/-- Onset accounting: a run lasts while the depth holds, its rise must come inside the onset
    window. -/
def trackOnset (d : Detector) (now : Tick) (gap : UInt64) (depthOk slopeOk : Bool) : Detector :=
  if depthOk then
    let d :=
      if !d.onsetRunActive then
        { d with
          onsetRunActive := true, onsetStartTick := now, onsetRunTicks := 0
          onsetRiseObserved := false }
      else { d with onsetRunTicks := saturatingAdd d.onsetRunTicks gap }
    if slopeOk && d.onsetRunTicks ≤ d.policy.detection.onsetSlopeWindowTicks then
      { d with onsetRiseObserved := true }
    else d
  else { d with onsetRunActive := false, onsetRunTicks := 0, onsetRiseObserved := false }

def onsetConfirmed (d : Detector) : Bool :=
  d.onsetRunActive && d.onsetRiseObserved &&
    d.onsetRunTicks ≥ d.policy.detection.onsetSustainTicks

/-- Release accounting, only while an episode is open. -/
def trackRelease (d : Detector) (gap : UInt64) (releaseNow : Bool) : Detector :=
  if releaseNow && d.hasOpenEpisode then
    if !d.releaseSustaining then { d with releaseSustaining := true, releaseProgressTicks := 0 }
    else { d with releaseProgressTicks := saturatingAdd d.releaseProgressTicks gap }
  else { d with releaseSustaining := false, releaseProgressTicks := 0 }

def releaseConfirmed (d : Detector) (releaseNow : Bool) : Bool :=
  releaseNow && d.releaseSustaining &&
    d.releaseProgressTicks ≥ d.policy.detection.releaseSustainTicks

/-- The claim an open, confirmed episode makes under the evidence at hand. -/
def positiveClass (adm : Admissibility) : Classification :=
  if adm.degradedAllowed then .degradedMicroburst else .microburst

/-- The three-state machine: open on a confirmed onset, recover on a confirmed release, merge a new
    onset, close after the cooldown. -/
def transition (d : Detector) (now : Tick) (metrics : EvidenceWindow.Metrics) (adm : Admissibility)
    (cooldownOk releaseNow : Bool) (decision : DetectionDecision) : Detector × DetectionDecision :=
  match d.state with
  | .idle =>
    if d.onsetConfirmed && cooldownOk then
      let (d, decision) := d.openEpisode now decision
      let (d, decision) := d.updateEpisode now metrics decision
      (d, { decision with classification := positiveClass adm })
    else if d.onsetRunActive then (d, { decision with classification := .candidate })
    else (d, { decision with classification := .quiescent })
  | .active =>
    let confirmed := d.releaseConfirmed releaseNow
    let (d, decision) := d.updateEpisode now metrics decision
    if confirmed then
      ({ d with state := .recovering, recoveryStartTick := now },
        { decision.explain ReasonCode.episodeRecovering 0 0 now with classification := .recovering })
    else (d, { decision with classification := positiveClass adm })
  | .recovering =>
    if d.onsetRunActive then
      let d := { d with state := .active, releaseSustaining := false, releaseProgressTicks := 0 }
      let decision := decision.explain ReasonCode.episodeMerged 0 0 now
      let (d, decision) := d.updateEpisode now metrics decision
      (d, { decision with classification := positiveClass adm })
    else if forwardGap d.recoveryStartTick now ≥ d.policy.detection.cooldownTicks then
      let (d, decision) := d.updateEpisode now metrics decision
      let (d, decision) := d.closeEpisode CloseReason.releaseConfirmed now decision false
      (d, { decision with classification := .quiescent })
    else
      let (d, decision) := d.updateEpisode now metrics decision
      (d, { decision with classification := .recovering })

/-- The episode ceiling: an open episode that has lasted too long is closed. -/
def enforceCeiling (d : Detector) (now : Tick) (decision : DetectionDecision) :
    Detector × DetectionDecision :=
  let ceiling := d.policy.detection.maxEpisodeTicks
  if d.hasOpenEpisode && d.episode.metrics.durationTicks ≥ ceiling then
    let decision := decision.explain ReasonCode.episodeTimedOut
      d.episode.metrics.durationTicks.toInt64 ceiling.toInt64 now
    let (d, decision) := d.closeEpisode CloseReason.episodeTimeout now decision false
    (d, { decision with classification := .quiescent })
  else (d, decision)

/-- The steepest of the last interval and the whole window. -/
def steepestSlope (metrics : EvidenceWindow.Metrics) : RateQ16 :=
  if metrics.recentSlopeQ16 > metrics.windowSlopeQ16 then metrics.recentSlopeQ16
  else metrics.windowSlopeQ16

/-- Admissible evidence: onset and release rules, cooldown, the state machine, the ceiling. -/
def evaluateAdmissible (d : Detector) (now : Tick) (gap : UInt64)
    (metrics : EvidenceWindow.Metrics) (adm : Admissibility) (decision : DetectionDecision) :
    Detector × DetectionDecision :=
  let dp := d.policy.detection
  let d := { d with inadmissibleSinceSet := false }
  let decision :=
    { decision with authority := if adm.degradedAllowed then .degraded else .authoritative }
  let depthOk := metrics.latestDepth ≥ dp.onsetMinDepth
  let steepest := steepestSlope metrics
  let slopeOk := steepest ≥ dp.onsetMinSlopeQ16
  let d := d.trackOnset now gap depthOk slopeOk
  let releaseNow :=
    metrics.latestDepth ≤ dp.releaseDepth && metrics.recentSlopeQ16 ≤ dp.releaseSlopeQ16
  let wasOpen := d.hasOpenEpisode
  let decision := decision
    |>.explainIf depthOk ReasonCode.onsetDepthCrossed metrics.latestDepth.toInt64
      dp.onsetMinDepth.toInt64 now
    |>.explainIf d.onsetRiseObserved ReasonCode.onsetSlopeCrossed steepest dp.onsetMinSlopeQ16 now
    |>.explainIf d.onsetConfirmed ReasonCode.onsetSustainMet d.onsetRunTicks.toInt64
      dp.onsetSustainTicks.toInt64 now
    |>.explainIf (releaseNow && wasOpen) ReasonCode.releaseDepthCrossed
      metrics.latestDepth.toInt64 dp.releaseDepth.toInt64 now
  let d := d.trackRelease gap releaseNow
  let decision := decision.explainIf (d.releaseConfirmed releaseNow) ReasonCode.releaseSustainMet
    d.releaseProgressTicks.toInt64 dp.releaseSustainTicks.toInt64 now
  let cooldownOk := !d.inCooldown now
  let decision :=
    if cooldownOk then decision
    else { decision with suppressedByCooldown := true }.explain ReasonCode.cooldownActive
      now.value.toInt64 d.cooldownUntil.value.toInt64 now
  let decision :=
    { decision with
      onsetProgressTicks := d.onsetRunTicks, releaseProgressTicks := d.releaseProgressTicks }
  let (d, decision) := d.transition now metrics adm cooldownOk releaseNow decision
  d.enforceCeiling now decision

/-- The decision of a fresh evaluation before any rule is applied: its evidence. -/
def evidenceDecision (d : Detector) (metrics : EvidenceWindow.Metrics) (now : Tick) :
    DetectionDecision :=
  { d.newDecision now with
    stalenessTicks := d.window.stalenessTicks now
    evidence := summarize metrics d.window
    onsetProgressTicks := d.onsetRunTicks
    releaseProgressTicks := d.releaseProgressTicks }

/-- An evaluation at a tick that advances the detector's clock. -/
def evaluateFresh (d : Detector) (now : Tick) : Detector × DetectionDecision :=
  let gap := if d.hasEvaluated then forwardGap d.lastEvaluated now else 0
  let d := { d with lastEvaluated := now, hasEvaluated := true }
  let metrics := d.window.metrics d.policy.detection
  let decision := d.evidenceDecision metrics now
  let adm := admissibility d.policy.detection metrics decision.stalenessTicks
  let decision := d.explainEvidence metrics adm now decision
  let (d, decision) :=
    if !adm.admissible then d.evaluateInadmissible now adm decision
    else d.evaluateAdmissible now gap metrics adm decision
  ({ d with lastDecision := decision }, decision)

/-- A tick at which `evaluate` does not answer from its cache. -/
def freshAt (d : Detector) (now : Tick) : Bool := !d.hasEvaluated || tickAfter d.lastEvaluated now

/-- Time never runs backwards: a repeated or reordered tick returns the cached decision. -/
def evaluate (d : Detector) (now : Tick) : Detector × DetectionDecision :=
  if d.freshAt now then d.evaluateFresh now else (d, d.lastDecision)

/-! ### Entry points -/

/-- Fences the open episode: `rearm` and a change of resource generation. -/
def fenceDecision (d : Detector) (reason : CloseReason) (now : Tick) :
    Detector × DetectionDecision :=
  let (d, decision) := d.closeEpisode reason now (d.newDecision now) true
  (d, { decision with classification := .fenced })

/-- Fences the open episode from outside; there is nothing to fence when none is open. -/
def fence (d : Detector) (reason : CloseReason) (now : Tick) :
    Option (Detector × DetectionDecision) :=
  if !d.hasOpenEpisode then none
  else
    let (fenced, decision) := d.fenceDecision reason now
    some (fenced, { decision with evidence := d.lastDecision.evidence })

/-- Installs a new policy; an open episode is fenced because its thresholds no longer exist. -/
def rearm (d : Detector) (policy : Policy) (generation : PolicyGeneration) (now : Tick) :
    Detector × Option DetectionDecision :=
  let (d, emit) :=
    if d.hasOpenEpisode then
      let (d, decision) := d.fenceDecision CloseReason.policyChanged now
      (d, some decision)
    else (d, none)
  ({ d with
      policy
      generation
      window := resetWindow policy
      onsetRunActive := false
      onsetRunTicks := 0
      onsetRiseObserved := false
      releaseSustaining := false
      releaseProgressTicks := 0
      state := .idle
      hasEvaluated := false
      lastEvaluated := {}
      inadmissibleSinceSet := false }, emit)

/-- The sample declares another resource generation than the one being measured. -/
def changesGeneration (d : Detector) (sample : Sample) : Bool :=
  identityChanged sample.resourceGeneration d.resourceGeneration

/-- Offers a sample and evaluates at its tick. -/
def ingest (d : Detector) (sample : Sample) : Except Failure (Detector × DetectionDecision) :=
  if sample.stream ≠ d.key then
    Status.failure .invalidArgument "sample stream does not match detector"
  else match validateSample sample with
  | .error e => .error e
  | .ok () =>
    -- a resource reconfiguration fences whatever was being measured
    if d.changesGeneration sample && d.hasOpenEpisode then
      let (d, decision) := d.fenceDecision CloseReason.capacityChanged sample.tick
      .ok ({ d with
              resourceGeneration := sample.resourceGeneration
              window := resetWindow d.policy
              lastAccept := .capacityChanged }, decision)
    else
      let d :=
        if d.changesGeneration sample then
          { d with resourceGeneration := sample.resourceGeneration, window := resetWindow d.policy }
        else if sample.resourceGeneration.valid then
          { d with resourceGeneration := sample.resourceGeneration }
        else d
      let (window, lastAccept) := d.window.offer sample d.policy.detection.reorderToleranceTicks
      .ok ({ d with window, lastAccept }.evaluate sample.tick)

/-- Advances logical time without new evidence. -/
def advance (d : Detector) (now : Tick) : Detector × DetectionDecision := d.evaluate now

end Detector

end Mbg
