import MicroburstGovernor.Detect.WellFormed

/-! The accounts an evaluation keeps on admissible evidence: how it is made of the onset and release
    accounting, the state machine and the ceiling, and what these do to the duration of the episode,
    to the onset run and to the mark of a suppressed opening. -/

namespace Mbg

@[simp] theorem DetectionDecision.suppressed_explainIf (r : DetectionDecision) (applies : Bool)
    (code : ReasonCode) (observed threshold : Int64) (tick : Tick) :
    (r.explainIf applies code observed threshold tick).suppressedByCooldown =
      r.suppressedByCooldown := by
  cases applies <;> rfl

namespace Detector

/-! ### The rules on one reading -/

/-- R1: the queue is at or above the onset depth. -/
def depthOk (dp : DetectionPolicy) (m : EvidenceWindow.Metrics) : Bool :=
  m.latestDepth ≥ dp.onsetMinDepth

/-- R2: the steepest slope is at or above the onset slope. -/
def slopeOk (dp : DetectionPolicy) (m : EvidenceWindow.Metrics) : Bool :=
  steepestSlope m ≥ dp.onsetMinSlopeQ16

/-- R5 and R6: depth and slope are at or below the release thresholds. -/
def releaseNow (dp : DetectionPolicy) (m : EvidenceWindow.Metrics) : Bool :=
  m.latestDepth ≤ dp.releaseDepth && m.recentSlopeQ16 ≤ dp.releaseSlopeQ16

/-- The metrics a detector evaluates under its own policy. -/
def readMetrics (d : Detector) : EvidenceWindow.Metrics := d.window.metrics d.policy.detection

/-- The ticks since the last evaluation. -/
def gapTo (d : Detector) (now : Tick) : UInt64 :=
  if d.hasEvaluated then forwardGap d.lastEvaluated now else 0

/-- The detector with its clock at the tick of the evaluation. -/
def clocked (d : Detector) (now : Tick) : Detector :=
  { d with lastEvaluated := now, hasEvaluated := true }

/-- The detector after the onset and release accounting, before the state machine. -/
def accounted (d : Detector) (now : Tick) (gap : UInt64) (m : EvidenceWindow.Metrics) : Detector :=
  let dp := d.policy.detection
  ({ d with inadmissibleSinceSet := false }.trackOnset now gap (depthOk dp m) (slopeOk dp m)).trackRelease
    gap (releaseNow dp m)

/-- The state machine, then the ceiling. -/
def decided (d : Detector) (now : Tick) (m : EvidenceWindow.Metrics) (adm : Admissibility)
    (cooldownOk releaseNow : Bool) (r : DetectionDecision) : Detector × DetectionDecision :=
  let t := d.transition now m adm cooldownOk releaseNow r
  t.1.enforceCeiling now t.2

theorem evaluateAdmissible_accounted (d : Detector) (now : Tick) (gap : UInt64)
    (m : EvidenceWindow.Metrics) (adm : Admissibility) (r : DetectionDecision) :
    ∃ r' : DetectionDecision,
      d.evaluateAdmissible now gap m adm r =
        (d.accounted now gap m).decided now m adm (!(d.accounted now gap m).inCooldown now)
          (releaseNow d.policy.detection m) r' ∧
      (r.suppressedByCooldown = false →
        r'.suppressedByCooldown = (d.accounted now gap m).inCooldown now) ∧
      r'.opened = r.opened := by
  unfold evaluateAdmissible
  extract_lets dp d₁ r₁ depthOk' steepest slopeOk' d₂ releaseNow' wasOpen r₂ d₃ r₃ cooldownOk r₄ r₅
  have hd₃ : d.accounted now gap m = d₃ := rfl
  have hrelease : releaseNow d.policy.detection m = releaseNow' := rfl
  have hok : (!d₃.inCooldown now) = cooldownOk := rfl
  have hr₃ : r₃.suppressedByCooldown = r.suppressedByCooldown := by
    simp only [r₃, r₂, DetectionDecision.suppressed_explainIf]
    rfl
  have hr₅ : r.suppressedByCooldown = false →
      r₅.suppressedByCooldown = d₃.inCooldown now := by
    intro hr
    change r₄.suppressedByCooldown = _
    cases hin : d₃.inCooldown now with
    | true =>
      dsimp only [r₄, cooldownOk]
      rw [if_neg (by simp [hin])]
      rfl
    | false =>
      dsimp only [r₄, cooldownOk]
      rw [if_pos (by simp [hin]), hr₃, hr]
  have hopened : r₅.opened = r.opened := by
    have hr₄ : r₄.verdict = r₃.verdict := by
      dsimp only [r₄]
      cases cooldownOk <;> rfl
    have hv : r₃.verdict = r₁.verdict := by
      simp only [r₃, r₂, DetectionDecision.verdict_explainIf]
    exact congrArg DetectionDecision.Verdict.opened (hr₄.trans hv)
  refine ⟨r₅, ?_, by rw [hd₃]; exact hr₅, hopened⟩
  rw [hd₃, hrelease, hok]
  clear_value d₃ r₅ cooldownOk releaseNow'
  rfl

/-- Explaining the evidence adds to the explanation and to nothing else. -/
theorem explainEvidence_eq (d : Detector) (m : EvidenceWindow.Metrics) (adm : Admissibility)
    (now : Tick) (r : DetectionDecision) :
    ∃ explanation, d.explainEvidence m adm now r = { r with explanation } := by
  have chain : ∀ (r₀ : DetectionDecision) (applies : Bool) (code : ReasonCode)
      (observed threshold : Int64), (∃ explanation, r₀ = { r with explanation }) →
      ∃ explanation, r₀.explainIf applies code observed threshold now = { r with explanation } := by
    rintro r₀ applies code observed threshold ⟨explanation, rfl⟩
    exact DetectionDecision.explainIf_eq { r with explanation } applies code observed threshold now
  unfold explainEvidence
  extract_lets dp w explained
  have hexplained : ∃ explanation, explained = { r with explanation } := by
    dsimp only [explained]
    split
    · exact ⟨_, rfl⟩
    · iterate 9 apply chain
      exact ⟨r.explanation, rfl⟩
  obtain ⟨explanation, h⟩ := hexplained
  rw [h]
  exact ⟨_, rfl⟩

/-- The decision of a fresh evaluation once its evidence was explained. -/
structure Explained (d : Detector) (now : Tick) (r : DetectionDecision) : Prop where
  verdict : r.verdict = (d.newDecision now).verdict
  suppressed : r.suppressedByCooldown = false
  staleness : r.stalenessTicks = d.window.stalenessTicks now

/-- A fresh evaluation moves the clock, explains its evidence, and goes on with what the evidence
    admits. -/
theorem evaluateFresh_eq (d : Detector) (now : Tick) : ∃ r, Explained d now r ∧
    d.evaluateFresh now =
      let e := if (d.admissibilityAt now).admissible then
          (d.clocked now).evaluateAdmissible now (d.gapTo now) d.readMetrics (d.admissibilityAt now) r
        else (d.clocked now).evaluateInadmissible now (d.admissibilityAt now) r
      ({ e.1 with lastDecision := e.2 }, e.2) := by
  unfold evaluateFresh
  extract_lets gap d₁ metrics r₀ adm r₁
  obtain ⟨explanation, hr₁⟩ := d₁.explainEvidence_eq metrics adm now r₀
  have hexplained : Explained d now r₁ := by
    change r₁ = _ at hr₁
    rw [hr₁]
    exact ⟨rfl, rfl, rfl⟩
  refine ⟨r₁, hexplained, ?_⟩
  have hadm : d.admissibilityAt now = adm := rfl
  have hgap : d.gapTo now = gap := rfl
  have hmetrics : d.readMetrics = metrics := rfl
  have hclocked : d.clocked now = d₁ := rfl
  rw [hadm, hgap, hmetrics, hclocked]
  clear_value d₁ r₁ adm gap metrics
  cases adm.admissible <;> rfl

/-! ### Duration -/

/-- The duration of an open episode is measured up to the tick. -/
def Measured (d : Detector) (now : Tick) : Prop :=
  d.hasOpenEpisode = true →
    d.episode.metrics.durationTicks = forwardGap d.episode.metrics.onsetTick now

theorem measured_updateEpisode {d : Detector} (now : Tick) (m : EvidenceWindow.Metrics)
    (r : DetectionDecision) (h : d.hasOpenEpisode = true) :
    (d.updateEpisode now m r).1.episode.metrics.durationTicks =
      forwardGap (d.updateEpisode now m r).1.episode.metrics.onsetTick now := by
  rw [updateEpisode, if_neg (by simp [h])]
  rfl

theorem closed_closeEpisode (d : Detector) (reason : CloseReason) (now : Tick)
    (r : DetectionDecision) (fenced : Bool) :
    (d.closeEpisode reason now r fenced).1.hasOpenEpisode = false :=
  congrArg Current.isOpen (d.current_closeEpisode now r reason fenced)

/-- Whatever the state machine leaves open it has just measured. -/
theorem measured_transition (d : Detector) (now : Tick) (m : EvidenceWindow.Metrics)
    (adm : Admissibility) (cooldownOk releaseNow : Bool) (r : DetectionDecision) :
    (d.transition now m adm cooldownOk releaseNow r).1.Measured now := by
  rw [transition]
  cases hs : d.state with
  | idle =>
    have hidle : d.hasOpenEpisode = false := by simp [hasOpenEpisode, hs]
    dsimp only
    split
    · intro _
      have hopen : (d.openEpisode now r).1.hasOpenEpisode = true := rfl
      generalize d.openEpisode now r = o at *
      exact measured_updateEpisode now m o.2 hopen
    · split <;> exact fun hopen => by rw [hidle] at hopen; cases hopen
  | active =>
    have hopen : d.hasOpenEpisode = true := by simp [hasOpenEpisode, hs]
    have hm := measured_updateEpisode now m r hopen
    generalize d.updateEpisode now m r = u at *
    dsimp only
    split
    · exact fun _ => hm
    · exact fun _ => hm
  | recovering =>
    have hopen : d.hasOpenEpisode = true := by simp [hasOpenEpisode, hs]
    dsimp only
    split
    · intro _
      exact measured_updateEpisode (d := { d with
        state := .active, releaseSustaining := false, releaseProgressTicks := 0 }) now m
        (r.explain ReasonCode.episodeMerged 0 0 now) rfl
    · split
      · intro hstill
        rw [show _ = _ from closed_closeEpisode ..] at hstill
        cases hstill
      · exact fun _ => measured_updateEpisode now m r hopen

/-- What is open after the ceiling lies below it. -/
theorem below_enforceCeiling {d : Detector} {now : Tick} (h : d.Measured now)
    (r : DetectionDecision) (hopen : (d.enforceCeiling now r).1.hasOpenEpisode = true) :
    forwardGap (d.enforceCeiling now r).1.episode.metrics.onsetTick now <
      (d.enforceCeiling now r).1.policy.detection.maxEpisodeTicks := by
  rw [enforceCeiling] at hopen ⊢
  dsimp only at hopen ⊢
  by_cases hover : (d.hasOpenEpisode &&
      d.episode.metrics.durationTicks ≥ d.policy.detection.maxEpisodeTicks) = true
  · rw [if_pos hover] at hopen
    rw [show _ = _ from closed_closeEpisode ..] at hopen
    cases hopen
  · rw [if_neg hover] at hopen ⊢
    simp only [hopen, Bool.true_and, decide_eq_true_eq, ge_iff_le, UInt64.not_le] at hover
    rwa [h hopen] at hover

end Detector

end Mbg
