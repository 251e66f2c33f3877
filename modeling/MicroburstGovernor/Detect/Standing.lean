import MicroburstGovernor.Detect.Accounts
import MicroburstGovernor.Detect.Identity

/-! The standing of a detector's episode: whether it is open, its lifecycle, its metrics, the tick it
    was closed at.

    Seen through its standing an evaluation opens an episode and raises its metrics, raises those of
    an open one, closes what it raised, fences what it did not, or leaves it alone. Whatever raises
    the metrics reports them, with their grades, in its decision. -/

namespace Mbg

namespace Detector

/-- What dates an episode and measures it. -/
structure Standing where
  isOpen : Bool
  lifecycle : EventLifecycle
  metrics : BurstMetrics
  closedTick : Tick

def standing (d : Detector) : Standing :=
  ⟨d.hasOpenEpisode, d.episode.lifecycle, d.episode.metrics, d.episode.closedTick⟩

namespace Standing

/-- A new episode, before anything was measured. -/
def opening (onset now : Tick) : Standing where
  isOpen := true
  lifecycle := .opened
  metrics := { onsetTick := onset, peakTick := now, lastUpdateTick := now, endTick := now }
  closedTick := {}

def raise (s : Standing) (m : EvidenceWindow.Metrics) (now : Tick) : Standing :=
  { s with metrics := raiseMetrics s.metrics m now }

def close (s : Standing) (now : Tick) (lifecycle : EventLifecycle) : Standing where
  isOpen := false
  lifecycle
  metrics :=
    { s.metrics with endTick := now, durationTicks := forwardGap s.metrics.onsetTick now }
  closedTick := now

end Standing

/-- What an evaluation does to the standing of the episode, and what its decision says of it. -/
inductive Progress (m : EvidenceWindow.Metrics) (now onset : Tick) (s s' : Standing)
    (opened updated : Bool) : Prop where
  | kept (same : s' = s) (opens : opened = false) (updates : updated = false)
  | opened (wasOpen : s.isOpen = false) (now : s' = (Standing.opening onset now).raise m now)
      (opens : opened = true) (updates : updated = true)
  | openedClosed (wasOpen : s.isOpen = false)
      (now : s' = ((Standing.opening onset now).raise m now).close now .closed)
      (opens : opened = true) (updates : updated = true)
  | raised (wasOpen : s.isOpen = true) (now : s' = s.raise m now) (opens : opened = false)
      (updates : updated = true)
  | raisedClosed (wasOpen : s.isOpen = true) (now : s' = (s.raise m now).close now .closed)
      (opens : opened = false) (updates : updated = true)
  | fenced (wasOpen : s.isOpen = true) (now : s' = s.close now .fenced) (opens : opened = false)
      (updates : updated = false)

/-- What was raised and left open can be closed by the same evaluation; its metrics stay. -/
theorem Progress.close {m : EvidenceWindow.Metrics} {now onset : Tick} {s s' : Standing}
    {opened updated : Bool} (h : Progress m now onset s s' opened updated)
    (hopen : s'.isOpen = true) (hupdated : updated = true) :
    Progress m now onset s (s'.close now .closed) opened updated ∧
      (s'.close now .closed).metrics = s'.metrics := by
  cases h with
  | kept _ _ updates => rw [updates] at hupdated; cases hupdated
  | opened wasOpen now opens updates =>
    subst now
    exact ⟨.openedClosed wasOpen rfl opens updates, rfl⟩
  | openedClosed _ now => rw [now] at hopen; cases hopen
  | raised wasOpen now opens updates =>
    subst now
    exact ⟨.raisedClosed wasOpen rfl opens updates, rfl⟩
  | raisedClosed _ now => rw [now] at hopen; cases hopen
  | fenced _ now => rw [now] at hopen; cases hopen

/-- Degraded evidence claims no more than the policy's cap. -/
def cappedFor (dp : DetectionPolicy) (authority : EvidenceAuthority) (severity : SeverityClass) :
    SeverityClass :=
  if authority = .degraded then severityMin severity dp.degradedSeverityCap else severity

/-- A decision reports an episode: its metrics, and their grades under the policy, capped for the
    authority the decision has. -/
structure Reports (dp : DetectionPolicy) (e : BurstEvent) (r : DetectionDecision) : Prop where
  event : r.event = e.id
  metrics : r.metrics = e.metrics
  severity : r.severity = e.severity
  graded : ∃ evidence tick explanation,
    evidence.capacityKnown = decide (e.metrics.capacityBytes ≠ 0) ∧
    r.grades = { (classify e.metrics evidence dp tick explanation).1 with overall := r.severity } ∧
    r.severity =
      cappedFor dp r.authority (classify e.metrics evidence dp tick explanation).1.overall

/-! ### Updates and closings -/

section

variable (d : Detector) (now : Tick) (r : DetectionDecision)

theorem standing_openEpisode :
    (d.openEpisode now r).1.standing = .opening d.onsetStartTick now := rfl

theorem capSeverity_fst (s : SeverityClass) :
    (d.capSeverity now s r).1 = cappedFor d.policy.detection r.authority s := by
  rw [capSeverity, cappedFor]
  split <;> rfl

theorem standing_updateEpisode (m : EvidenceWindow.Metrics) (h : d.hasOpenEpisode = true) :
    (d.updateEpisode now m r).1.standing = d.standing.raise m now := by
  rw [updateEpisode, if_neg (by simp [h])]
  rfl

theorem standing_closeEpisode (reason : CloseReason) (fenced : Bool) :
    (d.closeEpisode reason now r fenced).1.standing =
      d.standing.close now (if fenced then .fenced else .closed) := rfl

/-- An update reports the episode as it leaves it. -/
theorem reports_updateEpisode {m : EvidenceWindow.Metrics} (h : d.hasOpenEpisode = true)
    (hknown : r.evidence.capacityKnown = decide (m.capacityBytes ≠ 0)) (c : Classification) :
    Reports d.policy.detection (d.updateEpisode now m r).1.episode
      { (d.updateEpisode now m r).2 with classification := c } := by
  rw [updateEpisode, if_neg (by simp [h])]
  dsimp only
  have hfst := d.capSeverity_fst now { r with
    explanation := (classify (raiseMetrics d.episode.metrics m now) r.evidence d.policy.detection now
      r.explanation).2 } (classify (raiseMetrics d.episode.metrics m now) r.evidence
        d.policy.detection now r.explanation).1.overall
  have hauth := congrArg DetectionDecision.Verdict.authority (d.verdict_capSeverity now { r with
    explanation := (classify (raiseMetrics d.episode.metrics m now) r.evidence d.policy.detection now
      r.explanation).2 } (classify (raiseMetrics d.episode.metrics m now) r.evidence
        d.policy.detection now r.explanation).1.overall)
  refine ⟨rfl, rfl, rfl, r.evidence, now, r.explanation, hknown, rfl, ?_⟩
  dsimp only
  rw [hfst]
  exact congrArg (cappedFor _ · _) hauth.symm

/-- What the decision that closes an episode says of it, and keeps from before. -/
structure ReportsClosed (d : Detector) (r : DetectionDecision) (e : Detector × DetectionDecision) :
    Prop where
  event : e.2.event = d.episode.id
  metrics : e.2.metrics = e.1.episode.metrics
  severity : e.2.severity = d.episode.severity
  authority : e.2.authority = r.authority
  grades : e.2.grades = r.grades
  opened : e.2.opened = r.opened
  updated : e.2.updated = r.updated
  id : e.1.episode.id = d.episode.id
  episode : e.1.episode.severity = d.episode.severity

theorem reportsClosed_closeEpisode (reason : CloseReason) (fenced : Bool) :
    ReportsClosed d r (d.closeEpisode reason now r fenced) := by
  cases fenced <;> exact ⟨rfl, rfl, rfl, rfl, rfl, rfl, rfl, rfl, rfl⟩

end

/-- A decision reports what its fields say. -/
theorem Reports.congr {dp : DetectionPolicy} {e : BurstEvent} {r r' : DetectionDecision}
    (h : Reports dp e r) (hevent : r'.event = r.event) (hmetrics : r'.metrics = r.metrics)
    (hseverity : r'.severity = r.severity) (hauthority : r'.authority = r.authority)
    (hgrades : r'.grades = r.grades) : Reports dp e r' := by
  refine ⟨hevent.trans h.event, hmetrics.trans h.metrics, hseverity.trans h.severity, ?_⟩
  rw [hseverity, hauthority, hgrades]
  exact h.graded

/-- Recovering is a way of being open. -/
theorem standing_recovering {d : Detector} (h : d.hasOpenEpisode = true) (now : Tick) :
    standing { d with state := .recovering, recoveryStartTick := now } = d.standing := by
  simp only [standing, h]
  rfl

/-- A merged onset keeps the episode open. -/
theorem standing_merged {d : Detector} (h : d.hasOpenEpisode = true) :
    standing { d with state := .active, releaseSustaining := false, releaseProgressTicks := 0 } =
      d.standing := by
  simp only [standing, h]
  rfl

/-- Closing at the tick of an update is reported with the update. -/
theorem Reports.close {d : Detector} {r : DetectionDecision} {dp : DetectionPolicy}
    (h : Reports dp d.episode r) (now : Tick)
    (hmeasured : (d.standing.close now .closed).metrics = d.episode.metrics) (reason : CloseReason)
    (c c' : Classification) :
    let e := d.closeEpisode reason now { r with classification := c } false
    Reports dp e.1.episode { e.2 with classification := c' } := by
  intro e
  have hclosed : ReportsClosed d { r with classification := c } e :=
    d.reportsClosed_closeEpisode now _ reason false
  have hkept : e.1.episode.metrics = d.episode.metrics := hmeasured
  have hgrades : e.2.grades = r.grades := hclosed.grades
  have hauthority : e.2.authority = r.authority := hclosed.authority
  have hseverity : e.2.severity = r.severity := hclosed.severity.trans h.severity.symm
  clear_value e
  obtain ⟨evidence, tick, explanation, hknown, hgraded, hcapped⟩ := h.graded
  refine ⟨hclosed.event.trans hclosed.id.symm, hclosed.metrics,
    hclosed.severity.trans hclosed.episode.symm, evidence, tick, explanation, ?_⟩
  dsimp only
  rw [hkept, hgrades, hauthority, hseverity]
  exact ⟨hknown, hgraded, hcapped⟩

/-! ### The state machine -/

/-- What an evaluation does to the episode, and that whatever it raises it reports. -/
structure Charted (m : EvidenceWindow.Metrics) (now onset : Tick) (s : Standing) (d' : Detector)
    (r : DetectionDecision) : Prop where
  progress : Progress m now onset s d'.standing r.opened r.updated
  reports : r.updated = true → Reports d'.policy.detection d'.episode r

theorem Charted.of_kept {m : EvidenceWindow.Metrics} {now onset : Tick} {d : Detector}
    {r : DetectionDecision} (ho : r.opened = false) (hu : r.updated = false) :
    Charted m now onset d.standing d r := by
  refine ⟨.kept rfl ho hu, fun h => ?_⟩
  rw [hu] at h
  cases h

/-- What an update of an open episode does to it, whatever the decision is classified as after. -/
structure Raised (m : EvidenceWindow.Metrics) (now : Tick) (d : Detector) (r : DetectionDecision)
    (d' : Detector) (r' : DetectionDecision) : Prop where
  standing : d'.standing = d.standing.raise m now
  opened : r'.opened = r.opened
  updated : r'.updated = true
  reports : Reports d'.policy.detection d'.episode r'

theorem raised_updateEpisode {d : Detector} {r : DetectionDecision} {m : EvidenceWindow.Metrics}
    (h : d.hasOpenEpisode = true)
    (hknown : r.evidence.capacityKnown = decide (m.capacityBytes ≠ 0)) (now : Tick)
    (c : Classification) : Raised m now d r (d.updateEpisode now m r).1
      { (d.updateEpisode now m r).2 with classification := c } := by
  have hstanding := d.standing_updateEpisode now r m h
  have hreports := d.reports_updateEpisode now r h hknown c
  have hpolicy := congrArg Setup.policy (d.setup_updateEpisode now r m)
  obtain ⟨severity, hv, -⟩ := d.verdict_updateEpisode now r m h
  have hopened := congrArg DetectionDecision.Verdict.opened hv
  have hupdated := congrArg DetectionDecision.Verdict.updated hv
  generalize d.updateEpisode now m r = u at *
  refine ⟨hstanding, hopened, hupdated, ?_⟩
  rw [show u.1.policy = d.policy from hpolicy]
  exact hreports

/-- An update of an episode that was open before. -/
theorem Raised.charted {m : EvidenceWindow.Metrics} {now : Tick} {d d' : Detector}
    {r r' : DetectionDecision} (h : Raised m now d r d' r') (hopen : d.hasOpenEpisode = true)
    (ho : r.opened = false) (onset : Tick) : Charted m now onset d.standing d' r' :=
  ⟨.raised hopen h.standing (h.opened.trans ho) h.updated, fun _ => h.reports⟩

/-- What was raised is closed by the same evaluation. -/
theorem Charted.close {m : EvidenceWindow.Metrics} {now onset : Tick} {s : Standing}
    {d : Detector} {r : DetectionDecision} (h : Charted m now onset s d r)
    (hopen : d.hasOpenEpisode = true) (hupdated : r.updated = true) (reason : CloseReason)
    (c : Classification) :
    let e := d.closeEpisode reason now { r with classification := c } false
    Charted m now onset s e.1 { e.2 with classification := .quiescent } := by
  intro e
  have hclosed : ReportsClosed d { r with classification := c } e :=
    d.reportsClosed_closeEpisode now _ reason false
  have hstanding : e.1.standing = d.standing.close now .closed := rfl
  have hpolicy : e.1.policy = d.policy := rfl
  have hreports := fun hmeasured => (h.reports hupdated).close now hmeasured reason c .quiescent
  change _ → Reports _ e.1.episode { e.2 with classification := .quiescent } at hreports
  have hopened : e.2.opened = r.opened := hclosed.opened
  have hupdates : e.2.updated = r.updated := hclosed.updated
  clear_value e
  obtain ⟨hprogress, hmeasured⟩ := h.progress.close hopen hupdated
  refine ⟨?_, fun _ => ?_⟩
  · dsimp only
    rw [hstanding, hopened, hupdates]
    exact hprogress
  · rw [hpolicy]
    exact hreports hmeasured

/-- The state machine: whatever it leaves open it has updated. -/
theorem charted_transition {d : Detector} {r : DetectionDecision} {m : EvidenceWindow.Metrics}
    (ho : r.opened = false) (hu : r.updated = false)
    (hknown : r.evidence.capacityKnown = decide (m.capacityBytes ≠ 0)) {onset : Tick}
    (honset : ∀ start ∈ d.onsetRun, start = onset) (now : Tick) (adm : Admissibility)
    (cooldownOk releaseNow : Bool) :
    Charted m now onset d.standing (d.transition now m adm cooldownOk releaseNow r).1
      (d.transition now m adm cooldownOk releaseNow r).2 ∧
      ((d.transition now m adm cooldownOk releaseNow r).1.hasOpenEpisode = true →
        (d.transition now m adm cooldownOk releaseNow r).2.updated = true) := by
  rw [transition]
  cases hs : d.state with
  | idle =>
    have hidle : d.hasOpenEpisode = false := by simp [hasOpenEpisode, hs]
    by_cases hopen : (d.onsetConfirmed && cooldownOk) = true
    · simp only [hopen, if_true]
      have hactive : d.onsetRunActive = true := by
        simp only [onsetConfirmed, Bool.and_eq_true] at hopen
        exact hopen.1.1.1
      have hstart : d.onsetStartTick = onset := honset _ (by rw [onsetRun, if_pos hactive]; rfl)
      have hstanding := d.standing_openEpisode now r
      rw [hstart] at hstanding
      have hisOpen := congrArg Standing.isOpen hstanding
      obtain ⟨event, explanation, hdecision⟩ := openEpisode_decision (d := d) (r := r) now
      generalize d.openEpisode now r = o at *
      have hopened : o.2.opened = true := by rw [hdecision]
      have hevidence : o.2.evidence = r.evidence := by rw [hdecision]
      have h := raised_updateEpisode hisOpen (hevidence ▸ hknown) now (positiveClass adm)
      refine ⟨⟨.opened hidle (hstanding ▸ h.standing) (h.opened.trans hopened) h.updated,
        fun _ => h.reports⟩, fun _ => h.updated⟩
    · simp only [hopen, Bool.false_eq_true, if_false]
      split
      · exact ⟨.of_kept ho hu, fun h => by rw [show _ = false from hidle] at h; cases h⟩
      · exact ⟨.of_kept ho hu, fun h => by rw [show _ = false from hidle] at h; cases h⟩
  | active =>
    have hopen : d.hasOpenEpisode = true := by simp [hasOpenEpisode, hs]
    by_cases hrel : d.releaseConfirmed releaseNow = true
    · simp only [hrel, if_true]
      have h := raised_updateEpisode hopen hknown now .recovering
      have hcur := congrArg Current.isOpen (d.current_updateEpisode now r m)
      generalize d.updateEpisode now m r = u at *
      have hstill : u.1.standing.isOpen = true := hcur.trans hopen
      have hsame := standing_recovering hstill now
      refine ⟨⟨.raised hopen (hsame.trans h.standing) (h.opened.trans ho) h.updated, fun _ => ?_⟩,
        fun _ => h.updated⟩
      exact h.reports.congr rfl rfl rfl rfl rfl
    · simp only [hrel, Bool.false_eq_true, if_false]
      have h := raised_updateEpisode hopen hknown now (positiveClass adm)
      exact ⟨h.charted hopen ho onset, fun _ => h.updated⟩
  | recovering =>
    have hopen : d.hasOpenEpisode = true := by simp [hasOpenEpisode, hs]
    by_cases hrun : d.onsetRunActive = true
    · dsimp only
      rw [if_pos hrun]
      have hmerged : (r.explain ReasonCode.episodeMerged 0 0 now).evidence.capacityKnown =
          decide (m.capacityBytes ≠ 0) := hknown
      have hopened : (r.explain ReasonCode.episodeMerged 0 0 now).opened = false := ho
      rw [← standing_merged hopen]
      generalize r.explain ReasonCode.episodeMerged 0 0 now = r₁ at *
      have h := raised_updateEpisode (r := r₁) (d := { d with
        state := .active, releaseSustaining := false, releaseProgressTicks := 0 }) rfl hmerged now
        (positiveClass adm)
      exact ⟨h.charted rfl hopened onset, fun _ => h.updated⟩
    · simp only [hrun, Bool.false_eq_true, if_false]
      by_cases hcool : forwardGap d.recoveryStartTick now ≥ d.policy.detection.cooldownTicks
      · simp only [hcool, if_true]
        have h := raised_updateEpisode hopen hknown now .recovering
        have hcur := congrArg Current.isOpen (d.current_updateEpisode now r m)
        generalize d.updateEpisode now m r = u at *
        have hstill : u.1.hasOpenEpisode = true := hcur.trans hopen
        have hclosed := u.1.closed_closeEpisode CloseReason.releaseConfirmed now u.2 false
        refine ⟨(h.charted hopen ho onset).close hstill h.updated _ _, fun hopen' => ?_⟩
        rw [show _ = false from hclosed] at hopen'
        cases hopen'
      · simp only [hcool, if_false]
        have h := raised_updateEpisode hopen hknown now .recovering
        exact ⟨h.charted hopen ho onset, fun _ => h.updated⟩

theorem charted_enforceCeiling {m : EvidenceWindow.Metrics} {now onset : Tick} {s : Standing}
    {d : Detector} {r : DetectionDecision} (h : Charted m now onset s d r)
    (hopen : d.hasOpenEpisode = true → r.updated = true) :
    Charted m now onset s (d.enforceCeiling now r).1 (d.enforceCeiling now r).2 := by
  rw [enforceCeiling]
  by_cases hover : (d.hasOpenEpisode &&
      d.episode.metrics.durationTicks ≥ d.policy.detection.maxEpisodeTicks) = true
  · have hstill : d.hasOpenEpisode = true := by
      rw [Bool.and_eq_true] at hover
      exact hover.1
    have h' : Charted m now onset s d (r.explain ReasonCode.episodeTimedOut
        d.episode.metrics.durationTicks.toInt64 d.policy.detection.maxEpisodeTicks.toInt64 now) :=
      ⟨h.progress, fun hu => (h.reports hu).congr rfl rfl rfl rfl rfl⟩
    simp only [hover, if_true]
    exact h'.close hstill (hopen hstill) _ _
  · simp only [hover, Bool.false_eq_true, if_false]
    exact h

/-! ### Evaluations -/

theorem charted_evaluateAdmissible {d : Detector} {r : DetectionDecision}
    {m : EvidenceWindow.Metrics} (ho : r.opened = false) (hu : r.updated = false)
    (hknown : r.evidence.capacityKnown = decide (m.capacityBytes ≠ 0)) (now : Tick) (gap : UInt64)
    (adm : Admissibility) :
    Charted m now (d.onsetRun.getD now) d.standing (d.evaluateAdmissible now gap m adm r).1
      (d.evaluateAdmissible now gap m adm r).2 := by
  obtain ⟨d', r', cooldownOk, releaseNow, heq, -, -, hrun, hv, -, -, hepisode, hstate, hevidence⟩ :=
    d.evaluateAdmissible_eq now gap m adm r
  have ho' := (congrArg DetectionDecision.Verdict.opened hv).trans ho
  have hu' := (congrArg DetectionDecision.Verdict.updated hv).trans hu
  have hstanding : d'.standing = d.standing := by
    simp only [standing, hasOpenEpisode, hepisode, hstate]
  have honset : ∀ start ∈ d'.onsetRun, start = d.onsetRun.getD now := by
    intro start hstart
    rcases hrun with hnone | hsome
    · rw [hnone] at hstart
      cases hstart
    · rw [hsome, Option.mem_some_iff] at hstart
      exact hstart.symm
  obtain ⟨hcharted, hopen⟩ :=
    charted_transition ho' hu' (hevidence ▸ hknown) honset now adm cooldownOk releaseNow
  rw [heq, ← hstanding]
  exact charted_enforceCeiling hcharted hopen

theorem charted_evaluateInadmissible {d : Detector} {r : DetectionDecision} (ho : r.opened = false)
    (hu : r.updated = false) (m : EvidenceWindow.Metrics) (now onset : Tick) (adm : Admissibility) :
    Charted m now onset d.standing (d.evaluateInadmissible now adm r).1
      (d.evaluateInadmissible now adm r).2 := by
  unfold evaluateInadmissible
  extract_lets dp r₁ d₁ staleExcess held reason
  have hd₁ : d₁.standing = d.standing := by
    dsimp only [d₁]
    split <;> rfl
  have ho₁ : r₁.opened = false := ho
  have hu₁ : r₁.updated = false := hu
  by_cases hopen : d.hasOpenEpisode = true
  · rw [if_neg (by simp [hopen])]
    by_cases hheld : held ≤ dp.evidenceGraceTicks
    · rw [if_pos hheld, ← hd₁]
      exact .of_kept ho₁ hu₁
    · rw [if_neg hheld]
      have hstanding := d₁.standing_closeEpisode now r₁ reason true
      have hclosed := d₁.reportsClosed_closeEpisode now r₁ reason true
      generalize d₁.closeEpisode reason now r₁ true = e at *
      have hu₂ : e.2.updated = false := hclosed.updated.trans hu₁
      rw [hd₁] at hstanding
      exact ⟨.fenced hopen hstanding (hclosed.opened.trans ho₁) hu₂,
        fun h => absurd (hu₂.symm.trans h) Bool.false_ne_true⟩
  · rw [if_pos (by simpa using hopen)]
    exact .of_kept ho₁ hu₁

/-- The newest sample of a window shows its capacity, or the capacity is unknown. -/
theorem capacityKnown_metrics (w : EvidenceWindow) (policy : DetectionPolicy) :
    (w.metrics policy).capacityKnown = decide ((w.metrics policy).capacityBytes ≠ 0) := by
  rw [EvidenceWindow.metrics]
  split <;> rfl

/-- EVALUATION: what a fresh evaluation does to the standing of the episode. -/
theorem charted_evaluateFresh (d : Detector) (now : Tick) :
    Charted d.readMetrics now (d.onsetRun.getD now) d.standing (d.evaluateFresh now).1
      (d.evaluateFresh now).2 := by
  unfold evaluateFresh
  extract_lets gap d₁ metrics r₀ adm r₁
  have hv : r₁.verdict = (d.newDecision now).verdict := verdict_explainEvidence ..
  have ho : r₁.opened = false := congrArg DetectionDecision.Verdict.opened hv
  have hu : r₁.updated = false := congrArg DetectionDecision.Verdict.updated hv
  have hknown : r₁.evidence.capacityKnown = decide (metrics.capacityBytes ≠ 0) := by
    have hevidence : r₁.evidence = r₀.evidence := evidence_explainEvidence ..
    rw [hevidence]
    exact capacityKnown_metrics d.window d.policy.detection
  have hstanding : d₁.standing = d.standing := rfl
  have hrun : d₁.onsetRun = d.onsetRun := rfl
  have hmetrics : d.readMetrics = metrics := rfl
  rw [hmetrics, ← hstanding, ← hrun]
  clear_value d₁ r₁ adm metrics gap
  have finish : ∀ e : Detector × DetectionDecision,
      Charted metrics now (d₁.onsetRun.getD now) d₁.standing e.1 e.2 →
      Charted metrics now (d₁.onsetRun.getD now) d₁.standing { e.1 with lastDecision := e.2 } e.2 :=
    fun e h => ⟨h.progress, h.reports⟩
  cases adm.admissible with
  | false => exact finish _ (charted_evaluateInadmissible ho hu metrics now _ adm)
  | true => exact finish _ (charted_evaluateAdmissible ho hu hknown now gap adm)

/-! ### Calls that evaluate nothing -/

theorem standing_offerSample (d : Detector) (sample : Sample) :
    (d.offerSample sample).standing = d.standing := by
  obtain ⟨resourceGeneration, window, lastAccept, h⟩ := d.offerSample_eq sample
  rw [h]
  rfl

theorem standing_fenceDecision (d : Detector) (reason : CloseReason) (now : Tick) :
    (d.fenceDecision reason now).1.standing = d.standing.close now .fenced := rfl

/-- A call that evaluates nothing leaves the standing alone, or closes an open episode at its tick. -/
theorem standing_not_evaluating {d : Detector} {c : Call} (h : d.evaluating c = none) :
    (d.call c).1.standing = d.standing ∨
      (d.hasOpenEpisode = true ∧ (d.call c).1.standing = d.standing.close c.tick .fenced) := by
  cases unevaluated_call h with
  | kept _ same _ =>
    rw [same]
    exact Or.inl rfl
  | offered _ sample _ _ now _ =>
    rw [now]
    exact Or.inl (d.standing_offerSample sample)
  | fenced fences reason _ _ _ _ now _ =>
    rw [now]
    exact Or.inr ⟨open_of_fencing fences, d.standing_fenceDecision reason c.tick⟩

/-- A call that evaluates starts from the standing it was called on. -/
theorem standing_evaluating {d e : Detector} {c : Call} {now : Tick}
    (h : d.evaluating c = some (e, now)) : e.standing = d.standing := by
  cases evaluates_of_evaluating h with
  | ingest _ _ _ _ => exact d.standing_offerSample _
  | advance _ => rfl

end Detector

end Mbg
