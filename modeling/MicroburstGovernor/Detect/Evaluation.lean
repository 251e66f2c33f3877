import MicroburstGovernor.Detect.Detector

/-! What one evaluation does: the fields it leaves alone, and what its decision says about the
    episode of its detector. -/

namespace Mbg

/-! ### Explanations change nothing else -/

namespace DetectionDecision

variable (r : DetectionDecision) (applies : Bool) (code : ReasonCode) (observed threshold : Int64)
  (tick : Tick)

theorem explainIf_eq : ∃ explanation,
    r.explainIf applies code observed threshold tick = { r with explanation } := by
  cases applies with
  | false => exact ⟨r.explanation, rfl⟩
  | true => exact ⟨_, rfl⟩

/-- What a decision says about the episode of its stream, its explanation left out. -/
structure Verdict where
  classification : Classification
  authority : EvidenceAuthority
  severity : SeverityClass
  stream : StreamKey
  tick : Tick
  event : EventId
  opened : Bool
  updated : Bool
  closed : Bool
  fenced : Bool

def verdict : Verdict :=
  ⟨r.classification, r.authority, r.severity, r.stream, r.tick, r.event, r.opened, r.updated,
    r.closed, r.fenced⟩

@[simp] theorem verdict_explain : (r.explain code observed threshold tick).verdict = r.verdict := rfl

@[simp] theorem verdict_explainIf :
    (r.explainIf applies code observed threshold tick).verdict = r.verdict := by
  cases applies <;> rfl

@[simp] theorem evidence_explainIf :
    (r.explainIf applies code observed threshold tick).evidence = r.evidence := by
  cases applies <;> rfl

end DetectionDecision

namespace Detector

/-! ### Views of a detector -/

/-- What identifies the episode of a detector: whether it is open, its identity and its onset. -/
structure Current where
  key : StreamKey
  isOpen : Bool
  id : EventId
  onset : Tick

def current (d : Detector) : Current :=
  ⟨d.key, d.hasOpenEpisode, d.episode.id, d.episode.metrics.onsetTick⟩

/-- The start of the onset run in progress. -/
def onsetRun (d : Detector) : Option Tick := if d.onsetRunActive then some d.onsetStartTick else none

/-- What an evaluation reads and leaves alone, the clock apart. -/
structure Setup where
  key : StreamKey
  policy : Policy
  generation : PolicyGeneration
  resourceGeneration : ResourceGeneration
  window : EvidenceWindow
  hasEvaluated : Bool
  lastEvaluated : Tick
  lastAccept : WindowAccept

def setup (d : Detector) : Setup :=
  ⟨d.key, d.policy, d.generation, d.resourceGeneration, d.window, d.hasEvaluated, d.lastEvaluated,
    d.lastAccept⟩

/-- What a decision announces of an evaluation that took the episode from `c` to `c'`. -/
inductive Announces (c c' : Current) (v : DetectionDecision.Verdict) : Prop where
  | kept (same : c' = c) (opened : v.opened = false) (updated : v.updated = false)
      (closed : v.closed = false) (negative : v.classification.isPositive = false)
  | opened (wasOpen : c.isOpen = false)
      (now : c' = ⟨c.key, true, makeEventId c.key c'.onset, c'.onset⟩)
      (opened : v.opened = true) (closed : v.closed = false) (event : v.event = c'.id)
  | openedClosed (wasOpen : c.isOpen = false)
      (now : c' = ⟨c.key, false, makeEventId c.key c'.onset, c'.onset⟩)
      (opened : v.opened = true) (closed : v.closed = true)
      (negative : v.classification.isPositive = false)
  | updated (wasOpen : c.isOpen = true) (same : c' = c) (opened : v.opened = false)
      (updated : v.updated = true) (closed : v.closed = false) (event : v.event = c'.id)
  | closed (wasOpen : c.isOpen = true) (now : c' = { c with isOpen := false })
      (opened : v.opened = false) (closed : v.closed = true)
      (negative : v.classification.isPositive = false)

namespace Announces

variable {c c' : Current} {v : DetectionDecision.Verdict}

/-- An opening starts from no open episode and names the new one by its onset. -/
theorem of_opened (h : Announces c c' v) (ho : v.opened = true) :
    c.isOpen = false ∧ c' = ⟨c.key, !v.closed, makeEventId c.key c'.onset, c'.onset⟩ := by
  cases h with
  | kept _ opened => rw [ho] at opened; cases opened
  | opened wasOpen now _ closed => exact ⟨wasOpen, by rw [closed]; exact now⟩
  | openedClosed wasOpen now _ closed => exact ⟨wasOpen, by rw [closed]; exact now⟩
  | updated _ _ opened => rw [ho] at opened; cases opened
  | closed _ _ opened => rw [ho] at opened; cases opened

/-- An open episode stays as it is or is closed. -/
theorem of_open (h : Announces c c' v) (hc : c.isOpen = true) : v.opened = false ∧
    (c' = c ∧ v.closed = false ∨ c' = { c with isOpen := false } ∧ v.closed = true) := by
  cases h with
  | kept same opened _ closed => exact ⟨opened, Or.inl ⟨same, closed⟩⟩
  | opened wasOpen => rw [hc] at wasOpen; cases wasOpen
  | openedClosed wasOpen => rw [hc] at wasOpen; cases wasOpen
  | updated _ same opened _ closed => exact ⟨opened, Or.inl ⟨same, closed⟩⟩
  | closed _ now opened closed => exact ⟨opened, Or.inr ⟨now, closed⟩⟩

/-- With no episode open and none opened, nothing happens to it. -/
theorem of_idle (h : Announces c c' v) (hc : c.isOpen = false) (ho : v.opened = false) :
    c' = c ∧ v.updated = false ∧ v.closed = false := by
  cases h with
  | kept same _ updated closed => exact ⟨same, updated, closed⟩
  | opened _ _ opened => rw [ho] at opened; cases opened
  | openedClosed _ _ opened => rw [ho] at opened; cases opened
  | updated wasOpen => rw [hc] at wasOpen; cases wasOpen
  | closed wasOpen => rw [hc] at wasOpen; cases wasOpen

/-- A positive decision names the episode it leaves open. -/
theorem event_of_positive (h : Announces c c' v) (hv : v.classification.isPositive = true) :
    c'.isOpen = true ∧ v.event = c'.id := by
  cases h with
  | kept _ _ _ _ negative => rw [hv] at negative; cases negative
  | opened _ now _ _ event => exact ⟨by rw [now], event⟩
  | openedClosed _ _ _ _ negative => rw [hv] at negative; cases negative
  | updated wasOpen same _ _ _ event => exact ⟨same ▸ wasOpen, event⟩
  | closed _ _ _ _ negative => rw [hv] at negative; cases negative

/-- A closing decision leaves no episode open. -/
theorem not_closed_of_open (h : Announces c c' v) (hc : c'.isOpen = true) : v.closed = false := by
  cases h with
  | kept _ _ _ closed => exact closed
  | opened _ _ _ closed => exact closed
  | openedClosed _ now => rw [now] at hc; cases hc
  | updated _ _ _ _ closed => exact closed
  | closed _ now => rw [now] at hc; cases hc

end Announces

/-- What a positive decision claims under admissible evidence and a policy. -/
structure Claims (adm : Admissibility) (dp : DetectionPolicy) (v : DetectionDecision.Verdict) :
    Prop where
  microburst : v.classification = .microburst →
    adm.degradedAllowed = false ∧ v.authority = .authoritative
  degraded : v.classification = .degradedMicroburst →
    adm.degradedAllowed = true ∧ v.authority = .degraded ∧
      v.severity.raw ≤ dp.degradedSeverityCap.raw

theorem claims_of_negative {adm : Admissibility} {dp : DetectionPolicy}
    {v : DetectionDecision.Verdict} (h : v.classification.isPositive = false) : Claims adm dp v := by
  constructor <;> intro hc <;> rw [hc] at h <;> exact absurd h (by decide)

/-! ### Episodes -/

section

variable (d : Detector) (now : Tick) (r : DetectionDecision)

@[simp] theorem setup_openEpisode : (d.openEpisode now r).1.setup = d.setup := rfl

theorem current_openEpisode : (d.openEpisode now r).1.current =
    ⟨d.key, true, makeEventId d.key d.onsetStartTick, d.onsetStartTick⟩ := rfl

theorem verdict_openEpisode : (d.openEpisode now r).2.verdict =
    { r.verdict with opened := true, event := makeEventId d.key d.onsetStartTick } := rfl

@[simp] theorem setup_updateEpisode (m : EvidenceWindow.Metrics) :
    (d.updateEpisode now m r).1.setup = d.setup := by
  rw [updateEpisode]; split <;> rfl

@[simp] theorem current_updateEpisode (m : EvidenceWindow.Metrics) :
    (d.updateEpisode now m r).1.current = d.current := by
  rw [updateEpisode]; split <;> rfl

theorem verdict_capSeverity (s : SeverityClass) :
    (d.capSeverity now s r).2.verdict = r.verdict := by
  rw [capSeverity]
  split
  · exact r.verdict_explainIf _ _ _ _ _
  · rfl

/-- Degraded evidence never claims more than the policy's cap. -/
theorem capSeverity_le (s : SeverityClass) (h : r.authority = .degraded) :
    (d.capSeverity now s r).1.raw ≤ d.policy.detection.degradedSeverityCap.raw := by
  rw [capSeverity, if_pos h]
  exact severityMin_raw_le_right _ _

/-- An update of an open episode names it, under a severity within the cap. -/
theorem verdict_updateEpisode (m : EvidenceWindow.Metrics) (h : d.hasOpenEpisode = true) :
    ∃ severity, (d.updateEpisode now m r).2.verdict =
        { r.verdict with severity, event := d.episode.id, updated := true } ∧
      (r.authority = .degraded →
        severity.raw ≤ d.policy.detection.degradedSeverityCap.raw) := by
  rw [updateEpisode, if_neg (by simp [h])]
  dsimp only
  generalize classify _ _ _ _ _ = graded
  have hv := d.verdict_capSeverity now { r with explanation := graded.2 } graded.1.overall
  have hle := d.capSeverity_le now { r with explanation := graded.2 } graded.1.overall
  refine ⟨_, ?_, hle⟩
  clear hle
  generalize d.capSeverity now graded.1.overall { r with explanation := graded.2 } = capped at *
  simp only [DetectionDecision.verdict, DetectionDecision.Verdict.mk.injEq] at hv ⊢
  simp [hv]

@[simp] theorem setup_closeEpisode (reason : CloseReason) (fenced : Bool) :
    (d.closeEpisode reason now r fenced).1.setup = d.setup := rfl

theorem current_closeEpisode (reason : CloseReason) (fenced : Bool) :
    (d.closeEpisode reason now r fenced).1.current = { d.current with isOpen := false } := rfl

theorem verdict_closeEpisode (reason : CloseReason) (fenced : Bool) :
    ∃ severity, (d.closeEpisode reason now r fenced).2.verdict =
      { r.verdict with severity, event := d.episode.id, closed := true, fenced } := by
  refine ⟨d.episode.severity, ?_⟩
  simp only [closeEpisode, DetectionDecision.verdict_explainIf, DetectionDecision.verdict_explain]
  rfl

end

/-! ### The state machine -/

section

variable (d : Detector) (now : Tick)

/-- Onset accounting leaves the setup and the episode alone. -/
theorem frame_trackOnset (gap : UInt64) (depthOk slopeOk : Bool) :
    (d.trackOnset now gap depthOk slopeOk).setup = d.setup ∧
      (d.trackOnset now gap depthOk slopeOk).current = d.current := by
  rw [trackOnset]
  cases depthOk with
  | false => exact ⟨rfl, rfl⟩
  | true =>
    rw [if_pos rfl]
    extract_lets d'
    have h : d'.setup = d.setup ∧ d'.current = d.current := by
      dsimp only [d']
      cases d.onsetRunActive <;> exact ⟨rfl, rfl⟩
    split <;> exact h

theorem frame_trackRelease (gap : UInt64) (releaseNow : Bool) :
    (d.trackRelease gap releaseNow).setup = d.setup ∧
      (d.trackRelease gap releaseNow).current = d.current := by
  rw [trackRelease]
  split
  · split <;> simp only [setup, current, hasOpenEpisode, and_self]
  · exact ⟨rfl, rfl⟩

theorem onsetRun_trackRelease (gap : UInt64) (releaseNow : Bool) :
    (d.trackRelease gap releaseNow).onsetRun = d.onsetRun := by
  rw [trackRelease]
  split
  · split <;> simp only [onsetRun]
  · simp only [onsetRun]

/-- Neither accounting touches the cooldown, the state machine or the episode. -/
theorem untouched_trackOnset (gap : UInt64) (depthOk slopeOk : Bool) :
    (d.trackOnset now gap depthOk slopeOk).cooldownUntil = d.cooldownUntil ∧
      (d.trackOnset now gap depthOk slopeOk).episode = d.episode ∧
        (d.trackOnset now gap depthOk slopeOk).state = d.state := by
  rw [trackOnset]
  cases depthOk with
  | false => exact ⟨rfl, rfl, rfl⟩
  | true =>
    rw [if_pos rfl]
    extract_lets d'
    have h : d'.cooldownUntil = d.cooldownUntil ∧ d'.episode = d.episode ∧ d'.state = d.state := by
      dsimp only [d']
      cases d.onsetRunActive <;> exact ⟨rfl, rfl, rfl⟩
    split <;> exact h

theorem untouched_trackRelease (gap : UInt64) (releaseNow : Bool) :
    (d.trackRelease gap releaseNow).cooldownUntil = d.cooldownUntil ∧
      (d.trackRelease gap releaseNow).episode = d.episode ∧
        (d.trackRelease gap releaseNow).state = d.state := by
  rw [trackRelease]
  split
  · split <;> exact ⟨rfl, rfl, rfl⟩
  · exact ⟨rfl, rfl, rfl⟩

/-- Onset accounting ends the run, or keeps the one in progress, or starts one now. -/
theorem onsetRun_trackOnset (gap : UInt64) (depthOk slopeOk : Bool) :
    (d.trackOnset now gap depthOk slopeOk).onsetRun = none ∨
      (d.trackOnset now gap depthOk slopeOk).onsetRun = some (d.onsetRun.getD now) := by
  rw [trackOnset]
  cases depthOk with
  | false => exact Or.inl rfl
  | true =>
    rw [if_pos rfl]
    extract_lets d'
    have h : d'.onsetRun = some (d.onsetRun.getD now) := by
      dsimp only [d']
      cases hrun : d.onsetRunActive with
      | true => simp [onsetRun, hrun]
      | false => simp [onsetRun, hrun]
    split <;> exact Or.inr h

end

/-- A decision no rule was applied to yet, under the authority its evidence has. -/
structure Undecided (adm : Admissibility) (v : DetectionDecision.Verdict) : Prop where
  authority : v.authority = if adm.degradedAllowed then .degraded else .authoritative
  opened : v.opened = false
  updated : v.updated = false
  closed : v.closed = false

/-- The relation between a detector and an undecided decision before, and both after. -/
structure Decides (adm : Admissibility) (d : Detector) (r : DetectionDecision) (d' : Detector)
    (r' : DetectionDecision) : Prop where
  setup : d'.setup = d.setup
  announces : Announces d.current d'.current r'.verdict
  claims : Claims adm d.policy.detection r'.verdict
  tick : r'.tick = r.tick
  stream : r'.stream = r.stream

theorem claims_positiveClass {adm : Admissibility} {dp : DetectionPolicy}
    {v : DetectionDecision.Verdict}
    (hauth : v.authority = if adm.degradedAllowed then .degraded else .authoritative)
    (hsev : v.authority = .degraded → v.severity.raw ≤ dp.degradedSeverityCap.raw)
    (hclass : v.classification = positiveClass adm) : Claims adm dp v := by
  rw [positiveClass] at hclass
  cases ha : adm.degradedAllowed with
  | true =>
    rw [ha] at hauth hclass
    exact ⟨fun h => by simp [hclass] at h, fun _ => ⟨ha, hauth, hsev hauth⟩⟩
  | false =>
    rw [ha] at hauth hclass
    exact ⟨fun _ => ⟨ha, hauth⟩, fun h => by simp [hclass] at h⟩

/-- An open episode is updated and keeps a positive classification. -/
theorem decides_updateEpisode {adm : Admissibility} {d : Detector} {r : DetectionDecision}
    (hr : Undecided adm r.verdict) (h : d.hasOpenEpisode = true) (now : Tick)
    (m : EvidenceWindow.Metrics) (c : Classification) (hc : c.isPositive → c = positiveClass adm) :
    Decides adm d r (d.updateEpisode now m r).1
      { (d.updateEpisode now m r).2 with classification := c } := by
  obtain ⟨severity, hv, hsev⟩ := d.verdict_updateEpisode now r m h
  have hset := d.setup_updateEpisode now r m
  have hcur := d.current_updateEpisode now r m
  generalize d.updateEpisode now m r = u at *
  have hv' : DetectionDecision.verdict { u.2 with classification := c } =
      { u.2.verdict with classification := c } := rfl
  rw [hv] at hv'
  refine ⟨hset, ?_, ?_, congrArg DetectionDecision.Verdict.tick hv',
    congrArg DetectionDecision.Verdict.stream hv'⟩
  · rw [hv', hcur]
    exact .updated h rfl hr.opened rfl hr.closed rfl
  · rw [hv']
    cases hp : c.isPositive with
    | false => exact claims_of_negative hp
    | true => exact claims_positiveClass hr.authority hsev (hc hp)

/-- A detector that opens an episode and updates it at once. -/
theorem decides_openEpisode {adm : Admissibility} {d : Detector} {r : DetectionDecision}
    (hr : Undecided adm r.verdict) (h : d.hasOpenEpisode = false) (now : Tick)
    (m : EvidenceWindow.Metrics) :
    let o := d.openEpisode now r
    Decides adm d r (o.1.updateEpisode now m o.2).1
      { (o.1.updateEpisode now m o.2).2 with classification := positiveClass adm } := by
  intro o
  have ho : o.1.hasOpenEpisode = true := rfl
  have hov := d.verdict_openEpisode now r
  have hoc := d.current_openEpisode now r
  have hid : o.1.episode.id = o.1.current.id := rfl
  obtain ⟨severity, hv, hsev⟩ := o.1.verdict_updateEpisode now o.2 m ho
  have hset := o.1.setup_updateEpisode now o.2 m
  have hcur := o.1.current_updateEpisode now o.2 m
  have hos : o.1.setup = d.setup := rfl
  have hpol : o.1.policy = d.policy := rfl
  change o.2.verdict = _ at hov
  change o.1.current = _ at hoc
  clear_value o
  generalize o.1.updateEpisode now m o.2 = u at *
  rw [hid, hoc, hov] at hv
  have hclass : DetectionDecision.verdict { u.2 with classification := positiveClass adm } =
      { u.2.verdict with classification := positiveClass adm } := rfl
  rw [hv] at hclass
  refine ⟨hset.trans hos, ?_, ?_, congrArg DetectionDecision.Verdict.tick hclass,
    congrArg DetectionDecision.Verdict.stream hclass⟩
  · rw [hcur, hoc, hclass]
    exact .opened h rfl rfl hr.closed rfl
  · rw [hclass]
    refine claims_positiveClass hr.authority (fun ha => ?_) rfl
    have hle := hsev ((congrArg DetectionDecision.Verdict.authority hov).trans ha)
    rwa [hpol] at hle

/-- Views that agree decide alike. -/
theorem Decides.congr {adm : Admissibility} {d₀ d d' d₁ : Detector}
    {r₀ r r' r₁ : DetectionDecision} (h : Decides adm d r d' r') (hs : d.setup = d₀.setup)
    (hc : d.current = d₀.current) (hr : r.tick = r₀.tick ∧ r.stream = r₀.stream)
    (hs' : d₁.setup = d'.setup)
    (hc' : d₁.current = d'.current) (hv' : r₁.verdict = r'.verdict) :
    Decides adm d₀ r₀ d₁ r₁ := by
  have hp : d.policy = d₀.policy := congrArg Setup.policy hs
  refine ⟨hs'.trans (h.setup.trans hs), ?_, ?_, ?_, ?_⟩
  · rw [hc', hv', ← hc]; exact h.announces
  · rw [hv', ← hp]; exact h.claims
  · exact (congrArg DetectionDecision.Verdict.tick hv').trans
      (h.tick.trans hr.1)
  · exact (congrArg DetectionDecision.Verdict.stream hv').trans
      (h.stream.trans hr.2)

/-- What was opened or updated is closed by the same evaluation. -/
theorem Decides.close {adm : Admissibility} {d d' : Detector} {r r' : DetectionDecision}
    (h : Decides adm d r d' r') (hopen : d'.hasOpenEpisode = true) (reason : CloseReason)
    (now : Tick) (c : Classification) :
    let e := d'.closeEpisode reason now { r' with classification := c } false
    Decides adm d r e.1 { e.2 with classification := .quiescent } := by
  intro e
  obtain ⟨severity, hv⟩ := d'.verdict_closeEpisode now { r' with classification := c } reason false
  have hset := d'.setup_closeEpisode now { r' with classification := c } reason false
  have hcur := d'.current_closeEpisode now { r' with classification := c } reason false
  change e.2.verdict = _ at hv
  change e.1.setup = _ at hset
  change e.1.current = _ at hcur
  clear_value e
  have hv' : DetectionDecision.verdict { e.2 with classification := .quiescent } =
      { e.2.verdict with classification := .quiescent } := rfl
  rw [hv] at hv'
  have hc : d'.current.isOpen = true := hopen
  refine ⟨hset.trans h.setup, ?_, ?_, ?_, ?_⟩
  · rw [hv', hcur]
    cases h.announces with
    | kept same opened updated closed negative =>
      exact .closed (same ▸ hc) (by rw [same]) opened rfl rfl
    | opened wasOpen now opened closed event =>
      exact .openedClosed wasOpen (by rw [now]) opened rfl rfl
    | openedClosed wasOpen now => rw [now] at hc; exact absurd hc Bool.false_ne_true
    | updated wasOpen same opened updated closed event =>
      exact .closed wasOpen (by rw [same]) opened rfl rfl
    | closed wasOpen now => rw [now] at hc; exact absurd hc Bool.false_ne_true
  · rw [hv']; exact claims_of_negative rfl
  · exact (congrArg DetectionDecision.Verdict.tick hv').trans h.tick
  · exact (congrArg DetectionDecision.Verdict.stream hv').trans h.stream

/-- The machine announces what it does to the episode, and claims what the evidence allows. -/
theorem decides_transition {adm : Admissibility} {d : Detector} {r : DetectionDecision}
    (hr : Undecided adm r.verdict) (now : Tick) (m : EvidenceWindow.Metrics)
    (cooldownOk releaseNow : Bool) :
    Decides adm d r (d.transition now m adm cooldownOk releaseNow r).1
      (d.transition now m adm cooldownOk releaseNow r).2 := by
  rw [transition]
  cases hs : d.state with
  | idle =>
    have hclosed : d.hasOpenEpisode = false := by simp [hasOpenEpisode, hs]
    by_cases hopen : (d.onsetConfirmed && cooldownOk) = true
    · simp only [hopen, if_true]
      exact decides_openEpisode hr hclosed now m
    · simp only [hopen, Bool.false_eq_true, if_false]
      split
      · exact ⟨rfl, .kept rfl hr.opened hr.updated hr.closed rfl, claims_of_negative rfl, rfl, rfl⟩
      · exact ⟨rfl, .kept rfl hr.opened hr.updated hr.closed rfl, claims_of_negative rfl, rfl, rfl⟩
  | active =>
    have hopen : d.hasOpenEpisode = true := by simp [hasOpenEpisode, hs]
    by_cases hrel : d.releaseConfirmed releaseNow = true
    · simp only [hrel, if_true]
      have h := decides_updateEpisode hr hopen now m .recovering (by simp [Classification.isPositive])
      have ho : (d.updateEpisode now m r).1.hasOpenEpisode = true :=
        (congrArg Current.isOpen (d.current_updateEpisode now r m)).trans hopen
      generalize d.updateEpisode now m r = u at *
      exact h.congr rfl rfl ⟨rfl, rfl⟩ rfl (by simp only [current, ho]; rfl) rfl
    · simp only [hrel, Bool.false_eq_true, if_false]
      exact decides_updateEpisode hr hopen now m _ fun _ => rfl
  | recovering =>
    have hopen : d.hasOpenEpisode = true := by simp [hasOpenEpisode, hs]
    by_cases hrun : d.onsetRunActive = true
    · simp only [hrun, if_true]
      exact (decides_updateEpisode (d := { d with
          state := .active, releaseSustaining := false, releaseProgressTicks := 0 })
        (r := r.explain ReasonCode.episodeMerged 0 0 now) hr rfl now m _ fun _ => rfl).congr
        rfl (by simp only [current, hopen]; rfl) ⟨rfl, rfl⟩ rfl rfl rfl
    · simp only [hrun, Bool.false_eq_true, if_false]
      by_cases hcool : forwardGap d.recoveryStartTick now ≥ d.policy.detection.cooldownTicks
      · simp only [hcool, if_true]
        have h := decides_updateEpisode hr hopen now m .recovering
          (by simp [Classification.isPositive])
        have ho : (d.updateEpisode now m r).1.hasOpenEpisode = true :=
          (congrArg Current.isOpen (d.current_updateEpisode now r m)).trans hopen
        generalize d.updateEpisode now m r = u at *
        exact h.close ho _ now _
      · simp only [hcool, if_false]
        exact decides_updateEpisode hr hopen now m _ (by simp [Classification.isPositive])

theorem decides_enforceCeiling {adm : Admissibility} {d d' : Detector} {r r' : DetectionDecision}
    (h : Decides adm d r d' r') (now : Tick) :
    Decides adm d r (d'.enforceCeiling now r').1 (d'.enforceCeiling now r').2 := by
  rw [enforceCeiling]
  by_cases hover : (d'.hasOpenEpisode &&
      d'.episode.metrics.durationTicks ≥ d'.policy.detection.maxEpisodeTicks) = true
  · have hopen : d'.hasOpenEpisode = true := by simp only [Bool.and_eq_true] at hover; exact hover.1
    have h' : Decides adm d r d' (r'.explain ReasonCode.episodeTimedOut
        d'.episode.metrics.durationTicks.toInt64 d'.policy.detection.maxEpisodeTicks.toInt64 now) :=
      h.congr rfl rfl ⟨rfl, rfl⟩ rfl rfl rfl
    simp only [hover, if_true]
    exact h'.close hopen _ now _
  · simp only [hover, Bool.false_eq_true, if_false]
    exact h

/-- Admissible evidence: after the accounting, the state machine and the ceiling. -/
theorem evaluateAdmissible_eq (d : Detector) (now : Tick) (gap : UInt64)
    (m : EvidenceWindow.Metrics) (adm : Admissibility) (r : DetectionDecision) :
    ∃ (d' : Detector) (r' : DetectionDecision) (cooldownOk releaseNow : Bool),
      d.evaluateAdmissible now gap m adm r =
        ((d'.transition now m adm cooldownOk releaseNow r').1.enforceCeiling now
          (d'.transition now m adm cooldownOk releaseNow r').2) ∧
      d'.setup = d.setup ∧ d'.current = d.current ∧
      (d'.onsetRun = none ∨ d'.onsetRun = some (d.onsetRun.getD now)) ∧
      r'.verdict = { r.verdict with
        authority := if adm.degradedAllowed then .degraded else .authoritative } ∧
      d'.cooldownUntil = d.cooldownUntil ∧ cooldownOk = (!d.inCooldown now) ∧
      d'.episode = d.episode ∧ d'.state = d.state ∧ r'.evidence = r.evidence := by
  unfold evaluateAdmissible
  extract_lets dp d₁ r₁ depthOk steepest slopeOk d₂ releaseNow wasOpen r₂ d₃ r₃ cooldownOk r₄ r₅
  obtain ⟨hs₂, hc₂⟩ := d₁.frame_trackOnset now gap depthOk slopeOk
  obtain ⟨hs₃, hc₃⟩ := d₂.frame_trackRelease gap releaseNow
  have hr₂ : r₂.verdict = r₁.verdict := by simp only [r₂, DetectionDecision.verdict_explainIf]
  have hr₃ : r₃.verdict = r₂.verdict := by simp only [r₃, DetectionDecision.verdict_explainIf]
  have hr₄ : r₄.verdict = r₃.verdict := by
    dsimp only [r₄]; cases cooldownOk <;> rfl
  have hr₅ : r₅.verdict = r₄.verdict := rfl
  obtain ⟨hcool₂, hepisode₂, hstate₂⟩ := d₁.untouched_trackOnset now gap depthOk slopeOk
  obtain ⟨hcool₃, hepisode₃, hstate₃⟩ := d₂.untouched_trackRelease gap releaseNow
  have hcool : d₃.cooldownUntil = d.cooldownUntil := hcool₃.trans hcool₂
  have hevidence : r₅.evidence = r.evidence := by
    have hr₅ : r₅.evidence = r₃.evidence := by
      dsimp only [r₅, r₄]; cases cooldownOk <;> rfl
    rw [hr₅]
    simp only [r₃, r₂, DetectionDecision.evidence_explainIf]
    rfl
  refine ⟨d₃, r₅, cooldownOk, releaseNow, rfl, hs₃.trans hs₂, hc₃.trans hc₂, ?_,
    hr₅.trans (hr₄.trans (hr₃.trans hr₂)), hcool, ?_, hepisode₃.trans hepisode₂,
    hstate₃.trans hstate₂, hevidence⟩
  swap
  · dsimp only [cooldownOk]
    rw [inCooldown, hcool, inCooldown]
  rw [show d₃.onsetRun = d₂.onsetRun from d₂.onsetRun_trackRelease gap releaseNow]
  exact d₁.onsetRun_trackOnset now gap depthOk slopeOk

/-- Admissible evidence: a detector decides as its state machine does. -/
theorem decides_evaluateAdmissible (d : Detector) (now : Tick) (gap : UInt64)
    (m : EvidenceWindow.Metrics) (adm : Admissibility) (r : DetectionDecision)
    (ho : r.opened = false) (hu : r.updated = false) (hc : r.closed = false) :
    Decides adm d r (d.evaluateAdmissible now gap m adm r).1
      (d.evaluateAdmissible now gap m adm r).2 := by
  obtain ⟨d', r', cooldownOk, releaseNow, heq, hset, hcur, -, hv, -, -⟩ :=
    d.evaluateAdmissible_eq now gap m adm r
  rw [heq]
  have hundecided : Undecided adm r'.verdict := by
    rw [hv]; exact ⟨rfl, ho, hu, hc⟩
  have h := decides_transition (d := d') hundecided now m cooldownOk releaseNow
  have hsame : r'.tick = r.tick ∧ r'.stream = r.stream :=
    ⟨congrArg DetectionDecision.Verdict.tick hv, congrArg DetectionDecision.Verdict.stream hv⟩
  exact (decides_enforceCeiling h now).congr hset hcur hsame rfl rfl rfl

/-- Inadmissible evidence is never positive; an open episode is kept or closed. -/
theorem decides_evaluateInadmissible (d : Detector) (now : Tick) (adm : Admissibility)
    (r : DetectionDecision) (ho : r.opened = false) (hu : r.updated = false)
    (hc : r.closed = false) :
    Decides adm d r (d.evaluateInadmissible now adm r).1 (d.evaluateInadmissible now adm r).2 ∧
      (d.evaluateInadmissible now adm r).2.classification.isPositive = false := by
  unfold evaluateInadmissible
  extract_lets dp r₁ d₁ staleExcess held reason
  have hd : d₁.setup = d.setup ∧ d₁.current = d.current := by
    dsimp only [d₁]
    split <;> exact ⟨rfl, rfl⟩
  by_cases hopen : d.hasOpenEpisode = true
  · rw [if_neg (by simp [hopen])]
    by_cases hheld : held ≤ dp.evidenceGraceTicks
    · rw [if_pos hheld]
      exact ⟨⟨hd.1, .kept hd.2 ho hu hc rfl, claims_of_negative rfl, rfl, rfl⟩, rfl⟩
    · rw [if_neg hheld]
      obtain ⟨severity, hv⟩ := d₁.verdict_closeEpisode now r₁ reason true
      have hset := (d₁.setup_closeEpisode now r₁ reason true).trans hd.1
      have hcur := d₁.current_closeEpisode now r₁ reason true
      have hcopen : d.current.isOpen = true := hopen
      generalize d₁.closeEpisode reason now r₁ true = e at *
      have hv' : DetectionDecision.verdict { e.2 with classification := .fenced } =
          { e.2.verdict with classification := .fenced } := rfl
      rw [hv] at hv'
      refine ⟨⟨hset, ?_, claims_of_negative rfl, congrArg DetectionDecision.Verdict.tick hv',
        congrArg DetectionDecision.Verdict.stream hv'⟩, rfl⟩
      rw [hv', hcur, hd.2]
      exact .closed hcopen rfl ho rfl rfl
  · rw [if_pos (by simp [hopen])]
    exact ⟨⟨rfl, .kept rfl ho hu hc rfl, claims_of_negative rfl, rfl, rfl⟩, rfl⟩

/-! ### Evaluations -/

theorem verdict_explainEvidence (d : Detector) (m : EvidenceWindow.Metrics) (adm : Admissibility)
    (now : Tick) (r : DetectionDecision) : (d.explainEvidence m adm now r).verdict = r.verdict := by
  simp only [explainEvidence, DetectionDecision.verdict_explain]
  split <;> simp only [DetectionDecision.verdict_explain, DetectionDecision.verdict_explainIf]

/-- The admissibility a detector finds its evidence to have at a tick. -/
def admissibilityAt (d : Detector) (now : Tick) : Admissibility :=
  admissibility d.policy.detection (d.window.metrics d.policy.detection) (d.window.stalenessTicks now)

/-- What a fresh evaluation does: it keeps the setup but moves the clock, announces what it did to
    the episode, is positive on admissible evidence only, and caches its decision. -/
structure Evaluated (d : Detector) (now : Tick) (d' : Detector) (r : DetectionDecision) : Prop where
  setup : d'.setup = { d.setup with hasEvaluated := true, lastEvaluated := now }
  announces : Announces d.current d'.current r.verdict
  claims : Claims (d.admissibilityAt now) d.policy.detection r.verdict
  admissible : r.classification.isPositive = true → (d.admissibilityAt now).admissible = true
  tick : r.tick = now
  stream : r.stream = d.key
  cached : d'.lastDecision = r

/-- An evaluation brings the detector to the tick. -/
theorem Evaluated.atTick {d d' : Detector} {now : Tick} {r : DetectionDecision}
    (h : Evaluated d now d' r) : d'.freshAt now = false := by
  have heval : d'.hasEvaluated = true := congrArg Setup.hasEvaluated h.setup
  have hlast : d'.lastEvaluated = now := congrArg Setup.lastEvaluated h.setup
  rw [freshAt, heval, hlast, tickAfter_self]
  rfl

theorem evaluated_evaluateFresh (d : Detector) (now : Tick) :
    Evaluated d now (d.evaluateFresh now).1 (d.evaluateFresh now).2 := by
  unfold evaluateFresh
  extract_lets gap d₁ metrics r₀ adm r₁
  have hr₁ : r₁.verdict = r₀.verdict := verdict_explainEvidence ..
  have hadm : adm = d.admissibilityAt now := rfl
  have hset : d₁.setup = { d.setup with hasEvaluated := true, lastEvaluated := now } := rfl
  have hcur : d₁.current = d.current := rfl
  have hpol : d₁.policy = d.policy := rfl
  have hnew : r₀.verdict = (d.newDecision now).verdict := rfl
  have hv : r₁.verdict = (d.newDecision now).verdict := hr₁.trans hnew
  have ho : r₁.opened = false := congrArg DetectionDecision.Verdict.opened hv
  have hu : r₁.updated = false := congrArg DetectionDecision.Verdict.updated hv
  have hc : r₁.closed = false := congrArg DetectionDecision.Verdict.closed hv
  have ht : r₁.tick = now := congrArg DetectionDecision.Verdict.tick hv
  have hstream : r₁.stream = d.key := congrArg DetectionDecision.Verdict.stream hv
  clear_value d₁ r₁ adm
  subst hadm
  have finish : ∀ e : Detector × DetectionDecision,
      Decides (d.admissibilityAt now) d₁ r₁ e.1 e.2 →
      (e.2.classification.isPositive = true → (d.admissibilityAt now).admissible = true) →
      Evaluated d now { e.1 with lastDecision := e.2 } e.2 := by
    intro e h hpos
    have ha := h.announces
    have hcl := h.claims
    rw [hcur] at ha
    rw [hpol] at hcl
    exact ⟨h.setup.trans hset, ha, hcl, hpos, h.tick.trans ht, h.stream.trans hstream, rfl⟩
  cases hok : (d.admissibilityAt now).admissible with
  | false =>
    obtain ⟨h, hneg⟩ := decides_evaluateInadmissible d₁ now (d.admissibilityAt now) r₁ ho hu hc
    simp only [Bool.not_false, if_true]
    exact finish _ h fun hpos => by rw [hneg] at hpos; cases hpos
  | true =>
    have h := decides_evaluateAdmissible d₁ now gap metrics (d.admissibilityAt now) r₁ ho hu hc
    simp only [Bool.not_true, Bool.false_eq_true, if_false]
    exact finish _ h fun _ => hok

theorem evaluate_fresh {d : Detector} {now : Tick} (h : d.freshAt now = true) :
    d.evaluate now = d.evaluateFresh now := by
  rw [evaluate, if_pos h]

theorem evaluate_cached {d : Detector} {now : Tick} (h : d.freshAt now = false) :
    d.evaluate now = (d, d.lastDecision) := by
  rw [evaluate, if_neg (by simp [h])]

/-! ### Fencing and ingesting -/

/-- What fencing an open episode does: it is closed under its identity, nothing else changes. -/
structure Fenced (d : Detector) (now : Tick) (d' : Detector) (r : DetectionDecision) : Prop where
  setup : d'.setup = d.setup
  current : d'.current = { d.current with isOpen := false }
  cached : d'.lastDecision = d.lastDecision
  opened : r.opened = false
  updated : r.updated = false
  closed : r.closed = true
  fenced : r.fenced = true
  classification : r.classification = .fenced
  tick : r.tick = now
  stream : r.stream = d.key

theorem fenced_fenceDecision (d : Detector) (reason : CloseReason) (now : Tick) :
    Fenced d now (d.fenceDecision reason now).1 (d.fenceDecision reason now).2 := by
  rw [fenceDecision]
  obtain ⟨severity, hv⟩ := d.verdict_closeEpisode now (d.newDecision now) reason true
  have hset := d.setup_closeEpisode now (d.newDecision now) reason true
  have hcur := d.current_closeEpisode now (d.newDecision now) reason true
  have hlast : (d.closeEpisode reason now (d.newDecision now) true).1.lastDecision =
      d.lastDecision := rfl
  generalize d.closeEpisode reason now (d.newDecision now) true = e at *
  simp only [DetectionDecision.verdict, DetectionDecision.Verdict.mk.injEq] at hv
  obtain ⟨-, -, -, hstream, htick, -, hopened, hupdated, hclosed, hfenced⟩ := hv
  exact ⟨hset, hcur, hlast, hopened, hupdated, hclosed, hfenced, rfl, htick, hstream⟩

/-- Fencing an open episode is announced as its closing. -/
theorem Fenced.announces {d d' : Detector} {now : Tick} {r : DetectionDecision}
    (h : Fenced d now d' r) (hopen : d.hasOpenEpisode = true) :
    Announces d.current d'.current r.verdict :=
  .closed hopen h.current h.opened h.closed (by
    rw [show r.verdict.classification = .fenced from h.classification]
    rfl)

/-- What a rearm does: no episode is open after it, the clock starts anew, and what was open is said
    to be fenced. -/
structure Rearmed (d : Detector) (policy : Policy) (d' : Detector) (fenced : Bool) : Prop where
  key : d'.key = d.key
  policy : d'.policy = policy
  current : d'.current = { d.current with isOpen := false }
  run : d'.onsetRun = none
  restarted : d'.hasEvaluated = false
  cached : d'.lastDecision = d.lastDecision
  fenced : fenced = d.hasOpenEpisode

theorem rearmed_rearm (d : Detector) (policy : Policy) (generation : PolicyGeneration) (now : Tick) :
    Rearmed d policy (d.rearm policy generation now).1
      (d.rearm policy generation now).2.isSome := by
  rw [rearm]
  cases hopen : d.hasOpenEpisode with
  | false =>
    have hclosed : d.current.isOpen = false := hopen
    simp only [Bool.false_eq_true, if_false]
    refine ⟨rfl, rfl, ?_, rfl, rfl, rfl, hopen.symm⟩
    simp only [current, hasOpenEpisode]
    rfl
  | true =>
    have hf := d.fenced_fenceDecision CloseReason.policyChanged now
    simp only [if_true]
    have hkey := congrArg Setup.key hf.setup
    have hid := congrArg Current.id hf.current
    have honset := congrArg Current.onset hf.current
    have hcached := hf.cached
    clear hf
    generalize d.fenceDecision CloseReason.policyChanged now = f at *
    refine ⟨hkey, rfl, ?_, rfl, rfl, hcached, hopen.symm⟩
    simp only [current, Current.mk.injEq]
    exact ⟨hkey, rfl, hid, honset⟩

/-- A detector that was offered a sample and has not evaluated it yet. -/
def offerSample (d : Detector) (sample : Sample) : Detector :=
  let d :=
    if d.changesGeneration sample then
      { d with resourceGeneration := sample.resourceGeneration, window := resetWindow d.policy }
    else if sample.resourceGeneration.valid then
      { d with resourceGeneration := sample.resourceGeneration }
    else d
  let (window, lastAccept) := d.window.offer sample d.policy.detection.reorderToleranceTicks
  { d with window, lastAccept }

/-- An offer leaves the episode, the clock, the cache and the accounting alone. -/
theorem offerSample_eq (d : Detector) (sample : Sample) : ∃ resourceGeneration window lastAccept,
    d.offerSample sample = { d with resourceGeneration, window, lastAccept } := by
  unfold offerSample
  extract_lets d₁
  have hd : ∃ resourceGeneration window, d₁ = { d with resourceGeneration, window } := by
    dsimp only [d₁]
    split
    · exact ⟨_, _, rfl⟩
    · split <;> exact ⟨_, _, rfl⟩
  obtain ⟨generation, window, hd⟩ := hd
  clear_value d₁
  subst hd
  exact ⟨_, _, _, rfl⟩

/-- The detector after a change of resource generation fenced its episode. -/
def fenceGeneration (d : Detector) (sample : Sample) : Detector × DetectionDecision :=
  let (d, decision) := d.fenceDecision CloseReason.capacityChanged sample.tick
  ({ d with
      resourceGeneration := sample.resourceGeneration
      window := resetWindow d.policy
      lastAccept := .capacityChanged }, decision)

/-- A sample its detector takes fences the open episode, or is offered and evaluated. -/
theorem ingest_eq {d : Detector} {sample : Sample} (hkey : sample.stream = d.key)
    (hvalid : validateSample sample = .ok ()) : d.ingest sample =
      .ok (if d.changesGeneration sample && d.hasOpenEpisode then d.fenceGeneration sample
        else (d.offerSample sample).evaluate sample.tick) := by
  rw [ingest, if_neg (by simp [hkey]), hvalid]
  dsimp only
  split <;> rfl

/-- Only a sample of another stream or an invalid one is refused. -/
theorem ingest_ok {d : Detector} {sample : Sample} {e : Detector × DetectionDecision}
    (h : d.ingest sample = .ok e) : sample.stream = d.key ∧ validateSample sample = .ok () := by
  rw [ingest] at h
  by_cases hkey : sample.stream = d.key
  · refine ⟨hkey, ?_⟩
    rw [if_neg (by simp [hkey])] at h
    cases hv : validateSample sample with
    | ok u => rfl
    | error failure => rw [hv] at h; cases h
  · rw [if_pos hkey] at h
    simp [Status.failure] at h

theorem setup_offerSample (d : Detector) (sample : Sample) :
    (d.offerSample sample).key = d.key ∧ (d.offerSample sample).policy = d.policy := by
  obtain ⟨_, _, _, h⟩ := d.offerSample_eq sample
  rw [h]
  exact ⟨rfl, rfl⟩

theorem setup_evaluate (d : Detector) (now : Tick) :
    (d.evaluate now).1.key = d.key ∧ (d.evaluate now).1.policy = d.policy := by
  cases h : d.freshAt now with
  | true =>
    rw [evaluate_fresh h]
    have hset := (d.evaluated_evaluateFresh now).setup
    exact ⟨congrArg Setup.key hset, congrArg Setup.policy hset⟩
  | false => rw [evaluate_cached h]; exact ⟨rfl, rfl⟩

/-- A detector keeps its stream and its policy whatever it is offered. -/
theorem setup_ingest {d : Detector} {sample : Sample} {result : Detector × DetectionDecision}
    (h : d.ingest sample = .ok result) : result.1.key = d.key ∧ result.1.policy = d.policy := by
  obtain ⟨hkey, hvalid⟩ := ingest_ok h
  rw [ingest_eq hkey hvalid] at h
  obtain rfl := Except.ok.inj h
  split
  · have hset := (d.fenced_fenceDecision CloseReason.capacityChanged sample.tick).setup
    exact ⟨congrArg Setup.key hset, congrArg Setup.policy hset⟩
  · obtain ⟨hkey, hpolicy⟩ := (d.offerSample sample).setup_evaluate sample.tick
    obtain ⟨hkey', hpolicy'⟩ := d.setup_offerSample sample
    exact ⟨hkey.trans hkey', hpolicy.trans hpolicy'⟩

/-! ### Calls as steps -/

/-- A call on a configured detector. -/
inductive Call where
  | ingest (sample : Sample)
  | advance (now : Tick)
  | fence (reason : CloseReason) (now : Tick)

/-- The tick a call brings. -/
def Call.tick : Call → Tick
  | .ingest sample => sample.tick
  | .advance now => now
  | .fence _ now => now

/-- One call: the detector after it and the decision it returned, if any. -/
def call (d : Detector) : Call → Detector × Option DetectionDecision
  | .ingest sample => match d.ingest sample with
    | .ok (d, r) => (d, some r)
    | .error _ => (d, none)
  | .advance now => ((d.advance now).1, some (d.advance now).2)
  | .fence reason now => match d.fence reason now with
    | some (d, r) => (d, some r)
    | none => (d, none)

/-- The detector and the tick a call evaluates afresh at, if it does. -/
def evaluating (d : Detector) : Call → Option (Detector × Tick)
  | .ingest sample =>
    if sample.stream = d.key ∧ validateSample sample = .ok () ∧
        !(d.changesGeneration sample && d.hasOpenEpisode) ∧
        (d.offerSample sample).freshAt sample.tick then
      some (d.offerSample sample, sample.tick)
    else none
  | .advance now => if d.freshAt now then some (d, now) else none
  | .fence _ _ => none

/-- What a call evaluates: the detector once it was offered a sample of its stream that fences
    nothing, or the detector itself. -/
inductive Evaluates (d : Detector) : Call → Detector → Tick → Prop where
  | ingest {sample : Sample} (key : sample.stream = d.key) (valid : validateSample sample = .ok ())
      (keeps : (d.changesGeneration sample && d.hasOpenEpisode) = false)
      (fresh : (d.offerSample sample).freshAt sample.tick = true) :
      Evaluates d (.ingest sample) (d.offerSample sample) sample.tick
  | advance {now : Tick} (fresh : d.freshAt now = true) : Evaluates d (.advance now) d now

theorem evaluates_of_evaluating {d e : Detector} {c : Call} {now : Tick}
    (h : d.evaluating c = some (e, now)) : Evaluates d c e now := by
  cases c with
  | ingest sample =>
    simp only [evaluating] at h
    split_ifs at h with hc
    obtain ⟨hkey, hvalid, hkeep, hfresh⟩ := hc
    cases h
    exact .ingest hkey hvalid (Bool.not_eq_true' _ ▸ hkeep) hfresh
  | advance now' =>
    simp only [evaluating] at h
    split_ifs at h with hfresh
    cases h
    exact .advance hfresh
  | fence reason now' => cases h

theorem call_evaluating {d e : Detector} {c : Call} {now : Tick}
    (h : d.evaluating c = some (e, now)) :
    d.call c = ((e.evaluateFresh now).1, some (e.evaluateFresh now).2) := by
  cases evaluates_of_evaluating h with
  | ingest key valid keeps fresh =>
    rw [call, ingest_eq key valid, if_neg (by simp [keeps]), evaluate_fresh fresh]
  | advance fresh => simp only [call, advance, evaluate_fresh fresh]

end Detector

end Mbg
