import MicroburstGovernor.Detect.Onset

/-! The release rules over runs of one detector: what the evaluations between the opening of an episode
    and its close as released saw.

    opening < start ≤ recovery ≤ close: the release condition holds from the start to the recovery, and
    from there to the close, a cooldown later, the queue stays below the onset depth. -/

namespace Mbg

/-- The reason a decision closes its episode for, if it closes it. -/
def DetectionDecision.ending (r : DetectionDecision) : Option CloseReason :=
  if r.closed then some r.closeReason else none

theorem DetectionDecision.ending_congr {r r' : DetectionDecision} (hclosed : r'.closed = r.closed)
    (hreason : r'.closeReason = r.closeReason) : r'.ending = r.ending := by
  rw [ending, ending, hclosed, hreason]

theorem DetectionDecision.ending_of_open {r : DetectionDecision} (h : r.closed = false) :
    r.ending = none := by
  rw [ending, h, if_neg Bool.false_ne_true]

@[simp] theorem DetectionDecision.ending_explain (r : DetectionDecision) (code : ReasonCode)
    (observed threshold : Int64) (tick : Tick) :
    (r.explain code observed threshold tick).ending = r.ending := rfl

@[simp] theorem DetectionDecision.ending_explainIf (r : DetectionDecision) (applies : Bool)
    (code : ReasonCode) (observed threshold : Int64) (tick : Tick) :
    (r.explainIf applies code observed threshold tick).ending = r.ending := by
  cases applies <;> rfl

namespace Detector

/-! ### The release account -/

/-- Where the state machine stands, the ticks counted while the release has held, and the start of the
    last recovery. -/
structure ReleaseAccount where
  state : DetectorState
  sustained : Option UInt64
  recovery : Tick

def releaseAccount (d : Detector) : ReleaseAccount :=
  ⟨d.state, if d.releaseSustaining then some d.releaseProgressTicks else none, d.recoveryStartTick⟩

theorem releaseAccount_congr {d d' : Detector} (hstate : d'.state = d.state)
    (hsustaining : d'.releaseSustaining = d.releaseSustaining)
    (hticks : d'.releaseProgressTicks = d.releaseProgressTicks)
    (hrecovery : d'.recoveryStartTick = d.recoveryStartTick) :
    d'.releaseAccount = d.releaseAccount := by
  rw [releaseAccount, releaseAccount, hstate, hsustaining, hticks, hrecovery]

def ReleaseAccount.isOpen (acc : ReleaseAccount) : Bool :=
  acc.state = .active || acc.state = .recovering

/-- The account after one reading, before the state machine. -/
def ReleaseAccount.next (dp : DetectionPolicy) (acc : ReleaseAccount) (gap : UInt64)
    (m : EvidenceWindow.Metrics) : ReleaseAccount :=
  { acc with
    sustained :=
      if releaseNow dp m && acc.isOpen then
        match acc.sustained with
        | none => some 0
        | some ticks => some (saturatingAdd ticks gap)
      else none }

/-- R7: the release has held for long enough. -/
def ReleaseAccount.confirmed (dp : DetectionPolicy) (acc : ReleaseAccount) : Prop :=
  ∃ ticks, acc.sustained = some ticks ∧ dp.releaseSustainTicks ≤ ticks

theorem releaseAccount_trackOnset (d : Detector) (now : Tick) (gap : UInt64) (depth slope : Bool) :
    (d.trackOnset now gap depth slope).releaseAccount = d.releaseAccount ∧
      (d.trackOnset now gap depth slope).onsetRunActive = depth := by
  rw [trackOnset]
  cases depth with
  | false =>
    rw [if_neg Bool.false_ne_true]
    exact ⟨releaseAccount_congr rfl rfl rfl rfl, rfl⟩
  | true =>
    rw [if_pos rfl]
    extract_lets d'
    have hkept : d'.releaseAccount = d.releaseAccount ∧ d'.onsetRunActive = true := by
      dsimp only [d']
      by_cases hactive : d.onsetRunActive = true
      · rw [if_neg (by simp [hactive])]
        exact ⟨releaseAccount_congr rfl rfl rfl rfl, hactive⟩
      · rw [if_pos (by simp [hactive])]
        exact ⟨releaseAccount_congr rfl rfl rfl rfl, rfl⟩
    clear_value d'
    split
    · exact ⟨(releaseAccount_congr rfl rfl rfl rfl).trans hkept.1, hkept.2⟩
    · exact hkept

theorem releaseAccount_trackRelease (d : Detector) (gap : UInt64) (release : Bool) :
    (d.trackRelease gap release).releaseAccount =
      { d.releaseAccount with
        sustained :=
          if release && d.hasOpenEpisode then
            match d.releaseAccount.sustained with
            | none => some 0
            | some ticks => some (saturatingAdd ticks gap)
          else none } := by
  rw [trackRelease]
  cases release && d.hasOpenEpisode with
  | false =>
    rw [if_neg Bool.false_ne_true, if_neg Bool.false_ne_true]
    simp [releaseAccount]
  | true =>
    rw [if_pos rfl, if_pos rfl]
    by_cases hs : d.releaseSustaining = true
    · rw [if_neg (by simp [hs])]
      simp [releaseAccount, hs]
    · rw [if_pos (by simp [hs])]
      simp [releaseAccount, hs]

/-- What the accounting makes of a reading. -/
theorem releaseAccount_accounted (d : Detector) (now : Tick) (gap : UInt64)
    (m : EvidenceWindow.Metrics) :
    (d.accounted now gap m).releaseAccount = d.releaseAccount.next d.policy.detection gap m ∧
      (d.accounted now gap m).onsetRunActive = depthOk d.policy.detection m := by
  obtain ⟨haccount, hrun⟩ := releaseAccount_trackOnset { d with inadmissibleSinceSet := false } now
    gap (depthOk d.policy.detection m) (slopeOk d.policy.detection m)
  have hopen : ∀ d' : Detector, d'.hasOpenEpisode = d'.releaseAccount.isOpen := fun _ => rfl
  have hstill : ∀ d' : Detector, (d'.trackRelease gap (releaseNow d.policy.detection m)).onsetRunActive =
      d'.onsetRunActive := by
    intro d'
    rw [trackRelease]
    split
    · split <;> rfl
    · rfl
  rw [accounted, hstill, releaseAccount_trackRelease, hopen, haccount]
  exact ⟨rfl, hrun⟩

theorem confirmed_of_releaseConfirmed {d : Detector} {release : Bool}
    (h : d.releaseConfirmed release = true) : d.releaseAccount.confirmed d.policy.detection := by
  simp only [releaseConfirmed, Bool.and_eq_true, decide_eq_true_eq] at h
  obtain ⟨⟨-, hs⟩, hticks⟩ := h
  exact ⟨d.releaseProgressTicks, by rw [releaseAccount, if_pos hs], hticks⟩

/-! ### The account of an evaluation -/

section

variable (d : Detector) (now : Tick) (r : DetectionDecision)

theorem releaseAccount_updateEpisode (m : EvidenceWindow.Metrics) :
    (d.updateEpisode now m r).1.releaseAccount = d.releaseAccount ∧
      (d.updateEpisode now m r).2.ending = r.ending := by
  rw [updateEpisode]
  split
  · exact ⟨rfl, rfl⟩
  · dsimp only
    generalize classify _ _ _ _ _ = graded
    obtain ⟨severity, explanation, hcap, -⟩ := capSeverity_eq (d := d)
      (r := { r with explanation := graded.2 }) now graded.1.overall
    rw [hcap]
    exact ⟨releaseAccount_congr rfl rfl rfl rfl, DetectionDecision.ending_congr rfl rfl⟩

theorem releaseAccount_closeEpisode (reason : CloseReason) (fenced : Bool) :
    (d.closeEpisode reason now r fenced).1.releaseAccount = ⟨.idle, none, d.recoveryStartTick⟩ ∧
      (d.closeEpisode reason now r fenced).2.ending = some reason ∧
        (d.closeEpisode reason now r fenced).2.opened = r.opened := by
  refine ⟨?_, ?_, opened_closeEpisode d now r reason fenced⟩
  · simp [closeEpisode, releaseAccount]
  · simp only [closeEpisode, DetectionDecision.ending_explainIf, DetectionDecision.ending_explain]
    rw [DetectionDecision.ending]
    exact if_pos rfl

end

/-- What the state machine does on a reading to the account it finds. -/
inductive Moved (dp : DetectionPolicy) (acc : ReleaseAccount) (deep : Bool) (now : Tick) :
    ReleaseAccount → DetectionDecision → Prop where
  | idle {r} (was : acc.state = .idle) (opened : r.opened = false) (ending : r.ending = none) :
    Moved dp acc deep now acc r
  | opened {r} (was : acc.state = .idle) (opened : r.opened = true) (ending : r.ending = none) :
    Moved dp acc deep now ⟨.active, none, acc.recovery⟩ r
  | active {r} (was : acc.state = .active) (opened : r.opened = false) (ending : r.ending = none) :
    Moved dp acc deep now acc r
  | recovers {r} (was : acc.state = .active) (confirmed : acc.confirmed dp)
      (opened : r.opened = false) (ending : r.ending = none) :
    Moved dp acc deep now ⟨.recovering, acc.sustained, now⟩ r
  | merged {r} (was : acc.state = .recovering) (opened : r.opened = false)
      (ending : r.ending = none) :
    Moved dp acc deep now ⟨.active, none, acc.recovery⟩ r
  | recovering {r} (was : acc.state = .recovering) (shallow : deep = false)
      (opened : r.opened = false) (ending : r.ending = none) :
    Moved dp acc deep now acc r
  | released {r} (was : acc.state = .recovering) (shallow : deep = false)
      (cooled : dp.cooldownTicks ≤ forwardGap acc.recovery now) (opened : r.opened = false)
      (ending : r.ending = some .releaseConfirmed) :
    Moved dp acc deep now ⟨.idle, none, acc.recovery⟩ r

theorem moved_transition {d : Detector} {r : DetectionDecision} (ho : r.opened = false)
    (hc : r.ending = none) (now : Tick) (m : EvidenceWindow.Metrics) (adm : Admissibility)
    (cooldownOk release : Bool) :
    Moved d.policy.detection d.releaseAccount d.onsetRunActive now
      (d.transition now m adm cooldownOk release r).1.releaseAccount
      (d.transition now m adm cooldownOk release r).2 := by
  rw [transition]
  cases hs : d.state with
  | idle =>
    dsimp only
    split
    · have hopened : (d.openEpisode now r).1.releaseAccount = ⟨.active, none, d.recoveryStartTick⟩ ∧
        (d.openEpisode now r).2.ending = r.ending := by
        constructor
        · simp [openEpisode, releaseAccount]
        · simp only [openEpisode, DetectionDecision.ending_explain]
          exact DetectionDecision.ending_congr rfl rfl
      have hannounced : (d.openEpisode now r).2.opened = true := rfl
      generalize d.openEpisode now r = o at *
      have hkept := releaseAccount_updateEpisode o.1 now o.2 m
      have hstill := opened_updateEpisode o.1 now o.2 m
      generalize o.1.updateEpisode now m o.2 = u at *
      rw [hkept.1, hopened.1]
      exact .opened hs (hstill.trans hannounced) ((DetectionDecision.ending_congr rfl rfl).trans
        (hkept.2.trans (hopened.2.trans hc)))
    · split <;> exact .idle hs ho ((DetectionDecision.ending_congr rfl rfl).trans hc)
  | active =>
    have hkept := releaseAccount_updateEpisode d now r m
    have hopened := (opened_updateEpisode d now r m).trans ho
    generalize d.updateEpisode now m r = u at *
    dsimp only
    split
    · rename_i hconfirmed
      have haccount : Detector.releaseAccount
          { u.1 with state := .recovering, recoveryStartTick := now } =
          ⟨.recovering, u.1.releaseAccount.sustained, now⟩ := by simp [releaseAccount]
      rw [haccount, hkept.1]
      exact .recovers hs (confirmed_of_releaseConfirmed hconfirmed) hopened
        ((DetectionDecision.ending_congr rfl rfl).trans (hkept.2.trans hc))
    · rw [hkept.1]
      exact .active hs hopened ((DetectionDecision.ending_congr rfl rfl).trans (hkept.2.trans hc))
  | recovering =>
    dsimp only
    by_cases hrun : d.onsetRunActive = true
    · rw [if_pos hrun]
      have hkept := releaseAccount_updateEpisode { d with
        state := .active, releaseSustaining := false, releaseProgressTicks := 0 } now
        (r.explain ReasonCode.episodeMerged 0 0 now) m
      have hopened := (opened_updateEpisode { d with
        state := .active, releaseSustaining := false, releaseProgressTicks := 0 } now
        (r.explain ReasonCode.episodeMerged 0 0 now) m).trans ho
      have haccount : Detector.releaseAccount { d with
        state := .active, releaseSustaining := false, releaseProgressTicks := 0 } =
        ⟨.active, none, d.recoveryStartTick⟩ := by simp [releaseAccount]
      rw [haccount] at hkept
      generalize Detector.updateEpisode { d with
        state := .active, releaseSustaining := false, releaseProgressTicks := 0 } now m
        (r.explain ReasonCode.episodeMerged 0 0 now) = u at *
      rw [hkept.1]
      exact .merged hs hopened ((DetectionDecision.ending_congr rfl rfl).trans (hkept.2.trans hc))
    · rw [if_neg hrun]
      have hshallow : d.onsetRunActive = false := by simpa using hrun
      have hkept := releaseAccount_updateEpisode d now r m
      have hopened := (opened_updateEpisode d now r m).trans ho
      generalize d.updateEpisode now m r = u at *
      split
      · rename_i hcooled
        have hclosed := releaseAccount_closeEpisode u.1 now u.2 CloseReason.releaseConfirmed false
        have hrecovery : u.1.recoveryStartTick = d.recoveryStartTick :=
          congrArg ReleaseAccount.recovery hkept.1
        rw [hrecovery] at hclosed
        generalize u.1.closeEpisode CloseReason.releaseConfirmed now u.2 false = e at *
        rw [hclosed.1]
        exact .released hs hshallow hcooled (hclosed.2.2.trans hopened)
          ((DetectionDecision.ending_congr rfl rfl).trans hclosed.2.1)
      · rw [hkept.1]
        exact .recovering hs hshallow hopened
          ((DetectionDecision.ending_congr rfl rfl).trans (hkept.2.trans hc))

theorem moved_decided {d : Detector} {r : DetectionDecision} (ho : r.opened = false)
    (hc : r.ending = none) (now : Tick) (m : EvidenceWindow.Metrics) (adm : Admissibility)
    (cooldownOk release : Bool) :
    Moved d.policy.detection d.releaseAccount d.onsetRunActive now
        (d.decided now m adm cooldownOk release r).1.releaseAccount
        (d.decided now m adm cooldownOk release r).2 ∨
      (d.decided now m adm cooldownOk release r).1.releaseAccount.state = .idle ∧
        (d.decided now m adm cooldownOk release r).2.ending = some .episodeTimeout := by
  have h := moved_transition (d := d) ho hc now m adm cooldownOk release
  rw [decided]
  generalize d.transition now m adm cooldownOk release r = t at *
  rw [enforceCeiling]
  dsimp only
  split
  · have hclosed := releaseAccount_closeEpisode t.1 now (t.2.explain ReasonCode.episodeTimedOut
      t.1.episode.metrics.durationTicks.toInt64 t.1.policy.detection.maxEpisodeTicks.toInt64 now)
      CloseReason.episodeTimeout false
    generalize t.1.closeEpisode CloseReason.episodeTimeout now _ false = e at *
    exact Or.inr ⟨congrArg ReleaseAccount.state hclosed.1,
      (DetectionDecision.ending_congr rfl rfl).trans hclosed.2.1⟩
  · exact Or.inl h

/-- Nothing is opened or closed before the state machine runs. -/
theorem evaluateAdmissible_undecided (d : Detector) (now : Tick) (gap : UInt64)
    (m : EvidenceWindow.Metrics) (adm : Admissibility) (r : DetectionDecision) :
    ∃ r' : DetectionDecision,
      d.evaluateAdmissible now gap m adm r =
        (d.accounted now gap m).decided now m adm (!(d.accounted now gap m).inCooldown now)
          (releaseNow d.policy.detection m) r' ∧
      r'.opened = r.opened ∧ r'.ending = r.ending := by
  unfold evaluateAdmissible
  extract_lets dp d₁ r₁ depthOk' steepest slopeOk' d₂ releaseNow' wasOpen r₂ d₃ r₃ cooldownOk r₄ r₅
  have hd₃ : d.accounted now gap m = d₃ := rfl
  have hrelease : releaseNow d.policy.detection m = releaseNow' := rfl
  have hok : (!d₃.inCooldown now) = cooldownOk := rfl
  have hopened : r₅.opened = r.opened := by
    have hr₄ : r₄.verdict = r₃.verdict := by
      dsimp only [r₄]
      cases cooldownOk <;> rfl
    have hv : r₃.verdict = r₁.verdict := by
      simp only [r₃, r₂, DetectionDecision.verdict_explainIf]
    exact congrArg DetectionDecision.Verdict.opened (hr₄.trans hv)
  have hending : r₅.ending = r.ending := by
    have hr₅ : r₅.ending = r₄.ending := rfl
    have hr₄ : r₄.ending = r₃.ending := by
      dsimp only [r₄]
      cases cooldownOk <;> rfl
    have hr₃ : r₃.ending = r₁.ending := by
      simp only [r₃, r₂, DetectionDecision.ending_explainIf]
    exact hr₅.trans (hr₄.trans hr₃)
  refine ⟨r₅, ?_, hopened, hending⟩
  rw [hd₃, hrelease, hok]
  clear_value d₃ r₅ cooldownOk releaseNow'
  rfl

/-- What a fresh evaluation does to the release account: a reading of admissible evidence moves the
    state machine, and any evaluation may close the episode for another reason. -/
inductive ReleaseEvaluated (d : Detector) (now : Tick) : ReleaseAccount → DetectionDecision → Prop
  where
  | suspended {r} (refused : (d.admissibilityAt now).admissible = false)
      (opened : r.opened = false) (ending : r.ending = none) :
    ReleaseEvaluated d now d.releaseAccount r
  | moved {acc r} (admitted : (d.admissibilityAt now).admissible = true)
      (moved : Moved d.policy.detection
        (d.releaseAccount.next d.policy.detection (d.gapTo now) d.readMetrics)
        (depthOk d.policy.detection d.readMetrics) now acc r) : ReleaseEvaluated d now acc r
  | ended {acc r reason} (closed : acc.state = .idle) (ending : r.ending = some reason)
      (other : reason ≠ .releaseConfirmed) : ReleaseEvaluated d now acc r

theorem releaseEvaluated_evaluateInadmissible (d : Detector) (now : Tick)
    (hadm : (d.admissibilityAt now).admissible = false) {r : DetectionDecision}
    (ho : r.opened = false) (hc : r.ending = none) :
    ReleaseEvaluated d now
      ((d.clocked now).evaluateInadmissible now (d.admissibilityAt now) r).1.releaseAccount
      ((d.clocked now).evaluateInadmissible now (d.admissibilityAt now) r).2 := by
  unfold evaluateInadmissible
  extract_lets dp r₁ d₁ staleExcess held reason
  have haccount : d₁.releaseAccount = d.releaseAccount := by
    dsimp only [d₁]
    split <;> exact releaseAccount_congr rfl rfl rfl rfl
  have ho₁ : r₁.opened = false := ho
  have hc₁ : r₁.ending = none := hc
  have hreason : reason ≠ .releaseConfirmed := by
    dsimp only [reason]
    split_ifs <;> decide
  split
  · exact .suspended hadm ho₁ hc₁
  · split
    · rw [haccount]
      exact .suspended hadm ho₁ ((DetectionDecision.ending_congr rfl rfl).trans hc₁)
    · have hclosed := releaseAccount_closeEpisode d₁ now r₁ reason true
      generalize d₁.closeEpisode reason now r₁ true = e at *
      exact .ended (congrArg ReleaseAccount.state hclosed.1)
        ((DetectionDecision.ending_congr rfl rfl).trans hclosed.2.1) hreason

theorem releaseEvaluated_evaluateFresh (d : Detector) (now : Tick) :
    ReleaseEvaluated d now (d.evaluateFresh now).1.releaseAccount (d.evaluateFresh now).2 := by
  obtain ⟨r, hr, heq⟩ := d.evaluateFresh_eq now
  have ho : r.opened = false := congrArg DetectionDecision.Verdict.opened hr.verdict
  have hc : r.closed = false := congrArg DetectionDecision.Verdict.closed hr.verdict
  have hstored : ∀ d' : Detector, ∀ last,
      Detector.releaseAccount { d' with lastDecision := last } = d'.releaseAccount :=
    fun _ _ => releaseAccount_congr rfl rfl rfl rfl
  rw [heq, hstored]
  cases hadm : (d.admissibilityAt now).admissible with
  | false =>
    rw [if_neg Bool.false_ne_true]
    exact releaseEvaluated_evaluateInadmissible d now hadm ho (DetectionDecision.ending_of_open hc)
  | true =>
    rw [if_pos rfl]
    obtain ⟨r', heq', hopened, hending⟩ := (d.clocked now).evaluateAdmissible_undecided now
      (d.gapTo now) d.readMetrics (d.admissibilityAt now) r
    obtain ⟨haccount, hrun⟩ := releaseAccount_accounted (d.clocked now) now (d.gapTo now) d.readMetrics
    have hpolicy : ((d.clocked now).accounted now (d.gapTo now) d.readMetrics).policy = d.policy :=
      congrArg Setup.policy ((frame_trackRelease _ _ _).1.trans (frame_trackOnset _ _ _ _ _).1)
    rw [heq']
    generalize (d.clocked now).accounted now (d.gapTo now) d.readMetrics = a at *
    have h := moved_decided (d := a) (hopened.trans ho)
      (hending.trans (DetectionDecision.ending_of_open hc)) now d.readMetrics (d.admissibilityAt now)
      (!a.inCooldown now) (releaseNow (d.clocked now).policy.detection d.readMetrics)
    rw [haccount, hrun, hpolicy] at h
    generalize a.decided now d.readMetrics (d.admissibilityAt now) _ _ r' = t at *
    rcases h with hmoved | ⟨hidle, hended⟩
    · exact .moved hadm hmoved
    · exact .ended hidle hended (by decide)

/-! ### Runs -/

/-- What an evaluation of admissible evidence saw: the latest depth and the recent slope. -/
structure Sighting where
  tick : Tick
  depth : UInt64
  slope : RateQ16
  deriving DecidableEq

def sightingAt (d : Detector) (now : Tick) : Sighting :=
  ⟨now, d.readMetrics.latestDepth, d.readMetrics.recentSlopeQ16⟩

/-- R5 and R6, on a sighting. -/
def Sighting.Relieved (dp : DetectionPolicy) (u : Sighting) : Prop :=
  u.depth ≤ dp.releaseDepth ∧ u.slope ≤ dp.releaseSlopeQ16

instance (dp : DetectionPolicy) (u : Sighting) : Decidable (u.Relieved dp) :=
  inferInstanceAs (Decidable (_ ∧ _))

/-- A detector with the tick of its last opening and the sightings of its evaluations, the newest
    last. -/
structure ReleaseTrace where
  detector : Detector
  opening : Option Tick := none
  sightings : List Sighting := []

namespace ReleaseTrace

/-- The sighting of a call, if it evaluates admissible evidence. -/
def seen (s : ReleaseTrace) (c : Call) : List Sighting :=
  match s.detector.evaluating c with
  | some (e, now) => if (e.admissibilityAt now).admissible then [e.sightingAt now] else []
  | none => []

def opens (s : ReleaseTrace) (c : Call) : Option Tick :=
  match s.detector.evaluating c with
  | some (e, now) => if (e.evaluateFresh now).2.opened then some now else s.opening
  | none => s.opening

def step (s : ReleaseTrace) (c : Call) : ReleaseTrace where
  detector := (s.detector.call c).1
  opening := s.opens c
  sightings := s.sightings ++ s.seen c

/-- Since the opening of the episode there was a sighting at the start, and every sighting from there
    to the stop was relieved, over at least these ticks. -/
structure Sustained (dp : DetectionPolicy) (s : ReleaseTrace) (start stop : Tick) (ticks : ℕ) :
    Prop where
  sighted : ∃ u ∈ s.sightings, u.tick = start
  opened : ∃ o, s.opening = some o ∧ o.value < start.value
  ordered : start.value ≤ stop.value
  lasted : ticks ≤ stop.value.toNat - start.value.toNat
  relieved : ∀ u ∈ s.sightings, start.value ≤ u.tick.value → u.tick.value ≤ stop.value →
    u.Relieved dp

/-- The release was sustained up to the sighting at the start of the recovery, and every sighting
    since then was below the onset depth. -/
structure Recovers (dp : DetectionPolicy) (s : ReleaseTrace) (recovery now : Tick) : Prop where
  sustained : ∃ start, Sustained dp s start recovery dp.releaseSustainTicks.toNat
  sighted : ∃ u ∈ s.sightings, u.tick = recovery
  ordered : recovery.value ≤ now.value
  shallow : ∀ u ∈ s.sightings, recovery.value < u.tick.value → u.tick.value ≤ now.value →
    u.depth < dp.onsetMinDepth

/-- The contract of one call: an episode it closes as released has been recovering for the cooldown. -/
def SoundRelease (s : ReleaseTrace) (c : Call) : Prop :=
  ∀ e now, s.detector.evaluating c = some (e, now) →
    (e.evaluateFresh now).2.ending = some .releaseConfirmed →
    let dp := s.detector.policy.detection
    ∃ recovery, Recovers dp (s.step c) recovery now ∧
      dp.cooldownTicks.toNat ≤ now.value.toNat - recovery.value.toNat

/-! ### What the sightings bear out -/

section

variable {dp : DetectionPolicy} {s s' : ReleaseTrace} {acc : ReleaseAccount}
  {start stop recovery last now : Tick}

/-- Sightings after the stop change nothing. -/
theorem Sustained.extend {ticks : ℕ} (h : Sustained dp s start stop ticks)
    (hopening : s'.opening = s.opening) {w : List Sighting}
    (hseen : s'.sightings = s.sightings ++ w) (hlater : ∀ u ∈ w, stop.value < u.tick.value) :
    Sustained dp s' start stop ticks where
  sighted := by
    obtain ⟨u, hu, htick⟩ := h.sighted
    exact ⟨u, hseen ▸ List.mem_append_left _ hu, htick⟩
  opened := by
    rw [hopening]
    exact h.opened
  ordered := h.ordered
  lasted := h.lasted
  relieved := by
    intro u hu hfrom hto
    rw [hseen] at hu
    rcases List.mem_append.mp hu with hu | hu
    · exact h.relieved u hu hfrom hto
    · exact absurd hto (UInt64.not_le.mpr (hlater u hu))

/-- A release lasts on while nothing is sighted. -/
theorem Sustained.later {ticks : ℕ} (h : Sustained dp s start last ticks)
    (hclock : ∀ u ∈ s.sightings, u.tick.value ≤ last.value) (hle : last.value ≤ now.value) :
    Sustained dp s start now ticks where
  sighted := h.sighted
  opened := h.opened
  ordered := UInt64.le_trans h.ordered hle
  lasted := by
    have hlasted := h.lasted
    rw [UInt64.le_iff_toNat_le] at hle
    omega
  relieved := fun u hu hfrom _ => h.relieved u hu hfrom (hclock u hu)

theorem Sustained.weaken {ticks ticks' : ℕ} (h : Sustained dp s start stop ticks)
    (hle : ticks' ≤ ticks) : Sustained dp s start stop ticks' :=
  ⟨h.sighted, h.opened, h.ordered, Nat.le_trans hle h.lasted, h.relieved⟩

/-- A relieved sighting adds its gap to a release that has held so far. -/
theorem Sustained.sight {ticks : ℕ} (h : Sustained dp s start last ticks)
    (hclock : ∀ u ∈ s.sightings, u.tick.value ≤ last.value) (hlt : last.value < now.value)
    (hopening : s'.opening = s.opening) {u : Sighting} (hseen : s'.sightings = s.sightings ++ [u])
    (hrelieved : u.Relieved dp) :
    Sustained dp s' start now (ticks + (now.value.toNat - last.value.toNat)) where
  sighted := by
    obtain ⟨v, hv, hvtick⟩ := h.sighted
    exact ⟨v, hseen ▸ List.mem_append_left _ hv, hvtick⟩
  opened := by
    rw [hopening]
    exact h.opened
  ordered := UInt64.le_of_lt (UInt64.lt_of_le_of_lt h.ordered hlt)
  lasted := by
    have hlasted := h.lasted
    have hordered := UInt64.le_iff_toNat_le.mp h.ordered
    rw [UInt64.lt_iff_toNat_lt] at hlt
    omega
  relieved := by
    intro v hv hfrom _
    rw [hseen] at hv
    rcases List.mem_append.mp hv with hv | hv
    · exact h.relieved v hv hfrom (hclock v hv)
    · rw [List.mem_singleton.mp hv]
      exact hrelieved

/-- A relieved sighting after the opening starts a release. -/
theorem sustained_start (hopened : ∃ o, s'.opening = some o ∧ o.value < now.value)
    (hclock : ∀ u ∈ s.sightings, u.tick.value < now.value) {u : Sighting}
    (hseen : s'.sightings = s.sightings ++ [u]) (htick : u.tick = now)
    (hrelieved : u.Relieved dp) : Sustained dp s' now now 0 where
  sighted := ⟨u, by simp [hseen], htick⟩
  opened := hopened
  ordered := UInt64.le_refl _
  lasted := Nat.zero_le _
  relieved := by
    intro v hv hfrom _
    rw [hseen] at hv
    rcases List.mem_append.mp hv with hv | hv
    · exact absurd hfrom (UInt64.not_le.mpr (hclock v hv))
    · rw [List.mem_singleton.mp hv]
      exact hrelieved

/-- The recovery goes on over the sightings that are below the onset depth. -/
theorem Recovers.extend (h : Recovers dp s recovery last)
    (hclock : ∀ u ∈ s.sightings, u.tick.value ≤ last.value) (hlt : last.value < now.value)
    (hopening : s'.opening = s.opening) {w : List Sighting}
    (hseen : s'.sightings = s.sightings ++ w)
    (hnew : ∀ u ∈ w, u.tick = now ∧ u.depth < dp.onsetMinDepth) :
    Recovers dp s' recovery now where
  sustained := by
    obtain ⟨start, hsustained⟩ := h.sustained
    refine ⟨start, hsustained.extend hopening hseen fun u hu => ?_⟩
    rw [(hnew u hu).1]
    exact UInt64.lt_of_le_of_lt h.ordered hlt
  sighted := by
    obtain ⟨u, hu, htick⟩ := h.sighted
    exact ⟨u, hseen ▸ List.mem_append_left _ hu, htick⟩
  ordered := UInt64.le_of_lt (UInt64.lt_of_le_of_lt h.ordered hlt)
  shallow := by
    intro u hu hfrom _
    rw [hseen] at hu
    rcases List.mem_append.mp hu with hu | hu
    · exact h.shallow u hu hfrom (hclock u hu)
    · exact (hnew u hu).2

/-- What the trace says of the release account of an open episode. -/
structure Borne (dp : DetectionPolicy) (s : ReleaseTrace) (acc : ReleaseAccount) (last : Tick) :
    Prop where
  opened : ∃ o, s.opening = some o ∧ o.value ≤ last.value
  sustained : ∀ ticks, acc.sustained = some ticks → ∃ start,
    Sustained dp s start last ticks.toNat
  recovering : acc.state = .recovering → Recovers dp s acc.recovery last

/-- Nothing sighted, nothing moved. -/
theorem Borne.suspended (h : Borne dp s acc last)
    (hclock : ∀ u ∈ s.sightings, u.tick.value ≤ last.value) (hlt : last.value < now.value)
    (hopening : s'.opening = s.opening) (hseen : s'.sightings = s.sightings) :
    Borne dp s' acc now where
  opened := by
    obtain ⟨o, ho, hle⟩ := h.opened
    exact ⟨o, hopening.trans ho, UInt64.le_of_lt (UInt64.lt_of_le_of_lt hle hlt)⟩
  sustained := by
    intro ticks hticks
    obtain ⟨start, hsustained⟩ := h.sustained ticks hticks
    have hextended := hsustained.extend hopening (w := []) (by simpa using hseen)
      (fun u hu => by cases hu)
    exact ⟨start, hextended.later (by rw [hseen]; exact hclock) (UInt64.le_of_lt hlt)⟩
  recovering := by
    intro hstate
    exact (h.recovering hstate).extend hclock hlt hopening (w := []) (by simpa using hseen)
      (fun u hu => by cases hu)

/-- An episode that is active with no release in progress needs its opening alone. -/
theorem borne_active (hopened : ∃ o, s.opening = some o ∧ o.value ≤ last.value) :
    Borne dp s ⟨.active, none, recovery⟩ last where
  opened := hopened
  sustained := by
    intro ticks hticks
    cases hticks
  recovering := by
    intro hrecovering
    cases hrecovering

/-- What a sighting makes of the ticks counted while the release has held. -/
theorem Borne.next {gap : UInt64} {m : EvidenceWindow.Metrics} {u : Sighting}
    (h : Borne dp s acc last) (hclock : ∀ u ∈ s.sightings, u.tick.value ≤ last.value)
    (hlt : last.value < now.value) (hgap : gap.toNat = now.value.toNat - last.value.toNat)
    (hopening : s'.opening = s.opening) (hseen : s'.sightings = s.sightings ++ [u])
    (htick : u.tick = now) (hrelieved : releaseNow dp m = true → u.Relieved dp) {ticks : UInt64}
    (hticks : (acc.next dp gap m).sustained = some ticks) :
    ∃ start, Sustained dp s' start now ticks.toNat := by
  rw [ReleaseAccount.next] at hticks
  dsimp only at hticks
  split at hticks
  · rename_i hheld
    rw [Bool.and_eq_true] at hheld
    cases hsustained : acc.sustained with
    | none =>
      rw [hsustained] at hticks
      obtain rfl := Option.some.inj hticks
      obtain ⟨o, ho, hle⟩ := h.opened
      have hbefore : ∀ u ∈ s.sightings, u.tick.value < now.value :=
        fun u hu => UInt64.lt_of_le_of_lt (hclock u hu) hlt
      exact ⟨now, sustained_start ⟨o, hopening.trans ho, UInt64.lt_of_le_of_lt hle hlt⟩ hbefore hseen
        htick (hrelieved hheld.1)⟩
    | some counted =>
      rw [hsustained] at hticks
      obtain rfl := Option.some.inj hticks
      obtain ⟨start, hstart⟩ := h.sustained counted hsustained
      refine ⟨start, (hstart.sight hclock hlt hopening hseen (hrelieved hheld.1)).weaken ?_⟩
      rw [← hgap]
      exact toNat_saturatingAdd_le counted gap
  · cases hticks

/-- STEP: a move of the state machine on a sighting keeps the account of an open episode borne out, and
    closes it as released once it has been recovering for the cooldown. -/
theorem borne_moved {gap : UInt64} {m : EvidenceWindow.Metrics} {u : Sighting} {deep : Bool}
    {acc' : ReleaseAccount} {r : DetectionDecision}
    (h : acc.isOpen = true → Borne dp s acc last ∧ (∀ u ∈ s.sightings, u.tick.value ≤ last.value) ∧
      last.value < now.value ∧ gap.toNat = now.value.toNat - last.value.toNat)
    (hnow : now.value.toNat < 2 ^ 63)
    (hopening : s'.opening = if r.opened then some now else s.opening)
    (hseen : s'.sightings = s.sightings ++ [u]) (htick : u.tick = now)
    (hrelieved : releaseNow dp m = true → u.Relieved dp)
    (hshallow : deep = false → u.depth < dp.onsetMinDepth)
    (hmoved : Moved dp (acc.next dp gap m) deep now acc' r) :
    (acc'.isOpen = true → Borne dp s' acc' now) ∧
      (r.ending = some .releaseConfirmed → ∃ recovery, Recovers dp s' recovery now ∧
        dp.cooldownTicks.toNat ≤ now.value.toNat - recovery.value.toNat) := by
  have hstate : (acc.next dp gap m).state = acc.state := rfl
  have hrecovery : (acc.next dp gap m).recovery = acc.recovery := rfl
  have hopen : ∀ {state}, acc.state = state → state ≠ .idle → acc.isOpen = true := by
    rintro state rfl hne
    rw [ReleaseAccount.isOpen]
    cases hs : acc.state with
    | idle => exact absurd hs hne
    | active => rfl
    | recovering => rfl
  -- while the episode stays open its opening is known and its release goes on
  have hkeeps : acc.isOpen = true → r.opened = false →
      (∃ o, s'.opening = some o ∧ o.value ≤ now.value) ∧
      (∀ ticks, (acc.next dp gap m).sustained = some ticks →
        ∃ start, Sustained dp s' start now ticks.toNat) ∧
      (acc.state = .recovering → deep = false → Recovers dp s' acc.recovery now) := by
    intro hwas hkept
    obtain ⟨hborne, hclock, hlt, hgap⟩ := h hwas
    rw [hkept, if_neg Bool.false_ne_true] at hopening
    obtain ⟨o, ho, hle⟩ := hborne.opened
    refine ⟨⟨o, hopening.trans ho, UInt64.le_of_lt (UInt64.lt_of_le_of_lt hle hlt)⟩, ?_, ?_⟩
    · intro ticks hticks
      exact hborne.next hclock hlt hgap hopening hseen htick hrelieved hticks
    · intro hrecovering hdeep
      refine (hborne.recovering hrecovering).extend hclock hlt hopening hseen fun v hv => ?_
      rw [List.mem_singleton.mp hv]
      exact ⟨htick, hshallow hdeep⟩
  cases hmoved with
  | idle was _ ending =>
    refine ⟨fun hstill => ?_, fun hend => by rw [ending] at hend; cases hend⟩
    rw [ReleaseAccount.isOpen, was] at hstill
    cases hstill
  | opened _ opened ending =>
    rw [opened, if_pos rfl] at hopening
    refine ⟨fun _ => ?_, fun hend => by rw [ending] at hend; cases hend⟩
    exact borne_active ⟨now, hopening, UInt64.le_refl _⟩
  | active was opened ending =>
    obtain ⟨hopened, hsustained, -⟩ := hkeeps (hopen was (by decide)) opened
    refine ⟨fun _ => ⟨hopened, hsustained, fun hrecovering => ?_⟩,
      fun hend => by rw [ending] at hend; cases hend⟩
    rw [was] at hrecovering
    cases hrecovering
  | recovers was confirmed opened ending =>
    obtain ⟨hopened, hsustained, -⟩ := hkeeps (hopen was (by decide)) opened
    refine ⟨fun _ => ⟨hopened, hsustained, fun _ => ?_⟩,
      fun hend => by rw [ending] at hend; cases hend⟩
    obtain ⟨ticks, hticks, hle⟩ := confirmed
    obtain ⟨start, hstart⟩ := hsustained ticks hticks
    refine ⟨⟨start, hstart.weaken (UInt64.le_iff_toNat_le.mp hle)⟩, ⟨u, by simp [hseen], htick⟩,
      UInt64.le_refl _, fun v _ hafter hupto => ?_⟩
    exact absurd hupto (UInt64.not_le.mpr hafter)
  | merged was opened ending =>
    obtain ⟨hopened, -, -⟩ := hkeeps (hopen was (by decide)) opened
    exact ⟨fun _ => borne_active hopened, fun hend => by rw [ending] at hend; cases hend⟩
  | recovering was shallow opened ending =>
    obtain ⟨hopened, hsustained, hrecovers⟩ := hkeeps (hopen was (by decide)) opened
    exact ⟨fun _ => ⟨hopened, hsustained, fun _ => hrecovers was shallow⟩,
      fun hend => by rw [ending] at hend; cases hend⟩
  | released was shallow cooled opened ending =>
    have hwas := hopen was (by decide)
    obtain ⟨-, -, hrecovers⟩ := hkeeps hwas opened
    refine ⟨fun hstill => (by cases hstill), fun _ => ⟨acc.recovery, hrecovers was shallow, ?_⟩⟩
    obtain ⟨hborne, -, hlt, -⟩ := h hwas
    have hbegun := UInt64.le_iff_toNat_le.mp (hborne.recovering was).ordered
    rw [UInt64.lt_iff_toNat_lt] at hlt
    rw [hrecovery, UInt64.le_iff_toNat_le, toNat_forwardGap (by omega) hnow] at cooled
    exact cooled

end

/-! ### Runs -/

/-- The invariant: sightings lie at or before the clock, and bear out the account of an open episode. -/
structure Watched (policy : Policy) (s : ReleaseTrace) : Prop where
  installed : s.detector.policy = policy
  below : s.detector.hasEvaluated = true → s.detector.lastEvaluated.value.toNat < 2 ^ 63
  clock : ∀ u ∈ s.sightings, s.detector.hasEvaluated = true ∧
    u.tick.value ≤ s.detector.lastEvaluated.value
  borne : s.detector.hasOpenEpisode = true → s.detector.hasEvaluated = true ∧
    Borne policy.detection s s.detector.releaseAccount s.detector.lastEvaluated

theorem releaseAccount_evaluating {d e : Detector} {c : Call} {now : Tick}
    (h : d.evaluating c = some (e, now)) : e.releaseAccount = d.releaseAccount := by
  cases evaluates_of_evaluating h with
  | ingest _ _ _ _ =>
    obtain ⟨_, _, _, hoffer⟩ := d.offerSample_eq _
    rw [hoffer]
    exact releaseAccount_congr rfl rfl rfl rfl
  | advance _ => rfl

variable {policy : Policy} {s : ReleaseTrace} {c : Call}

theorem relieved_sighting {dp : DetectionPolicy} {e : Detector}
    (h : releaseNow dp e.readMetrics = true) (now : Tick) : (e.sightingAt now).Relieved dp := by
  simpa [releaseNow, Sighting.Relieved, sightingAt] using h

theorem shallow_sighting {dp : DetectionPolicy} {e : Detector}
    (h : depthOk dp e.readMetrics = false) (now : Tick) :
    (e.sightingAt now).depth < dp.onsetMinDepth := by
  simpa [depthOk, sightingAt] using h

/-- What a fresh evaluation does to an account that the trace bears out. -/
theorem borne_evaluated {e : Detector} {now : Tick} {s s' : ReleaseTrace} {acc' : ReleaseAccount}
    {r : DetectionDecision}
    (h : e.releaseAccount.isOpen = true →
      Borne e.policy.detection s e.releaseAccount e.lastEvaluated ∧
      (∀ u ∈ s.sightings, u.tick.value ≤ e.lastEvaluated.value) ∧
      e.lastEvaluated.value < now.value ∧
      (e.gapTo now).toNat = now.value.toNat - e.lastEvaluated.value.toNat)
    (hnow : now.value.toNat < 2 ^ 63)
    (hopening : s'.opening = if r.opened then some now else s.opening)
    (hseen : s'.sightings = s.sightings ++
      if (e.admissibilityAt now).admissible then [e.sightingAt now] else [])
    (hevaluated : ReleaseEvaluated e now acc' r) :
    (acc'.isOpen = true → Borne e.policy.detection s' acc' now) ∧
      (r.ending = some .releaseConfirmed → ∃ recovery,
        Recovers e.policy.detection s' recovery now ∧
          e.policy.detection.cooldownTicks.toNat ≤ now.value.toNat - recovery.value.toNat) := by
  cases hevaluated with
  | suspended refused opened ending =>
    rw [refused, if_neg Bool.false_ne_true, List.append_nil] at hseen
    rw [opened, if_neg Bool.false_ne_true] at hopening
    refine ⟨fun hopen => ?_, fun hend => by rw [ending] at hend; cases hend⟩
    obtain ⟨hborne, hclock, hlt, -⟩ := h hopen
    exact hborne.suspended hclock hlt hopening hseen
  | moved admitted moved =>
    rw [admitted, if_pos rfl] at hseen
    exact borne_moved h hnow hopening hseen rfl (fun hrelease => relieved_sighting hrelease now)
      (fun hshallow => shallow_sighting hshallow now) moved
  | ended closed ending other =>
    refine ⟨fun hopen => ?_, fun hend => ?_⟩
    · rw [ReleaseAccount.isOpen, closed] at hopen
      cases hopen
    · rw [ending] at hend
      exact absurd (Option.some.inj hend) other

theorem step_evaluating {e : Detector} (h : Watched policy s) (hc : c.tick.value.toNat < 2 ^ 63)
    (he : s.detector.evaluating c = some (e, c.tick)) :
    SoundRelease s c ∧ Watched policy (s.step c) := by
  obtain ⟨hsame, -, hfresh⟩ := evaluating_spec he
  have hpolicy : e.policy = policy := (cooldown_evaluating he).2.trans h.installed
  obtain ⟨hinstalled, hbelow, hclock, hborne⟩ := h
  rw [← hsame.hasEvaluated, ← hsame.lastEvaluated] at hbelow hclock hborne
  rw [← releaseAccount_evaluating he, ← hpolicy] at hborne
  have hlt : e.hasEvaluated = true → e.lastEvaluated.value < c.tick.value := by
    intro hev
    rw [freshAt, hev, Bool.not_true, Bool.false_or] at hfresh
    exact (tickAfter_iff_lt (hbelow hev) hc).mp hfresh
  have hold : e.releaseAccount.isOpen = true →
      Borne e.policy.detection s e.releaseAccount e.lastEvaluated ∧
      (∀ u ∈ s.sightings, u.tick.value ≤ e.lastEvaluated.value) ∧
      e.lastEvaluated.value < c.tick.value ∧
      (e.gapTo c.tick).toNat = c.tick.value.toNat - e.lastEvaluated.value.toNat := by
    intro hopen
    rw [releaseAccount_evaluating he] at hopen
    obtain ⟨hev, hb⟩ := hborne hopen
    have hlast := hlt hev
    refine ⟨hb, fun u hu => (hclock u hu).2, hlast, ?_⟩
    rw [gapTo, if_pos hev, toNat_forwardGap (hbelow hev) hc]
  have hset := (e.evaluated_evaluateFresh c.tick).setup
  have hopening : (s.step c).opening =
      if (e.evaluateFresh c.tick).2.opened then some c.tick else s.opening := by
    simp only [step, opens, he]
  have hseen : (s.step c).sightings = s.sightings ++
      if (e.admissibilityAt c.tick).admissible then [e.sightingAt c.tick] else [] := by
    simp only [step, seen, he]
  have hdetector : (s.step c).detector = (e.evaluateFresh c.tick).1 := by
    rw [step, call_evaluating he]
  obtain ⟨hstill, hreleased⟩ := borne_evaluated hold hc hopening hseen
    (e.releaseEvaluated_evaluateFresh c.tick)
  have hlast : (s.step c).detector.lastEvaluated = c.tick := by
    rw [hdetector]
    exact congrArg Setup.lastEvaluated hset
  have hev : (s.step c).detector.hasEvaluated = true := by
    rw [hdetector]
    exact congrArg Setup.hasEvaluated hset
  constructor
  · intro e' now' he' hend
    obtain ⟨rfl, rfl⟩ := Prod.mk.inj (Option.some.inj (he.symm.trans he'))
    dsimp only
    rw [hinstalled, ← hpolicy]
    exact hreleased hend
  · refine ⟨?_, fun _ => by rw [hlast]; exact hc, fun u hu => ⟨hev, ?_⟩, fun hopen => ⟨hev, ?_⟩⟩
    · rw [hdetector]
      exact (congrArg Setup.policy hset).trans hpolicy
    · rw [hlast]
      rw [hseen] at hu
      rcases List.mem_append.mp hu with hu | hu
      · obtain ⟨hbefore, hle⟩ := hclock u hu
        exact UInt64.le_of_lt (UInt64.lt_of_le_of_lt hle (hlt hbefore))
      · split at hu
        · rw [List.mem_singleton.mp hu]
          exact UInt64.le_refl _
        · cases hu
    · rw [hlast, hdetector, ← hpolicy]
      rw [hdetector] at hopen
      exact hstill hopen

theorem step_not_evaluating (h : Watched policy s) (he : s.detector.evaluating c = none) :
    SoundRelease s c ∧ Watched policy (s.step c) := by
  have hopening : (s.step c).opening = s.opening := by
    simp only [step, opens, he]
  have hseen : (s.step c).sightings = s.sightings := by
    simp only [step, seen, he, List.append_nil]
  have hdetector : (s.step c).detector = (s.detector.call c).1 := by rw [step]
  refine ⟨fun e now he' => (by rw [he] at he'; cases he'), ?_⟩
  have hpolicy := (cooldown_not_evaluating he).1
  obtain ⟨hinstalled, hbelow, hclock, hborne⟩ := h
  -- the trace bears out the same account as before, whoever the detector is
  have hkept : ∀ acc last, Borne policy.detection s acc last →
      Borne policy.detection (s.step c) acc last := by
    intro acc last hb
    have hextend : ∀ {start stop ticks}, Sustained policy.detection s start stop ticks →
        Sustained policy.detection (s.step c) start stop ticks := fun hs =>
      hs.extend hopening (w := []) (by simpa using hseen) (fun u hu => by cases hu)
    refine ⟨by rw [hopening]; exact hb.opened, fun ticks hticks => ?_, fun hrecovering => ?_⟩
    · obtain ⟨start, hs⟩ := hb.sustained ticks hticks
      exact ⟨start, hextend hs⟩
    · obtain ⟨⟨start, hs⟩, hsighted, hordered, hshallow⟩ := hb.recovering hrecovering
      exact ⟨⟨start, hextend hs⟩, by rw [hseen]; exact hsighted, hordered,
        by rw [hseen]; exact hshallow⟩
  have hsame : SameClock s.detector (s.detector.call c).1 →
      (s.detector.call c).1.releaseAccount = s.detector.releaseAccount →
      Watched policy (s.step c) := by
    intro hclocks haccount
    have hopen : (s.detector.call c).1.hasOpenEpisode = s.detector.hasOpenEpisode :=
      congrArg Current.isOpen hclocks.current
    refine ⟨by rw [hdetector, hpolicy, hinstalled], ?_, ?_, ?_⟩
    · rw [hdetector, hclocks.hasEvaluated, hclocks.lastEvaluated]
      exact hbelow
    · rw [hdetector, hclocks.hasEvaluated, hclocks.lastEvaluated, hseen]
      exact hclock
    · rw [hdetector, hclocks.hasEvaluated, hclocks.lastEvaluated, hopen, haccount]
      exact fun ho => ⟨(hborne ho).1, hkept _ _ (hborne ho).2⟩
  cases unevaluated_call he with
  | kept _ same _ => exact hsame (by rw [same]; exact ⟨rfl, rfl, rfl, rfl, rfl⟩) (by rw [same])
  | offered _ sample _ _ now _ =>
    refine hsame (by rw [now]; exact s.detector.sameClock_offerSample sample) ?_
    rw [now]
    obtain ⟨_, _, _, hoffer⟩ := s.detector.offerSample_eq sample
    rw [hoffer]
    exact releaseAccount_congr rfl rfl rfl rfl
  | fenced fences reason _ _ _ _ now _ =>
    have hclosed := closedBetween_fenceDecision (open_of_fencing fences) reason c.tick
    have hev : (s.step c).detector.hasEvaluated = s.detector.hasEvaluated := by
      rw [hdetector, now]
      exact hclosed.hasEvaluated
    have hlast : (s.step c).detector.lastEvaluated = s.detector.lastEvaluated := by
      rw [hdetector, now]
      exact hclosed.lastEvaluated
    refine ⟨by rw [hdetector, hpolicy, hinstalled], ?_, ?_, fun ho => ?_⟩
    · rw [hev, hlast]
      exact hbelow
    · rw [hev, hlast, hseen]
      exact hclock
    · rw [hdetector, now] at ho
      have hstill : (s.detector.fenceDecision reason c.tick).1.hasOpenEpisode = false :=
        congrArg Current.isOpen hclosed.current
      rw [show (s.detector.fenceDecision reason c.tick).1.hasOpenEpisode = true from ho] at hstill
      cases hstill

theorem watched_configure (key : StreamKey) (policy : Policy) (generation : PolicyGeneration) :
    Watched policy { detector := configure {} key policy generation } :=
  ⟨rfl, fun h => (by cases h), fun _ h => (by cases h), fun h => (by cases h)⟩

/-- STEP: a call at a tick below 2^63 closes as released by the rules, and keeps the invariant. -/
theorem soundRelease_step (h : Watched policy s) (hc : c.tick.value.toNat < 2 ^ 63) :
    SoundRelease s c ∧ Watched policy (s.step c) := by
  cases he : s.detector.evaluating c with
  | none => exact step_not_evaluating h he
  | some p =>
    obtain ⟨e, now⟩ := p
    obtain ⟨-, rfl, -⟩ := evaluating_spec he
    exact step_evaluating h hc he

/-- RELEASES ARE SOUND: in every run of calls at ticks below 2^63, an episode that closes as released
    was opened, then relieved at every sighting for the sustain, then below the onset depth at every
    sighting for the cooldown. -/
theorem soundRelease_run (key : StreamKey) (policy : Policy) (generation : PolicyGeneration)
    (calls : List Call) (hticks : ∀ c ∈ calls, c.tick.value.toNat < 2 ^ 63) :
    Runs.Meets step SoundRelease { detector := configure {} key policy generation } calls := by
  refine Runs.meets_of_invariant (I := Watched policy) ?_
    (watched_configure key policy generation) hticks
  intro s c h hc
  exact soundRelease_step h hc

/-- A deep queue up to tick 3 and an empty one from tick 4 on. -/
def calmCalls : List Call :=
  [1, 2, 3].map deepSample ++ [4, 5, 6, 7, 8, 9, 10, 11].map OnsetTrace.shallowSample

theorem soundRelease_run_calm : Runs.Meets step SoundRelease
    { detector := configure {} gapKey CooldownLog.coolPolicy ⟨1⟩ } calmCalls :=
  soundRelease_run _ _ _ _ (by decide)

example : (((Runs.run step { detector := configure {} gapKey CooldownLog.coolPolicy ⟨1⟩ }
    calmCalls.dropLast).detector.call (.ingest { stream := gapKey, tick := ⟨11⟩ })).2.map
      DetectionDecision.ending) = some (some .releaseConfirmed) := by decide +kernel

end ReleaseTrace

end Detector

end Mbg
