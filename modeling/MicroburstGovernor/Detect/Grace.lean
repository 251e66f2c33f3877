import MicroburstGovernor.Detect.Ceiling
import MicroburstGovernor.Detect.Retained
import MicroburstGovernor.Detect.Standing

/-! The evidence grace over runs of one detector: no episode outlives its evidence.

    The grace clock is a latched tick. While an episode is open the latch holds the first evaluation
    of the current unbroken streak of inadmissible ones, and nothing otherwise: an admissible
    evaluation clears it, an inadmissible one sets it when it is clear, and a new episode opens on
    admissible evidence. -/

namespace Mbg

namespace Detector

/-! ### The grace clock -/

/-- The start of the inadmissible streak the grace is measured from. -/
def latched (d : Detector) : Option Tick :=
  if d.inadmissibleSinceSet then some d.inadmissibleSince else none

theorem latched_eq_none {d : Detector} (h : d.inadmissibleSinceSet = false) : d.latched = none := by
  rw [latched, h, if_neg Bool.false_ne_true]

theorem latch_trackOnset (d : Detector) (now : Tick) (gap : UInt64) (depthOk slopeOk : Bool) :
    (d.trackOnset now gap depthOk slopeOk).inadmissibleSinceSet = d.inadmissibleSinceSet := by
  rw [trackOnset]
  cases depthOk with
  | false => rfl
  | true =>
    rw [if_pos rfl]
    extract_lets d'
    have h : d'.inadmissibleSinceSet = d.inadmissibleSinceSet := by
      dsimp only [d']
      cases d.onsetRunActive <;> rfl
    split <;> exact h

theorem latch_trackRelease (d : Detector) (gap : UInt64) (releaseNow : Bool) :
    (d.trackRelease gap releaseNow).inadmissibleSinceSet = d.inadmissibleSinceSet := by
  rw [trackRelease]
  split
  · split <;> rfl
  · rfl

theorem latch_updateEpisode (d : Detector) (now : Tick) (m : EvidenceWindow.Metrics)
    (r : DetectionDecision) :
    (d.updateEpisode now m r).1.inadmissibleSinceSet = d.inadmissibleSinceSet := by
  rw [updateEpisode]
  split <;> rfl

theorem latch_closeEpisode (d : Detector) (reason : CloseReason) (now : Tick)
    (r : DetectionDecision) (fenced : Bool) :
    (d.closeEpisode reason now r fenced).1.inadmissibleSinceSet = false := rfl

/-- The state machine never sets the latch. -/
theorem latch_transition {d : Detector} (h : d.inadmissibleSinceSet = false) (now : Tick)
    (m : EvidenceWindow.Metrics) (adm : Admissibility) (cooldownOk releaseNow : Bool)
    (r : DetectionDecision) :
    (d.transition now m adm cooldownOk releaseNow r).1.inadmissibleSinceSet = false := by
  rw [transition]
  cases d.state with
  | idle =>
    dsimp only
    split
    · have ho : (d.openEpisode now r).1.inadmissibleSinceSet = d.inadmissibleSinceSet := rfl
      generalize d.openEpisode now r = o at *
      exact (latch_updateEpisode o.1 now m o.2).trans (ho.trans h)
    · split <;> exact h
  | active =>
    have hu := latch_updateEpisode d now m r
    generalize d.updateEpisode now m r = u at *
    dsimp only
    split <;> exact hu.trans h
  | recovering =>
    dsimp only
    split
    · exact (latch_updateEpisode { d with
        state := .active, releaseSustaining := false, releaseProgressTicks := 0 } now m
        (r.explain ReasonCode.episodeMerged 0 0 now)).trans h
    · have hu := latch_updateEpisode d now m r
      generalize d.updateEpisode now m r = u at *
      split
      · exact latch_closeEpisode u.1 _ now u.2 _
      · exact hu.trans h

theorem latch_enforceCeiling {d : Detector} (h : d.inadmissibleSinceSet = false) (now : Tick)
    (r : DetectionDecision) : (d.enforceCeiling now r).1.inadmissibleSinceSet = false := by
  rw [enforceCeiling]
  dsimp only
  split
  · exact latch_closeEpisode d CloseReason.episodeTimeout now (r.explain ReasonCode.episodeTimedOut
      d.episode.metrics.durationTicks.toInt64 d.policy.detection.maxEpisodeTicks.toInt64 now) false
  · exact h

/-- Admissible evidence clears the latch. -/
theorem latch_evaluateAdmissible (d : Detector) (now : Tick) (gap : UInt64)
    (m : EvidenceWindow.Metrics) (adm : Admissibility) (r : DetectionDecision) :
    (d.evaluateAdmissible now gap m adm r).1.inadmissibleSinceSet = false := by
  obtain ⟨r', heq, -⟩ := d.evaluateAdmissible_accounted now gap m adm r
  have ha : (d.accounted now gap m).inadmissibleSinceSet = false := by
    rw [accounted, latch_trackRelease, latch_trackOnset]
  rw [heq, decided]
  exact latch_enforceCeiling (latch_transition ha now m adm _ _ r') now _

/-- Inadmissible evidence that leaves an episode open sets a clear latch and keeps a set one. -/
theorem latched_evaluateInadmissible {d : Detector} {now : Tick} {adm : Admissibility}
    {r : DetectionDecision} (hopen : (d.evaluateInadmissible now adm r).1.hasOpenEpisode = true) :
    (d.evaluateInadmissible now adm r).1.latched = some (d.latched.getD now) := by
  revert hopen
  unfold evaluateInadmissible
  extract_lets dp r₁ d₁ staleExcess held reason
  have hd₁ : d₁.latched = some (d.latched.getD now) := by
    dsimp only [d₁]
    cases hset : d.inadmissibleSinceSet <;> simp [latched, hset]
  by_cases hwas : d.hasOpenEpisode = true
  · rw [if_neg (by simp [hwas])]
    by_cases hheld : held ≤ dp.evidenceGraceTicks
    · rw [if_pos hheld]
      exact fun _ => hd₁
    · rw [if_neg hheld]
      have hclosed := d₁.closed_closeEpisode reason now r₁ true
      generalize d₁.closeEpisode reason now r₁ true = e at *
      intro hopen
      rw [show _ = false from hclosed] at hopen
      cases hopen
  · rw [if_pos (by simpa using hwas)]
    exact fun hopen => absurd hopen hwas

/-- The latch after a fresh evaluation that leaves an episode open. -/
theorem latched_evaluateFresh {d : Detector} {now : Tick}
    (hopen : (d.evaluateFresh now).1.hasOpenEpisode = true) :
    (d.evaluateFresh now).1.latched =
      if (d.admissibilityAt now).admissible then none else some (d.latched.getD now) := by
  obtain ⟨r, -, heq⟩ := d.evaluateFresh_eq now
  rw [heq] at hopen ⊢
  cases hadm : (d.admissibilityAt now).admissible with
  | true =>
    rw [if_pos rfl, if_pos rfl]
    exact latched_eq_none (latch_evaluateAdmissible (d.clocked now) now _ _ _ r)
  | false =>
    rw [hadm, if_neg Bool.false_ne_true] at hopen
    rw [if_neg Bool.false_ne_true, if_neg Bool.false_ne_true]
    exact latched_evaluateInadmissible (d := d.clocked now) hopen

/-! ### Evidence at an evaluation -/

/-- Admissible evidence is a sample, none older than the staleness limit. -/
theorem evidence_of_admissible {d : Detector} {now : Tick}
    (h : (d.admissibilityAt now).admissible = true) : d.window.size ≠ 0 ∧
      d.window.stalenessTicks now ≤ d.policy.detection.stalenessLimitTicks := by
  have hfresh : (d.admissibilityAt now).fresh = true := by
    simp only [Admissibility.admissible, Admissibility.degradedAllowed, Admissibility.authoritative,
      Bool.or_eq_true, Bool.and_eq_true] at h
    rcases h with h | h
    · exact h.1.1.2
    · exact h.1.2
  simp only [admissibilityAt, admissibility, Bool.and_eq_true, decide_eq_true_eq] at hfresh
  refine ⟨fun hzero => ?_, hfresh.2⟩
  rw [EvidenceWindow.metrics, if_pos hzero] at hfresh
  exact absurd hfresh.1 (by decide)

/-- The ticks a suspended episode was held for, from either clock. -/
theorem held_of_suspends {d : Detector} {now : Tick} (h : d.suspends now = true) :
    forwardGap (d.latched.getD now) now ≤ d.policy.detection.evidenceGraceTicks ∧
      (d.window.stalenessTicks now).toNat ≤ d.policy.detection.stalenessLimitTicks.toNat +
        d.policy.detection.evidenceGraceTicks.toNat := by
  simp only [suspends, Bool.and_eq_true, decide_eq_true_eq] at h
  obtain ⟨-, h⟩ := h
  rw [heldFor] at h
  have hlatch : d.latched.getD now =
      if d.inadmissibleSinceSet then d.inadmissibleSince else now := by
    rw [latched]
    cases d.inadmissibleSinceSet <;> rfl
  rw [hlatch]
  generalize forwardGap (if d.inadmissibleSinceSet then d.inadmissibleSince else now) now = since at *
  generalize d.window.stalenessTicks now = stale at *
  rw [EvidenceWindow.uint64_max_le] at h
  refine ⟨h.1, ?_⟩
  have hexcess := h.2
  split_ifs at hexcess with hover
  · rw [UInt64.le_iff_toNat_le, UInt64.toNat_sub_of_le _ _ (UInt64.le_of_lt hover)] at hexcess
    omega
  · rw [gt_iff_lt, UInt64.not_lt, UInt64.le_iff_toNat_le] at hover
    omega

/-- What an evaluation that leaves an episode open found: a sample, stale by no more than the limit
    and the grace, and a streak no longer than the grace when it was inadmissible. -/
structure Sustains (d : Detector) (now : Tick) : Prop where
  sampled : d.window.size ≠ 0
  newest : now.value.toNat ≤ d.window.newest.tick.value.toNat +
    d.policy.detection.stalenessLimitTicks.toNat + d.policy.detection.evidenceGraceTicks.toNat
  streak : (d.admissibilityAt now).admissible = false → d.hasOpenEpisode = true ∧
    now.value.toNat ≤ (d.latched.getD now).value.toNat + d.policy.detection.evidenceGraceTicks.toNat

theorem sustains_evaluateFresh {d : Detector} {now : Tick} (hnow : now.value.toNat < 2 ^ 63)
    (hsampled : d.hasOpenEpisode = true → d.window.size ≠ 0)
    (hticks : ∀ s ∈ d.window.retained, s.tick.value.toNat < 2 ^ 63)
    (hlatched : d.hasOpenEpisode = true → ∀ start ∈ d.latched, start.value.toNat < 2 ^ 63)
    (hopen : (d.evaluateFresh now).1.hasOpenEpisode = true) : Sustains d now := by
  have hstale : d.window.size ≠ 0 → (d.window.stalenessTicks now).toNat =
      now.value.toNat - d.window.newest.tick.value.toNat := by
    intro hsize
    rw [EvidenceWindow.stalenessTicks, if_neg hsize]
    refine toNat_forwardGap (hticks _ ?_) hnow
    exact List.mem_of_getLast? (EvidenceWindow.getLast?_retained hsize)
  cases hadm : (d.admissibilityAt now).admissible with
  | true =>
    obtain ⟨hsize, hle⟩ := evidence_of_admissible hadm
    rw [UInt64.le_iff_toNat_le, hstale hsize] at hle
    refine ⟨hsize, by omega, fun h => ?_⟩
    rw [hadm] at h
    cases h
  | false =>
    have hsuspends : d.suspends now = true := ((d.open_evaluateFresh now).2 hadm).symm.trans hopen
    have hwas : d.hasOpenEpisode = true := by
      simp only [suspends, Bool.and_eq_true] at hsuspends
      exact hsuspends.1.1
    obtain ⟨hsince, hle⟩ := held_of_suspends hsuspends
    rw [hstale (hsampled hwas)] at hle
    refine ⟨hsampled hwas, by omega, fun _ => ⟨hwas, ?_⟩⟩
    have hstart : (d.latched.getD now).value.toNat < 2 ^ 63 := by
      cases hl : d.latched with
      | none => exact hnow
      | some start => exact hlatched hwas start hl
    rw [UInt64.le_iff_toNat_le, toNat_forwardGap hstart hnow] at hsince
    omega

/-! ### Runs -/

/-- A detector and the first evaluation of the current unbroken streak of inadmissible ones, if its
    last evaluation was one. -/
structure StreakLog where
  detector : Detector
  streak : Option Tick := none

namespace StreakLog

/-- An admissible evaluation breaks the streak; an inadmissible one goes on with it or starts one. -/
def streakAfter (s : StreakLog) (c : Call) : Option Tick :=
  match s.detector.evaluating c with
  | some (e, now) => if (e.admissibilityAt now).admissible then none else some (s.streak.getD now)
  | none => s.streak

def step (s : StreakLog) (c : Call) : StreakLog where
  detector := (s.detector.call c).1
  streak := s.streakAfter c

/-- The contract of a call: an episode its fresh evaluation leaves open has a sample that is stale by
    no more than the limit and the grace, and is in no inadmissible streak longer than the grace. -/
structure WithinGrace (s : StreakLog) (c : Call) (now : Tick) : Prop where
  sampled : (s.step c).detector.window.size ≠ 0
  newest : now.value.toNat ≤ (s.step c).detector.window.newest.tick.value.toNat +
    s.detector.policy.detection.stalenessLimitTicks.toNat +
    s.detector.policy.detection.evidenceGraceTicks.toNat
  streak : ∀ start ∈ s.streakAfter c,
    now.value.toNat ≤ start.value.toNat + s.detector.policy.detection.evidenceGraceTicks.toNat

def OutlivesNoEvidence (s : StreakLog) (c : Call) : Prop :=
  ∀ e now, s.detector.evaluating c = some (e, now) →
    (s.step c).detector.hasOpenEpisode = true → WithinGrace s c now

/-- The invariant: ticks lie in the lower half of their range, an open episode has a sample, and its
    latch is the streak. -/
structure Holding (s : StreakLog) : Prop where
  tracked : s.detector.window.Tracked
  ticks : ∀ x ∈ s.detector.window.retained, x.tick.value.toNat < 2 ^ 63
  streak : ∀ start ∈ s.streak, start.value.toNat < 2 ^ 63
  sampled : s.detector.hasOpenEpisode = true → s.detector.window.size ≠ 0
  latched : s.detector.hasOpenEpisode = true → s.detector.latched = s.streak

theorem holding_configure (d : Detector) (key : StreamKey) (policy : Policy)
    (generation : PolicyGeneration) : Holding ⟨configure d key policy generation, none⟩ := by
  refine ⟨EvidenceWindow.tracked_reset _, fun x hx => ?_, ?_, ?_, ?_⟩
  · rw [show (configure d key policy generation).window.retained = [] from
      EvidenceWindow.retained_of_empty rfl] at hx
    cases hx
  · exact fun start hstart => by cases hstart
  · exact fun hopen => by cases hopen
  · exact fun hopen => by cases hopen

/-- A sample that fences nothing joins the window of an open episode, or starts another one. -/
theorem window_offerSample {d : Detector} (h : d.window.Tracked)
    (hticks : ∀ x ∈ d.window.retained, x.tick.value.toNat < 2 ^ 63) {sample : Sample}
    (hsample : sample.tick.value.toNat < 2 ^ 63) :
    (d.offerSample sample).window.Tracked ∧
      (∀ x ∈ (d.offerSample sample).window.retained, x.tick.value.toNat < 2 ^ 63) ∧
      (d.offerSample sample).window.size ≠ 0 := by
  unfold offerSample
  extract_lets d₁
  have hd₁ : d₁.window.Tracked ∧ ∀ x ∈ d₁.window.retained, x.tick.value.toNat < 2 ^ 63 := by
    dsimp only [d₁]
    split_ifs
    · refine ⟨EvidenceWindow.tracked_reset _, fun x hx => ?_⟩
      rw [show (resetWindow d.policy).retained = [] from
        EvidenceWindow.retained_of_empty rfl] at hx
      cases hx
    · exact ⟨h, hticks⟩
    · exact ⟨h, hticks⟩
  clear_value d₁
  obtain ⟨htracked, hticks₁⟩ := hd₁
  refine ⟨(EvidenceWindow.offer_offered htracked sample _).tracked, fun x hx => ?_,
    EvidenceWindow.size_step_ne_zero htracked (sample, _)⟩
  rcases EvidenceWindow.mem_retained_offer htracked hx with hold | ⟨rfl, -⟩
  · exact hticks₁ x hold
  · exact hsample

/-- The detector a call evaluates holds what the one it is made on does. -/
theorem holding_evaluating {s : StreakLog} {c : Call} {e : Detector} {now : Tick} (h : Holding s)
    (hc : c.tick.value.toNat < 2 ^ 63) (he : s.detector.evaluating c = some (e, now)) :
    Holding ⟨e, s.streak⟩ ∧ e.policy = s.detector.policy ∧ now = c.tick := by
  cases evaluates_of_evaluating he with
  | @ingest sample _ _ _ _ =>
    obtain ⟨htracked, hticks, hsize⟩ := window_offerSample h.tracked h.ticks hc
    refine ⟨⟨htracked, hticks, h.streak, fun _ => hsize, ?_⟩,
      (s.detector.setup_offerSample sample).2, rfl⟩
    obtain ⟨resourceGeneration, window, lastAccept, hoffer⟩ := s.detector.offerSample_eq sample
    simp only [hoffer]
    exact h.latched
  | advance _ => exact ⟨h, rfl, rfl⟩

/-- An evaluation sustains what it leaves open, and the latch follows the streak. -/
theorem step_evaluating {s : StreakLog} {c : Call} {e : Detector} {now : Tick} (h : Holding s)
    (hc : c.tick.value.toNat < 2 ^ 63) (he : s.detector.evaluating c = some (e, now)) :
    OutlivesNoEvidence s c ∧ Holding (s.step c) := by
  obtain ⟨hholding, hpolicy, rfl⟩ := holding_evaluating h hc he
  have hstreak : s.streakAfter c =
      if (e.admissibilityAt c.tick).admissible then none else some (s.streak.getD c.tick) := by
    rw [streakAfter, he]
  have hstep : s.step c = ⟨(e.evaluateFresh c.tick).1, s.streakAfter c⟩ := by
    rw [step, call_evaluating he]
  have hwindow : (e.evaluateFresh c.tick).1.window = e.window :=
    congrArg Setup.window (e.evaluated_evaluateFresh c.tick).setup
  have hsustains : (e.evaluateFresh c.tick).1.hasOpenEpisode = true → Sustains e c.tick := by
    refine sustains_evaluateFresh hc hholding.sampled hholding.ticks fun hopen start hstart => ?_
    have hlatched : e.latched = s.streak := hholding.latched hopen
    exact h.streak start (hlatched ▸ hstart)
  have hafter : ∀ start ∈ s.streakAfter c, start.value.toNat < 2 ^ 63 := by
    intro start hstart
    rw [hstreak] at hstart
    split_ifs at hstart
    · cases hstart
    · cases hs : s.streak with
      | none =>
        rw [hs, Option.mem_some_iff] at hstart
        exact hstart ▸ hc
      | some first =>
        rw [hs, Option.mem_some_iff] at hstart
        exact hstart ▸ h.streak first hs
  constructor
  · intro e' now' he' hopen
    obtain ⟨rfl, rfl⟩ := Prod.mk.inj (Option.some.inj (he.symm.trans he'))
    rw [hstep] at hopen
    have hsus := hsustains hopen
    refine ⟨?_, ?_, fun start hstart => ?_⟩
    · rw [hstep, hwindow]
      exact hsus.sampled
    · rw [hstep, hwindow, ← hpolicy]
      exact hsus.newest
    · rw [hstreak] at hstart
      split_ifs at hstart with hadm
      · cases hstart
      · obtain ⟨hwas, hle⟩ := hsus.streak (by simpa using hadm)
        have hlatched : e.latched = s.streak := hholding.latched hwas
        rw [Option.mem_some_iff] at hstart
        rw [← hpolicy, ← hstart, ← hlatched]
        exact hle
  · rw [hstep]
    refine ⟨?_, ?_, hafter, fun hopen => ?_, fun hopen => ?_⟩
    · rw [hwindow]
      exact hholding.tracked
    · rw [hwindow]
      exact hholding.ticks
    · rw [hwindow]
      exact (hsustains hopen).sampled
    · rw [latched_evaluateFresh hopen, hstreak]
      cases hadm : (e.admissibilityAt c.tick).admissible with
      | true => rfl
      | false =>
        have hlatched : e.latched = s.streak :=
          hholding.latched ((hsustains hopen).streak hadm).1
        rw [hlatched]

theorem step_not_evaluating {s : StreakLog} {c : Call} (h : Holding s)
    (hc : c.tick.value.toNat < 2 ^ 63) (he : s.detector.evaluating c = none) :
    OutlivesNoEvidence s c ∧ Holding (s.step c) := by
  have hstreak : s.streakAfter c = s.streak := by rw [streakAfter, he]
  refine ⟨fun e now he' => absurd (he.symm.trans he') (Option.some_ne_none _).symm, ?_⟩
  cases unevaluated_call he with
  | kept _ same _ =>
    rw [step, hstreak, same]
    exact h
  | offered _ sample hingest _ now _ =>
    subst hingest
    rw [step, hstreak, now]
    obtain ⟨htracked, hticks, hsize⟩ := window_offerSample h.tracked h.ticks hc
    obtain ⟨resourceGeneration, window, lastAccept, hoffer⟩ := s.detector.offerSample_eq sample
    refine ⟨htracked, hticks, h.streak, fun _ => hsize, ?_⟩
    rw [hoffer]
    exact h.latched
  | fenced _ reason _ window _ empties now _ =>
    have hclosed : (s.detector.fenceDecision reason c.tick).1.hasOpenEpisode = false :=
      congrArg Current.isOpen (s.detector.fenced_fenceDecision reason c.tick).current
    rw [step, hstreak, now]
    generalize (s.detector.fenceDecision reason c.tick).1 = f at *
    have hnot : ∀ P : Prop, f.hasOpenEpisode = true → P :=
      fun P hopen => absurd (hclosed.symm.trans hopen) Bool.false_ne_true
    have hempty : (resetWindow s.detector.policy).retained = [] :=
      EvidenceWindow.retained_of_empty rfl
    rcases empties with rfl | rfl
    · exact ⟨h.tracked, h.ticks, h.streak, hnot _, hnot _⟩
    · refine ⟨EvidenceWindow.tracked_reset _, fun x hx => ?_, h.streak, hnot _, hnot _⟩
      rw [show _ = [] from hempty] at hx
      cases hx

/-- STEP: no call lets an episode outlive its evidence. -/
theorem outlives_step {s : StreakLog} {c : Call} (h : Holding s)
    (hc : c.tick.value.toNat < 2 ^ 63) : OutlivesNoEvidence s c ∧ Holding (s.step c) := by
  cases he : s.detector.evaluating c with
  | none => exact step_not_evaluating h hc he
  | some e => exact step_evaluating h hc he

/-- NO EPISODE OUTLIVES ITS EVIDENCE: in every run of calls at ticks below 2^63 an episode that a
    fresh evaluation leaves open has a sample no older than the staleness limit and the grace, and
    is at most the grace past the first evaluation of the current inadmissible streak. -/
theorem outlives_run (d : Detector) (key : StreamKey) (policy : Policy)
    (generation : PolicyGeneration) (calls : List Call)
    (hticks : ∀ c ∈ calls, c.tick.value.toNat < 2 ^ 63) :
    Runs.Meets step OutlivesNoEvidence ⟨configure d key policy generation, none⟩ calls := by
  refine Runs.meets_of_invariant (I := Holding) (fun s c hs hc => ?_)
    (holding_configure d key policy generation) hticks
  exact outlives_step hs hc

/-- An episode that is suspended on stale evidence, comes back, and is fenced past its grace. -/
theorem outlives_run_suspended : Runs.Meets step OutlivesNoEvidence
    ⟨configure {} ⟨⟨1⟩, ⟨1⟩, ⟨1⟩⟩ OnsetLog.briskPolicy ⟨1⟩, none⟩
    [OnsetLog.briskSample 1, OnsetLog.briskSample 2, OnsetLog.briskSample 3, .advance ⟨22⟩,
      OnsetLog.briskSample 7, .advance ⟨26⟩, .advance ⟨40⟩] :=
  outlives_run _ _ _ _ _ (by decide +kernel)

end StreakLog

end Detector

end Mbg
