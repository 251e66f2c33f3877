import MicroburstGovernor.Detect.Evaluation
import MicroburstGovernor.Lib.Runs

/-! Episode identity on one detector: onset ticks only rise, and an episode keeps its identity until
    the decision that closes it.

    The onset of an episode is the start of the onset run that opened it. A run starts at the tick of
    a fresh evaluation, and closing an episode ends the run, so the next episode's run starts after
    every evaluation before it. -/

namespace Mbg

namespace Detector

/-! ### The onset run of an evaluation -/

/-- What the state machine does to the onset run: it keeps it or ends it, ends it when it closes,
    and opens an episode at its start. -/
structure RunKept (run : Option Tick) (d' : Detector) (r : DetectionDecision) : Prop where
  kept : d'.onsetRun = none ∨ d'.onsetRun = run
  closed : r.closed = true → d'.onsetRun = none
  onset : r.opened = true → run = some d'.episode.metrics.onsetTick

section

variable (d : Detector) (now : Tick) (r : DetectionDecision)

theorem onsetRun_openEpisode : (d.openEpisode now r).1.onsetRun = d.onsetRun := rfl

theorem onsetRun_updateEpisode (m : EvidenceWindow.Metrics) :
    (d.updateEpisode now m r).1.onsetRun = d.onsetRun := by
  rw [updateEpisode]
  split
  · rfl
  · simp only [onsetRun]

theorem onsetRun_closeEpisode (reason : CloseReason) (fenced : Bool) :
    (d.closeEpisode reason now r fenced).1.onsetRun = none := by
  simp only [closeEpisode, onsetRun, Bool.false_eq_true, if_false]

end

/-- An evaluation that updates keeps the run; the decision says neither opened nor closed. -/
theorem runKept_updateEpisode {d : Detector} {r : DetectionDecision} (h : d.hasOpenEpisode = true)
    (ho : r.opened = false) (hc : r.closed = false) (now : Tick) (m : EvidenceWindow.Metrics)
    (c : Classification) : RunKept d.onsetRun (d.updateEpisode now m r).1
      { (d.updateEpisode now m r).2 with classification := c } := by
  obtain ⟨severity, hv, -⟩ := d.verdict_updateEpisode now r m h
  have hrun := d.onsetRun_updateEpisode now r m
  generalize d.updateEpisode now m r = u at *
  simp only [DetectionDecision.verdict, DetectionDecision.Verdict.mk.injEq] at hv
  obtain ⟨-, -, -, -, -, -, hopened, -, hclosed, -⟩ := hv
  refine ⟨Or.inr hrun, fun h => ?_, fun h => ?_⟩
  · rw [show u.2.closed = true from h] at hclosed; rw [hc] at hclosed; cases hclosed
  · rw [show u.2.opened = true from h] at hopened; rw [ho] at hopened; cases hopened

/-- Closing ends the run; what was opened keeps its onset. -/
theorem RunKept.close {run : Option Tick} {d : Detector} {r : DetectionDecision}
    (h : RunKept run d r) (reason : CloseReason) (now : Tick) (c : Classification) :
    let e := d.closeEpisode reason now { r with classification := c } false
    RunKept run e.1 { e.2 with classification := .quiescent } := by
  intro e
  have hrun : e.1.onsetRun = none := d.onsetRun_closeEpisode now _ reason false
  obtain ⟨severity, hv⟩ := d.verdict_closeEpisode now { r with classification := c } reason false
  have hcur := congrArg Current.onset
    (d.current_closeEpisode now { r with classification := c } reason false)
  change e.2.verdict = _ at hv
  change e.1.episode.metrics.onsetTick = d.episode.metrics.onsetTick at hcur
  clear_value e
  have hopened : e.2.opened = r.opened := congrArg DetectionDecision.Verdict.opened hv
  refine ⟨Or.inl hrun, fun _ => hrun, fun ho => ?_⟩
  rw [hcur]
  exact h.onset (hopened ▸ ho)

theorem RunKept.of_negative {run : Option Tick} {d : Detector} {r : DetectionDecision}
    (hrun : d.onsetRun = run) (ho : r.opened = false) (hc : r.closed = false) : RunKept run d r :=
  ⟨Or.inr hrun, fun h => (Bool.false_ne_true (hc ▸ h)).elim,
    fun h => (Bool.false_ne_true (ho ▸ h)).elim⟩

theorem runKept_transition {d : Detector} {r : DetectionDecision} (ho : r.opened = false)
    (hc : r.closed = false) (now : Tick) (m : EvidenceWindow.Metrics) (adm : Admissibility)
    (cooldownOk releaseNow : Bool) : RunKept d.onsetRun
      (d.transition now m adm cooldownOk releaseNow r).1
      (d.transition now m adm cooldownOk releaseNow r).2 := by
  rw [transition]
  cases hs : d.state with
  | idle =>
    by_cases hopen : (d.onsetConfirmed && cooldownOk) = true
    · simp only [hopen, if_true]
      have hactive : d.onsetRunActive = true := by
        simp only [onsetConfirmed, Bool.and_eq_true] at hopen
        exact hopen.1.1.1
      have hrun := (d.openEpisode now r).1.onsetRun_updateEpisode now (d.openEpisode now r).2 m
      have hcur := congrArg Current.onset
        ((d.openEpisode now r).1.current_updateEpisode now (d.openEpisode now r).2 m)
      obtain ⟨severity, hv, -⟩ :=
        (d.openEpisode now r).1.verdict_updateEpisode now (d.openEpisode now r).2 m rfl
      rw [onsetRun_openEpisode] at hrun
      rw [current_openEpisode] at hcur
      rw [verdict_openEpisode] at hv
      have hclosed := (congrArg DetectionDecision.Verdict.closed hv).trans hc
      generalize (d.openEpisode now r).1.updateEpisode now m (d.openEpisode now r).2 = u at *
      refine ⟨Or.inr hrun, fun h => ?_, fun _ => ?_⟩
      · rw [show u.2.verdict.closed = true from h] at hclosed; cases hclosed
      · rw [show u.1.episode.metrics.onsetTick = d.onsetStartTick from hcur, onsetRun, if_pos hactive]
    · simp only [hopen, Bool.false_eq_true, if_false]
      split <;> exact .of_negative rfl ho hc
  | active =>
    have hopen : d.hasOpenEpisode = true := by simp [hasOpenEpisode, hs]
    by_cases hrel : d.releaseConfirmed releaseNow = true
    · simp only [hrel, if_true]
      have h := runKept_updateEpisode hopen ho hc now m .recovering
      generalize d.updateEpisode now m r = u at *
      exact ⟨h.kept, h.closed, h.onset⟩
    · simp only [hrel, Bool.false_eq_true, if_false]
      exact runKept_updateEpisode hopen ho hc now m _
  | recovering =>
    have hopen : d.hasOpenEpisode = true := by simp [hasOpenEpisode, hs]
    by_cases hrun : d.onsetRunActive = true
    · dsimp only
      rw [if_pos hrun]
      have ho' : (r.explain ReasonCode.episodeMerged 0 0 now).opened = false := by
        simp only [DetectionDecision.explain]; exact ho
      have hc' : (r.explain ReasonCode.episodeMerged 0 0 now).closed = false := by
        simp only [DetectionDecision.explain]; exact hc
      exact runKept_updateEpisode (d := { d with
        state := .active, releaseSustaining := false, releaseProgressTicks := 0 })
        rfl ho' hc' now m _
    · simp only [hrun, Bool.false_eq_true, if_false]
      by_cases hcool : forwardGap d.recoveryStartTick now ≥ d.policy.detection.cooldownTicks
      · simp only [hcool, if_true]
        have h := runKept_updateEpisode hopen ho hc now m .recovering
        generalize d.updateEpisode now m r = u at *
        exact h.close _ now _
      · simp only [hcool, if_false]
        exact runKept_updateEpisode hopen ho hc now m _

theorem RunKept.enforceCeiling {run : Option Tick} {d : Detector} {r : DetectionDecision}
    (h : RunKept run d r) (now : Tick) :
    RunKept run (d.enforceCeiling now r).1 (d.enforceCeiling now r).2 := by
  rw [Detector.enforceCeiling]
  by_cases hover : (d.hasOpenEpisode &&
      d.episode.metrics.durationTicks ≥ d.policy.detection.maxEpisodeTicks) = true
  · simp only [hover, if_true]
    have h' : RunKept run d (r.explain ReasonCode.episodeTimedOut
        d.episode.metrics.durationTicks.toInt64 d.policy.detection.maxEpisodeTicks.toInt64 now) :=
      ⟨h.kept, h.closed, h.onset⟩
    exact h'.close _ now _
  · simp only [hover, Bool.false_eq_true, if_false]
    exact h

/-- What a fresh evaluation does to the onset run: kept, ended, or started at its tick; what it
    opens has its onset there. -/
structure RunEvaluated (d : Detector) (now : Tick) (d' : Detector) (r : DetectionDecision) : Prop where
  run : d'.onsetRun = none ∨ d'.onsetRun = d.onsetRun ∨ d'.onsetRun = some now
  closed : r.closed = true → d'.onsetRun = none
  onset : r.opened = true → d'.episode.metrics.onsetTick = d.onsetRun.getD now

theorem runEvaluated_evaluateAdmissible (d : Detector) (now : Tick) (gap : UInt64)
    (m : EvidenceWindow.Metrics) (adm : Admissibility) (r : DetectionDecision)
    (ho : r.opened = false) (hc : r.closed = false) :
    RunEvaluated d now (d.evaluateAdmissible now gap m adm r).1
      (d.evaluateAdmissible now gap m adm r).2 := by
  obtain ⟨d', r', cooldownOk, releaseNow, heq, -, -, hrun, hv, -, -⟩ :=
    d.evaluateAdmissible_eq now gap m adm r
  rw [heq]
  have ho' := (congrArg DetectionDecision.Verdict.opened hv).trans ho
  have hc' := (congrArg DetectionDecision.Verdict.closed hv).trans hc
  have h := (runKept_transition (d := d') ho' hc' now m adm cooldownOk releaseNow).enforceCeiling now
  generalize d'.transition now m adm cooldownOk releaseNow r' = t at *
  refine ⟨?_, h.closed, fun hopen => ?_⟩
  · rcases h.kept with h | h
    · exact Or.inl h
    · rw [h]
      refine hrun.imp_right fun hr => ?_
      rw [hr]
      cases d.onsetRun with
      | none => exact Or.inr rfl
      | some start => exact Or.inl rfl
  · have hon := h.onset hopen
    rcases hrun with hr | hr
    · rw [hr] at hon; cases hon
    · rw [hr] at hon; exact (Option.some.inj hon).symm

theorem runEvaluated_evaluateInadmissible (d : Detector) (now : Tick) (adm : Admissibility)
    (r : DetectionDecision) (ho : r.opened = false) (hc : r.closed = false) :
    RunEvaluated d now (d.evaluateInadmissible now adm r).1 (d.evaluateInadmissible now adm r).2 := by
  unfold evaluateInadmissible
  extract_lets dp r₁ d₁ staleExcess held reason
  have hrun : d₁.onsetRun = d.onsetRun := by
    dsimp only [d₁]; split <;> rfl
  have ho₁ : r₁.opened = false := ho
  have hc₁ : r₁.closed = false := hc
  by_cases hopen : d.hasOpenEpisode = true
  · rw [if_neg (by simp [hopen])]
    by_cases hheld : held ≤ dp.evidenceGraceTicks
    · rw [if_pos hheld]
      exact ⟨Or.inr (Or.inl hrun), fun h => (Bool.false_ne_true (hc₁ ▸ h)).elim,
        fun h => (Bool.false_ne_true (ho₁ ▸ h)).elim⟩
    · rw [if_neg hheld]
      have hnone := d₁.onsetRun_closeEpisode now r₁ reason true
      obtain ⟨severity, hv⟩ := d₁.verdict_closeEpisode now r₁ reason true
      have ho₂ := (congrArg DetectionDecision.Verdict.opened hv).trans ho₁
      generalize d₁.closeEpisode reason now r₁ true = e at *
      exact ⟨Or.inl hnone, fun _ => hnone, fun h => (Bool.false_ne_true (ho₂ ▸ h)).elim⟩
  · rw [if_pos (by simp [hopen])]
    exact ⟨Or.inr (Or.inl rfl), fun h => (Bool.false_ne_true (hc₁ ▸ h)).elim,
      fun h => (Bool.false_ne_true (ho₁ ▸ h)).elim⟩

theorem runEvaluated_evaluateFresh (d : Detector) (now : Tick) :
    RunEvaluated d now (d.evaluateFresh now).1 (d.evaluateFresh now).2 := by
  unfold evaluateFresh
  extract_lets gap d₁ metrics r₀ adm r₁
  have hv : r₁.verdict = (d.newDecision now).verdict :=
    (verdict_explainEvidence d₁ metrics adm now r₀).trans rfl
  have ho : r₁.opened = false := congrArg DetectionDecision.Verdict.opened hv
  have hc : r₁.closed = false := congrArg DetectionDecision.Verdict.closed hv
  have hrun : d₁.onsetRun = d.onsetRun := rfl
  clear_value d₁ r₁
  have finish : ∀ e : Detector × DetectionDecision, RunEvaluated d₁ now e.1 e.2 →
      RunEvaluated d now { e.1 with lastDecision := e.2 } e.2 := by
    intro e h
    have hr := h.run
    have hon := h.onset
    rw [hrun] at hr hon
    exact ⟨hr, h.closed, hon⟩
  cases hok : adm.admissible with
  | false =>
    simp only [Bool.not_false, if_true]
    exact finish _ (d₁.runEvaluated_evaluateInadmissible now adm r₁ ho hc)
  | true =>
    simp only [Bool.not_true, Bool.false_eq_true, if_false]
    exact finish _ (d₁.runEvaluated_evaluateAdmissible now gap metrics adm r₁ ho hc)

/-! ### Runs -/

/-- A detector and the onsets of the episodes it opened so far, the newest last. -/
structure OnsetLog where
  detector : Detector
  onsets : List Tick := []

namespace OnsetLog

/-- The onset of the episode a call opens, if it opens one. -/
def opening (d : Detector) (c : Call) : Option Tick :=
  match d.evaluating c with
  | some (e, now) =>
    if (e.evaluateFresh now).2.opened then
      some (e.evaluateFresh now).1.episode.metrics.onsetTick
    else none
  | none => none

def step (s : OnsetLog) (c : Call) : OnsetLog where
  detector := (s.detector.call c).1
  onsets := s.onsets ++ (opening s.detector c).toList

/-- What a call does to episode identity: an opened episode has an onset after all those before it,
    at most the tick of its decision; an open one stays current until a decision that closes it. -/
structure KeepsIdentity (s : OnsetLog) (c : Call) : Prop where
  rising : ∀ onset ∈ opening s.detector c, ∀ earlier ∈ s.onsets, earlier.value < onset.value
  opened : ∀ onset ∈ opening s.detector c, onset.value ≤ c.tick.value ∧
    (s.detector.call c).1.episode.id = makeEventId s.detector.key onset
  current : s.detector.hasOpenEpisode = true → opening s.detector c = none ∧
    (((s.detector.call c).1.current = s.detector.current ∧
        ∀ r ∈ (s.detector.call c).2, r.closed = false) ∨
      ((s.detector.call c).1.current = { s.detector.current with isOpen := false } ∧
        ∃ r ∈ (s.detector.call c).2, r.closed = true))

end OnsetLog

/-- Two detectors with the same episode, onset run, clock and cached decision. -/
structure SameClock (d d' : Detector) : Prop where
  current : d'.current = d.current
  run : d'.onsetRun = d.onsetRun
  hasEvaluated : d'.hasEvaluated = d.hasEvaluated
  lastEvaluated : d'.lastEvaluated = d.lastEvaluated
  cached : d'.lastDecision = d.lastDecision

theorem sameClock_offerSample (d : Detector) (sample : Sample) :
    SameClock d (d.offerSample sample) := by
  obtain ⟨generation, window, lastAccept, h⟩ := d.offerSample_eq sample
  rw [h]
  exact ⟨rfl, rfl, rfl, rfl, rfl⟩

theorem evaluating_spec {d e : Detector} {c : Call} {now : Tick}
    (h : d.evaluating c = some (e, now)) :
    SameClock d e ∧ now = c.tick ∧ e.freshAt now = true := by
  cases evaluates_of_evaluating h with
  | ingest _ _ _ fresh => exact ⟨d.sameClock_offerSample _, rfl, fresh⟩
  | advance fresh => exact ⟨⟨rfl, rfl, rfl, rfl, rfl⟩, rfl, fresh⟩

theorem onsetRun_fenceDecision (d : Detector) (reason : CloseReason) (now : Tick) :
    (d.fenceDecision reason now).1.onsetRun = none :=
  d.onsetRun_closeEpisode now (d.newDecision now) reason true

/-- The episode of a detector was closed between two calls, its clock and cache left alone. -/
structure ClosedBetween (d d' : Detector) (r : Option DetectionDecision) : Prop where
  wasOpen : d.hasOpenEpisode = true
  current : d'.current = { d.current with isOpen := false }
  run : d'.onsetRun = none
  hasEvaluated : d'.hasEvaluated = d.hasEvaluated
  lastEvaluated : d'.lastEvaluated = d.lastEvaluated
  closed : ∃ decision ∈ r, decision.closed = true

theorem closedBetween_fenceDecision {d : Detector} (h : d.hasOpenEpisode = true)
    (reason : CloseReason) (now : Tick) : ClosedBetween d (d.fenceDecision reason now).1
      (some (d.fenceDecision reason now).2) := by
  have hf := d.fenced_fenceDecision reason now
  exact ⟨h, hf.current, d.onsetRun_fenceDecision reason now,
    congrArg Setup.hasEvaluated hf.setup, congrArg Setup.lastEvaluated hf.setup,
    _, rfl, hf.closed⟩

/-- A call that closes the open episode without an evaluation. -/
def fencing (d : Detector) : Call → Bool
  | .ingest sample =>
    sample.stream = d.key && (validateSample sample).isOk && d.changesGeneration sample &&
      d.hasOpenEpisode
  | .advance _ => false
  | .fence _ _ => d.hasOpenEpisode

theorem open_of_fencing {d : Detector} {c : Call} (h : d.fencing c = true) :
    d.hasOpenEpisode = true := by
  cases c with
  | ingest sample =>
    simp only [fencing, Bool.and_eq_true] at h
    exact h.2
  | advance now => cases h
  | fence reason now => exact h

/-- How a call goes that evaluates nothing: it leaves the detector alone, offers it a sample, or
    fences its episode. The first two answer from the cache, if at all. -/
inductive Unevaluated (d : Detector) (c : Call) : Prop where
  | kept (passes : d.fencing c = false) (same : (d.call c).1 = d)
      (repeats : ∀ r ∈ (d.call c).2, r = d.lastDecision)
  | offered (passes : d.fencing c = false) (sample : Sample) (hc : c = .ingest sample)
      (keeps : (d.changesGeneration sample && d.hasOpenEpisode) = false)
      (now : (d.call c).1 = d.offerSample sample)
      (repeats : ∀ r ∈ (d.call c).2, r = d.lastDecision)
  | fenced (fences : d.fencing c = true) (reason : CloseReason)
      (resourceGeneration : ResourceGeneration) (window : EvidenceWindow) (lastAccept : WindowAccept)
      (empties : window = d.window ∨ window = resetWindow d.policy)
      (now : (d.call c).1 =
        { (d.fenceDecision reason c.tick).1 with resourceGeneration, window, lastAccept })
      (announces : ∃ r ∈ (d.call c).2, r.closed = true)

theorem unevaluated_call {d : Detector} {c : Call} (h : d.evaluating c = none) :
    Unevaluated d c := by
  cases c with
  | ingest sample =>
    cases hres : d.ingest sample with
    | error failure =>
      have hcall : d.call (.ingest sample) = (d, none) := by simp only [call, hres]
      have hrefused : d.fencing (.ingest sample) = false := by
        by_contra hfence
        simp only [fencing, Bool.not_eq_false, Bool.and_eq_true, decide_eq_true_eq] at hfence
        obtain ⟨⟨⟨hkey, hvalid⟩, -⟩, -⟩ := hfence
        rw [ingest_eq hkey (Status.eq_ok_of_isOk hvalid)] at hres
        cases hres
      refine .kept hrefused (congrArg Prod.fst hcall) ?_
      rw [hcall]
      intro r hr
      cases hr
    | ok result =>
      obtain ⟨hkey, hvalid⟩ := ingest_ok hres
      have hcall : d.call (.ingest sample) = (result.1, some result.2) := by
        simp only [call, hres]
      rw [ingest_eq hkey hvalid, Except.ok.injEq] at hres
      have hfencing : d.fencing (.ingest sample) =
          (d.changesGeneration sample && d.hasOpenEpisode) := by
        simp [fencing, hkey, hvalid, Except.isOk, Except.toBool]
      cases hfence : d.changesGeneration sample && d.hasOpenEpisode with
      | true =>
        rw [if_pos hfence] at hres
        rw [← hres] at hcall
        refine .fenced (hfencing.trans hfence) CloseReason.capacityChanged _ _ _ (Or.inr rfl)
          (congrArg Prod.fst hcall) ?_
        rw [hcall]
        exact ⟨_, rfl, (d.fenced_fenceDecision CloseReason.capacityChanged sample.tick).closed⟩
      | false =>
        have hstale : (d.offerSample sample).freshAt sample.tick = false := by
          by_contra hfresh
          rw [evaluating, if_pos ⟨hkey, hvalid, by simp [hfence], by simpa using hfresh⟩] at h
          cases h
        rw [if_neg (by simp [hfence]), evaluate_cached hstale] at hres
        rw [← hres] at hcall
        refine .offered (hfencing.trans hfence) sample rfl hfence (congrArg Prod.fst hcall) ?_
        rw [hcall]
        intro r hr
        rw [← Option.some.inj hr]
        exact (d.sameClock_offerSample sample).cached
  | advance now =>
    have hstale : d.freshAt now = false := by
      by_contra hfresh
      rw [evaluating, if_pos (by simpa using hfresh)] at h
      cases h
    have hcall : d.call (.advance now) = (d, some d.lastDecision) := by
      rw [call, advance, evaluate_cached hstale]
    refine .kept rfl (congrArg Prod.fst hcall) ?_
    rw [hcall]
    intro r hr
    exact (Option.some.inj hr).symm
  | fence reason now =>
    cases hopen : d.hasOpenEpisode with
    | true =>
      have hf := d.fenced_fenceDecision reason now
      have hcall : (d.call (.fence reason now)).1 = (d.fenceDecision reason now).1 := by
        simp only [call, fence, hopen, Bool.not_true, Bool.false_eq_true, if_false]
      refine .fenced hopen reason _ _ _ (Or.inl (congrArg Setup.window hf.setup)) hcall ?_
      simp only [call, fence, hopen, Bool.not_true, Bool.false_eq_true, if_false]
      exact ⟨_, rfl, hf.closed⟩
    | false =>
      have hcall : d.call (.fence reason now) = (d, none) := by
        simp only [call, fence, hopen, Bool.not_false, if_true]
      refine .kept hopen (congrArg Prod.fst hcall) ?_
      rw [hcall]
      intro r hr
      cases hr

/-- Such a call keeps the clock and repeats the cached decision, or closes the episode. -/
theorem call_not_evaluating {d : Detector} {c : Call} (h : d.evaluating c = none) :
    (SameClock d (d.call c).1 ∧ ∀ r ∈ (d.call c).2, r = d.lastDecision) ∨
      ClosedBetween d (d.call c).1 (d.call c).2 := by
  cases unevaluated_call h with
  | kept _ same repeats =>
    rw [same]
    exact Or.inl ⟨⟨rfl, rfl, rfl, rfl, rfl⟩, repeats⟩
  | offered _ sample _ _ now repeats =>
    rw [now]
    exact Or.inl ⟨d.sameClock_offerSample sample, repeats⟩
  | fenced fences reason _ _ _ _ now announces =>
    have hc := closedBetween_fenceDecision (open_of_fencing fences) reason c.tick
    rw [now]
    exact Or.inr ⟨hc.wasOpen, hc.current, hc.run, hc.hasEvaluated, hc.lastEvaluated, announces⟩

/-- How a detector answers an offered sample or a tick: it fences its episode, if what was offered
    asks for it, evaluates afresh, or repeats its cached decision. -/
inductive Answer (fences : Bool) (d : Detector) (now : Tick) (d' : Detector)
    (r : DetectionDecision) : Prop where
  | fenced (fencing : fences = true) (announces : Announces d.current d'.current r.verdict) (wasOpen : d.hasOpenEpisode = true)
      (nowClosed : d'.hasOpenEpisode = false) (run : d'.onsetRun = none)
      (hasEvaluated : d'.hasEvaluated = d.hasEvaluated)
      (lastEvaluated : d'.lastEvaluated = d.lastEvaluated)
      (cached : d'.lastDecision = d.lastDecision) (tick : r.tick = now) (stream : r.stream = d.key)
  | evaluated (announces : Announces d.current d'.current r.verdict) (fresh : d.freshAt now = true)
      (run : RunEvaluated d now d' r) (hasEvaluated : d'.hasEvaluated = true)
      (lastEvaluated : d'.lastEvaluated = now) (cached : d'.lastDecision = r) (tick : r.tick = now)
      (stream : r.stream = d.key)
  | cached (same : SameClock d d') (stale : d.freshAt now = false) (repeated : r = d.lastDecision)

theorem answer_evaluateFresh {d : Detector} {now : Tick} (h : d.freshAt now = true) :
    Answer false d now (d.evaluateFresh now).1 (d.evaluateFresh now).2 := by
  have hev := d.evaluated_evaluateFresh now
  exact .evaluated hev.announces h (d.runEvaluated_evaluateFresh now)
    (congrArg Setup.hasEvaluated hev.setup) (congrArg Setup.lastEvaluated hev.setup) hev.cached
    hev.tick hev.stream

/-- What was offered to a detector does not show in its answer but for the evidence. -/
theorem Answer.of_sameClock {fences fences' : Bool} {d e : Detector} (h : SameClock d e) {now : Tick}
    {d' : Detector} {r : DetectionDecision} (ha : Answer fences e now d' r)
    (himp : fences = true → fences' = true) : Answer fences' d now d' r := by
  have hopen : e.hasOpenEpisode = d.hasOpenEpisode := congrArg Current.isOpen h.current
  have hfresh : e.freshAt now = d.freshAt now := by
    rw [freshAt, freshAt, h.hasEvaluated, h.lastEvaluated]
  have hkey : e.key = d.key := congrArg Current.key h.current
  cases ha with
  | fenced fencing announces wasOpen nowClosed run hasEvaluated lastEvaluated cached tick stream =>
    exact .fenced (himp fencing) (h.current ▸ announces) (hopen ▸ wasOpen) nowClosed run
      (hasEvaluated.trans h.hasEvaluated) (lastEvaluated.trans h.lastEvaluated)
      (cached.trans h.cached) tick (stream.trans hkey)
  | evaluated announces fresh run hasEvaluated lastEvaluated cached tick stream =>
    obtain ⟨hrun, hclosed, honset⟩ := run
    rw [h.run] at hrun honset
    exact .evaluated (h.current ▸ announces) (hfresh ▸ fresh) ⟨hrun, hclosed, honset⟩ hasEvaluated
      lastEvaluated cached tick (stream.trans hkey)
  | cached same stale repeated =>
    exact .cached ⟨same.current.trans h.current, same.run.trans h.run,
      same.hasEvaluated.trans h.hasEvaluated, same.lastEvaluated.trans h.lastEvaluated,
      same.cached.trans h.cached⟩ (hfresh ▸ stale) (repeated.trans h.cached)

theorem answer_ingest {d : Detector} {sample : Sample} {result : Detector × DetectionDecision}
    (h : d.ingest sample = .ok result) :
    Answer (d.changesGeneration sample && d.hasOpenEpisode) d sample.tick result.1 result.2 := by
  obtain ⟨hkey, hvalid⟩ := ingest_ok h
  rw [ingest_eq hkey hvalid] at h
  obtain rfl := Except.ok.inj h
  by_cases hfence : (d.changesGeneration sample && d.hasOpenEpisode) = true
  · rw [if_pos hfence]
    rw [Bool.and_eq_true] at hfence
    have hf := d.fenced_fenceDecision CloseReason.capacityChanged sample.tick
    have hrun := d.onsetRun_fenceDecision CloseReason.capacityChanged sample.tick
    exact .fenced (by simp [hfence]) (hf.announces hfence.2) hfence.2 (congrArg Current.isOpen hf.current) hrun
      (congrArg Setup.hasEvaluated hf.setup) (congrArg Setup.lastEvaluated hf.setup) hf.cached
      hf.tick hf.stream
  · rw [if_neg hfence]
    have hsame := d.sameClock_offerSample sample
    cases hfresh : (d.offerSample sample).freshAt sample.tick with
    | true =>
      rw [evaluate_fresh hfresh]
      exact (answer_evaluateFresh hfresh).of_sameClock hsame (by simp)
    | false =>
      rw [evaluate_cached hfresh]
      have hcached : Answer false (d.offerSample sample) sample.tick (d.offerSample sample)
          (d.offerSample sample).lastDecision :=
        .cached ⟨rfl, rfl, rfl, rfl, rfl⟩ hfresh rfl
      exact hcached.of_sameClock hsame (by simp)

namespace OnsetLog

/-- The invariant: onsets lie at or before the clock, the onset run of a detector with no open
    episode started after them, and an open episode is not cached as closed. -/
structure Rising (s : OnsetLog) : Prop where
  clock : ∀ o ∈ s.onsets, s.detector.hasEvaluated = true ∧ o.value ≤ s.detector.lastEvaluated.value
  bounded : s.detector.hasEvaluated = true → s.detector.lastEvaluated.value.toNat < 2 ^ 62
  run : ∀ start ∈ s.detector.onsetRun, s.detector.hasEvaluated = true ∧
    start.value ≤ s.detector.lastEvaluated.value ∧
    (s.detector.hasOpenEpisode = false → ∀ o ∈ s.onsets, o.value < start.value)
  cached : s.detector.hasOpenEpisode = true → s.detector.lastDecision.closed = false

theorem rising_initial (key : StreamKey) (policy : Policy) (generation : PolicyGeneration) :
    Rising ⟨configure {} key policy generation, []⟩ :=
  ⟨fun _ h => (by cases h), fun h => (by cases h), fun _ h => (by cases h), fun h => (by cases h)⟩

/-- A fresh evaluation comes after the clock, numerically, while ticks stay in the lower half. -/
theorem lt_of_freshAt {d : Detector} {now : Tick} (h : d.freshAt now = true)
    (hlast : d.hasEvaluated = true → d.lastEvaluated.value.toNat < 2 ^ 62)
    (hnow : now.value.toNat < 2 ^ 62) (he : d.hasEvaluated = true) :
    d.lastEvaluated.value < now.value := by
  rw [freshAt, he, Bool.not_true, Bool.false_or] at h
  have := hlast he
  exact (tickAfter_iff_lt (by omega) (by omega)).mp h

theorem step_evaluating {s : OnsetLog} {c : Call} {e : Detector} {now : Tick} (h : Rising s)
    (hc : c.tick.value.toNat < 2 ^ 62) (he : s.detector.evaluating c = some (e, now)) :
    KeepsIdentity s c ∧ Rising (s.step c) := by
  obtain ⟨hsame, rfl, hfresh⟩ := evaluating_spec he
  have hcall := call_evaluating he
  have hev := e.evaluated_evaluateFresh c.tick
  have hrun := e.runEvaluated_evaluateFresh c.tick
  have hopening : opening s.detector c = if (e.evaluateFresh c.tick).2.opened then
      some (e.evaluateFresh c.tick).1.episode.metrics.onsetTick else none := by
    rw [opening, he]
  have hann := hev.announces
  have hevaluated : (e.evaluateFresh c.tick).1.hasEvaluated = true :=
    congrArg Setup.hasEvaluated hev.setup
  have hlast : (e.evaluateFresh c.tick).1.lastEvaluated = c.tick :=
    congrArg Setup.lastEvaluated hev.setup
  have hcached := hev.cached
  obtain ⟨hruns, hclosed, honset⟩ := hrun
  rw [hsame.run] at hruns honset
  rw [hsame.current] at hann
  have hlt : s.detector.hasEvaluated = true → s.detector.lastEvaluated.value < c.tick.value := by
    intro hd
    have hb := h.bounded
    rw [← hsame.hasEvaluated, ← hsame.lastEvaluated] at hb
    rw [← hsame.lastEvaluated]
    exact lt_of_freshAt hfresh hb hc (hsame.hasEvaluated.trans hd)
  clear hev hsame hfresh
  generalize e.evaluateFresh c.tick = u at *
  have hbefore : ∀ o ∈ s.onsets, o.value < c.tick.value := fun o ho =>
    UInt64.lt_of_le_of_lt (h.clock o ho).2 (hlt (h.clock o ho).1)
  -- an opening comes out of a run that started after every onset so far
  have hopened : u.2.opened = true → (∀ o ∈ s.onsets, o.value < u.1.episode.metrics.onsetTick.value) ∧
      u.1.episode.metrics.onsetTick.value ≤ c.tick.value := by
    intro ho
    rw [honset ho]
    cases hon : s.detector.onsetRun with
    | none => exact ⟨hbefore, UInt64.le_refl _⟩
    | some start =>
      obtain ⟨hd, hle, hrising⟩ := h.run start hon
      exact ⟨hrising (hann.of_opened ho).1, UInt64.le_of_lt (UInt64.lt_of_le_of_lt hle (hlt hd))⟩
  have hmem : ∀ o, o ∈ opening s.detector c ↔
      u.2.opened = true ∧ o = u.1.episode.metrics.onsetTick := by
    intro o
    rw [hopening]
    cases u.2.opened <;> simp [eq_comm]
  have hstep : s.step c = ⟨u.1, s.onsets ++ (opening s.detector c).toList⟩ := by rw [step, hcall]
  constructor
  · refine ⟨?_, ?_, ?_⟩
    · intro onset hon
      obtain ⟨ho, rfl⟩ := (hmem onset).mp hon
      exact (hopened ho).1
    · intro onset hon
      obtain ⟨ho, rfl⟩ := (hmem onset).mp hon
      rw [hcall]
      exact ⟨(hopened ho).2, congrArg Current.id (hann.of_opened ho).2⟩
    · intro hopen
      obtain ⟨hnot, hcases⟩ := hann.of_open hopen
      rw [hcall]
      refine ⟨?_, ?_⟩
      · rw [hopening, if_neg (by rw [show u.2.opened = false from hnot]; exact Bool.false_ne_true)]
      · rcases hcases with ⟨same, hclosed⟩ | ⟨now, hclosed⟩
        · exact Or.inl ⟨same, fun r hr => Option.some.inj hr ▸ hclosed⟩
        · exact Or.inr ⟨now, _, rfl, hclosed⟩
  · rw [hstep]
    have hle : ∀ o ∈ s.onsets ++ (opening s.detector c).toList, o.value ≤ c.tick.value := by
      intro o ho
      rcases List.mem_append.mp ho with ho | ho
      · exact UInt64.le_of_lt (hbefore o ho)
      · obtain ⟨hnew, rfl⟩ := (hmem o).mp (Option.mem_toList.mp ho)
        exact (hopened hnew).2
    refine ⟨fun o ho => ⟨hevaluated, hlast ▸ hle o ho⟩, fun _ => hlast ▸ hc, ?_, ?_⟩
    · intro start hstart
      -- closing would have ended the run
      have hnot : u.2.closed = false := by
        cases hcl : u.2.closed with
        | false => rfl
        | true => rw [hclosed hcl] at hstart; cases hstart
      have hidle : u.1.hasOpenEpisode = false →
          s.detector.hasOpenEpisode = false ∧ u.2.opened = false := by
        intro hu
        have hopen : u.2.opened = false := by
          cases ho : u.2.opened with
          | false => rfl
          | true =>
            have hcur := congrArg Current.isOpen (hann.of_opened ho).2
            rw [show u.2.verdict.closed = false from hnot] at hcur
            rw [show u.1.hasOpenEpisode = true from hcur] at hu
            cases hu
        refine ⟨?_, hopen⟩
        cases hd : s.detector.hasOpenEpisode with
        | false => rfl
        | true =>
          rcases (hann.of_open hd).2 with ⟨same, -⟩ | ⟨-, hcl⟩
          · rw [show u.1.hasOpenEpisode = true from (congrArg Current.isOpen same).trans hd] at hu
            cases hu
          · rw [show u.2.closed = true from hcl] at hnot
            cases hnot
      have honly : u.2.opened = false → (opening s.detector c).toList = [] := by
        intro ho
        rw [hopening, if_neg (by simp [ho])]
        rfl
      rcases hruns with hrun | hrun | hrun
      · rw [hrun] at hstart; cases hstart
      · obtain ⟨hd, hle, hrising⟩ := h.run start (hrun ▸ hstart)
        refine ⟨hevaluated, hlast ▸ UInt64.le_of_lt (UInt64.lt_of_le_of_lt hle (hlt hd)), ?_⟩
        intro hu o ho
        rw [honly (hidle hu).2, List.append_nil] at ho
        exact hrising (hidle hu).1 o ho
      · obtain rfl : c.tick = start := Option.some.inj (hrun ▸ hstart)
        refine ⟨hevaluated, hlast ▸ UInt64.le_refl _, fun hu o ho => ?_⟩
        rw [honly (hidle hu).2, List.append_nil] at ho
        exact hbefore o ho
    · intro hopen
      rw [hcached]
      exact hann.not_closed_of_open hopen

theorem step_not_evaluating {s : OnsetLog} {c : Call} (h : Rising s)
    (he : s.detector.evaluating c = none) : KeepsIdentity s c ∧ Rising (s.step c) := by
  have hopening : opening s.detector c = none := by rw [opening, he]
  have hstep : s.step c = ⟨(s.detector.call c).1, s.onsets⟩ := by
    rw [step, hopening, Option.toList_none, List.append_nil]
  have hkeeps : (s.detector.hasOpenEpisode = true →
      ((s.detector.call c).1.current = s.detector.current ∧
        ∀ r ∈ (s.detector.call c).2, r.closed = false) ∨
      ((s.detector.call c).1.current = { s.detector.current with isOpen := false } ∧
        ∃ r ∈ (s.detector.call c).2, r.closed = true)) → KeepsIdentity s c := fun hk =>
    ⟨fun o ho => (by rw [hopening] at ho; cases ho), fun o ho => (by rw [hopening] at ho; cases ho),
      fun hopen => ⟨hopening, hk hopen⟩⟩
  rw [hstep]
  obtain ⟨hclock, hbounded, hrun, hcached⟩ := h
  rcases call_not_evaluating he with ⟨hsame, hr⟩ | hclosed
  · have hiff : (s.detector.call c).1.hasOpenEpisode = s.detector.hasOpenEpisode :=
      congrArg Current.isOpen hsame.current
    refine ⟨hkeeps fun hopen => Or.inl ⟨hsame.current, fun r hmem => ?_⟩, ?_⟩
    · rw [hr r hmem]; exact hcached hopen
    · rw [← hsame.hasEvaluated, ← hsame.lastEvaluated] at hclock hbounded
      rw [← hsame.run, ← hsame.hasEvaluated, ← hsame.lastEvaluated, ← hiff] at hrun
      rw [← hiff, ← hsame.cached] at hcached
      exact ⟨hclock, hbounded, hrun, hcached⟩
  · refine ⟨hkeeps fun _ => Or.inr ⟨hclosed.current, hclosed.closed⟩, ?_⟩
    rw [← hclosed.hasEvaluated, ← hclosed.lastEvaluated] at hclock hbounded
    refine ⟨hclock, hbounded, fun start hs => ?_, fun hopen => ?_⟩
    · rw [hclosed.run] at hs; cases hs
    · rw [show (s.detector.call c).1.hasOpenEpisode = false from
        congrArg Current.isOpen hclosed.current] at hopen
      cases hopen

/-- STEP: a call in the lower quarter of the tick range keeps identity and the invariant. -/
theorem keepsIdentity_step {s : OnsetLog} {c : Call} (h : Rising s)
    (hc : c.tick.value.toNat < 2 ^ 62) : KeepsIdentity s c ∧ Rising (s.step c) := by
  cases he : s.detector.evaluating c with
  | none => exact step_not_evaluating h he
  | some e => exact step_evaluating h hc he

/-- IDENTITY IS NEVER REUSED: in every run of calls at ticks below 2^62 each opened episode has a
    later onset than all before it, and stays current until the decision that closes it. -/
theorem keepsIdentity_run (key : StreamKey) (policy : Policy) (generation : PolicyGeneration)
    (calls : List Call) (hticks : ∀ c ∈ calls, c.tick.value.toNat < 2 ^ 62) :
    Runs.Meets step KeepsIdentity ⟨configure {} key policy generation, []⟩ calls := by
  refine Runs.meets_of_invariant (I := Rising) (fun s c hs hc => ?_)
    (rising_initial key policy generation) hticks
  exact keepsIdentity_step hs hc

/-- A policy that opens an episode on the second deep sample of a run and has no cooldown. -/
def briskPolicy : Policy where
  detection :=
    { windowCapacity := 4, minSamplesForClassification := 2, onsetMinSlopeQ16 := 0
      releaseSlopeQ16 := 0, onsetSustainTicks := 1, cooldownTicks := 0 }

def briskSample (tick : UInt64) : Call :=
  .ingest { stream := ⟨⟨1⟩, ⟨1⟩, ⟨1⟩⟩, tick := ⟨tick⟩, depth := 2048 }

/-- Two episodes, the first fenced at a tick before its own onset. -/
theorem keepsIdentity_run_fenced : Runs.Meets step KeepsIdentity
    ⟨configure {} ⟨⟨1⟩, ⟨1⟩, ⟨1⟩⟩ briskPolicy ⟨1⟩, []⟩
    [briskSample 1, briskSample 2, briskSample 3, .fence CloseReason.capacityChanged ⟨1⟩,
      briskSample 4, briskSample 5] :=
  keepsIdentity_run _ _ _ _ (by decide +kernel)

end OnsetLog

end Detector

end Mbg
