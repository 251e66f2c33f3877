import MicroburstGovernor.Detect.Accounts
import MicroburstGovernor.Detect.Cooldown
import MicroburstGovernor.Detect.Evidence

/-! The episode ceiling over runs of one detector: what an evaluation leaves open lies below it, but
    for an episode that is suspended on inadmissible evidence. -/

namespace Mbg

namespace Detector

/-! ### Suspended episodes -/

/-- How long the evidence has been unusable: since it stopped being admissible, or by how far the
    newest sample has aged past the staleness limit. -/
def heldFor (d : Detector) (now : Tick) : UInt64 :=
  let limit := d.policy.detection.stalenessLimitTicks
  let stale := d.window.stalenessTicks now
  max (forwardGap (if d.inadmissibleSinceSet then d.inadmissibleSince else now) now)
    (if stale > limit then stale - limit else 0)

/-- An open episode that inadmissible evidence does not fence yet. -/
def suspends (d : Detector) (now : Tick) : Bool :=
  d.hasOpenEpisode && !(d.admissibilityAt now).admissible &&
    d.heldFor now ≤ d.policy.detection.evidenceGraceTicks

/-- On inadmissible evidence exactly the suspended episode stays open. -/
theorem open_evaluateInadmissible {d : Detector} {now : Tick} {adm : Admissibility}
    {r : DetectionDecision} (hstale : r.stalenessTicks = d.window.stalenessTicks now) :
    (d.evaluateInadmissible now adm r).1.hasOpenEpisode = (d.hasOpenEpisode &&
      decide (d.heldFor now ≤ d.policy.detection.evidenceGraceTicks)) := by
  unfold evaluateInadmissible
  extract_lets dp r₁ d₁ staleExcess held reason
  have hheld : held = d.heldFor now := by
    dsimp only [held, staleExcess, r₁, dp, d₁, heldFor]
    rw [hstale]
    cases d.inadmissibleSinceSet <;> rfl
  have hopen₁ : d₁.hasOpenEpisode = d.hasOpenEpisode := by
    dsimp only [d₁]
    split <;> rfl
  cases hopen : d.hasOpenEpisode with
  | false =>
    rw [if_pos (by simp)]
    simpa using hopen
  | true =>
    rw [if_neg (by simp), hheld]
    by_cases hgrace : d.heldFor now ≤ dp.evidenceGraceTicks
    · rw [if_pos hgrace, hopen₁, hopen]
      exact (decide_eq_true hgrace).symm
    · rw [if_neg hgrace]
      have hclosed := d₁.closed_closeEpisode reason now r₁ true
      generalize d₁.closeEpisode reason now r₁ true = e at *
      exact hclosed.trans (decide_eq_false hgrace).symm

/-- A fresh evaluation leaves an episode open below the ceiling, or suspends it. -/
theorem open_evaluateFresh (d : Detector) (now : Tick) :
    ((d.admissibilityAt now).admissible = true → (d.evaluateFresh now).1.hasOpenEpisode = true →
      forwardGap (d.evaluateFresh now).1.episode.metrics.onsetTick now <
        d.policy.detection.maxEpisodeTicks) ∧
      ((d.admissibilityAt now).admissible = false →
        (d.evaluateFresh now).1.hasOpenEpisode = d.suspends now) := by
  obtain ⟨r, hr, heq⟩ := d.evaluateFresh_eq now
  have hpolicy : (d.evaluateFresh now).1.policy = d.policy :=
    congrArg Setup.policy (d.evaluated_evaluateFresh now).setup
  rw [← hpolicy]
  rw [heq]
  constructor
  · intro hadm
    rw [hadm, if_pos rfl]
    obtain ⟨r', heq', -⟩ := (d.clocked now).evaluateAdmissible_accounted now (d.gapTo now)
      d.readMetrics (d.admissibilityAt now) r
    rw [heq', decided]
    generalize (d.clocked now).accounted now (d.gapTo now) d.readMetrics = a
    have hm := a.measured_transition now d.readMetrics (d.admissibilityAt now) (!a.inCooldown now)
      (releaseNow (d.clocked now).policy.detection d.readMetrics) r'
    generalize a.transition now d.readMetrics (d.admissibilityAt now) (!a.inCooldown now)
      (releaseNow (d.clocked now).policy.detection d.readMetrics) r' = t at *
    exact below_enforceCeiling hm t.2
  · intro hadm
    rw [hadm, if_neg Bool.false_ne_true]
    have h := @open_evaluateInadmissible (d.clocked now) now (d.admissibilityAt now) r hr.staleness
    generalize (d.clocked now).evaluateInadmissible now (d.admissibilityAt now) r = e at *
    rw [suspends, hadm, Bool.not_false, Bool.and_true]
    exact h

/-! ### Runs -/

/-- The contract of one call: what a fresh evaluation leaves open began less than the ceiling ago. -/
def KeepsCeiling (d : Detector) (c : Call) : Prop :=
  ∀ e now, d.evaluating c = some (e, now) → (e.evaluateFresh now).1.hasOpenEpisode = true →
    now.value.toNat - (e.evaluateFresh now).1.episode.metrics.onsetTick.value.toNat <
      d.policy.detection.maxEpisodeTicks.toNat

/-- The condition on a call: no evaluation suspends an episode that has reached the ceiling. -/
def NotSuspendedPast (d : Detector) (c : Call) : Prop :=
  ∀ e now, d.evaluating c = some (e, now) → e.suspends now = true →
    now.value.toNat - e.episode.metrics.onsetTick.value.toNat <
      d.policy.detection.maxEpisodeTicks.toNat

/-- The invariant: onsets lie in the lower half of the tick range. -/
structure LowOnsets (d : Detector) : Prop where
  run : ∀ start ∈ d.onsetRun, start.value.toNat < 2 ^ 63
  episode : d.episode.metrics.onsetTick.value.toNat < 2 ^ 63

theorem lowOnsets_evaluateFresh {d : Detector} (h : d.LowOnsets) {now : Tick}
    (hnow : now.value.toNat < 2 ^ 63) : (d.evaluateFresh now).1.LowOnsets := by
  have hrun := d.runEvaluated_evaluateFresh now
  have hann := (d.evaluated_evaluateFresh now).announces
  generalize d.evaluateFresh now = e at *
  constructor
  · intro start hstart
    rcases hrun.run with hr | hr | hr
    · rw [hr] at hstart
      cases hstart
    · exact h.run start (hr ▸ hstart)
    · rw [hr, Option.mem_some_iff] at hstart
      exact hstart ▸ hnow
  · cases ho : e.2.opened with
    | true =>
      rw [hrun.onset ho]
      cases hstart : d.onsetRun with
      | none => exact hnow
      | some start => exact h.run start hstart
    | false =>
      have honset : e.1.episode.metrics.onsetTick = d.episode.metrics.onsetTick := by
        cases hopen : d.hasOpenEpisode with
        | true =>
          rcases (hann.of_open hopen).2 with ⟨hsame, -⟩ | ⟨hclosed, -⟩
          · exact congrArg Current.onset hsame
          · exact congrArg Current.onset hclosed
        | false => exact congrArg Current.onset (hann.of_idle hopen ho).1
      rw [honset]
      exact h.episode

theorem LowOnsets.congr {d d' : Detector} (h : d.LowOnsets)
    (hcurrent : d'.current.onset = d.current.onset)
    (hrun : d'.onsetRun = none ∨ d'.onsetRun = d.onsetRun) : d'.LowOnsets := by
  refine ⟨fun start hstart => ?_, ?_⟩
  · rcases hrun with hr | hr
    · rw [hr] at hstart
      cases hstart
    · exact h.run start (hr ▸ hstart)
  · rw [show d'.episode.metrics.onsetTick = d.episode.metrics.onsetTick from hcurrent]
    exact h.episode

/-- STEP: a call keeps the ceiling exactly when it suspends no episode past it. -/
theorem keepsCeiling_step {d : Detector} (h : d.LowOnsets) {c : Call}
    (hc : c.tick.value.toNat < 2 ^ 63) :
    (d.KeepsCeiling c ↔ d.NotSuspendedPast c) ∧ (d.next c).LowOnsets := by
  cases he : d.evaluating c with
  | none =>
    refine ⟨?_, ?_⟩
    · simp [KeepsCeiling, NotSuspendedPast, he]
    · rw [next]
      rcases call_not_evaluating he with ⟨hsame, -⟩ | hclosed
      · exact h.congr (congrArg Current.onset hsame.current) (Or.inr hsame.run)
      · exact h.congr (by rw [hclosed.current]) (Or.inl hclosed.run)
  | some p =>
    obtain ⟨e, now⟩ := p
    obtain ⟨hsame, rfl, hfresh⟩ := evaluating_spec he
    have hpolicy : e.policy = d.policy := (cooldown_evaluating he).2
    have hlow := h.congr (congrArg Current.onset hsame.current) (Or.inr hsame.run)
    have hafter := lowOnsets_evaluateFresh hlow hc
    obtain ⟨hbelow, hsuspends⟩ := e.open_evaluateFresh c.tick
    have hann := (e.evaluated_evaluateFresh c.tick).announces
    -- a suspended episode is the one that was open
    have honset : e.suspends c.tick = true →
        (e.evaluateFresh c.tick).1.episode.metrics.onsetTick = e.episode.metrics.onsetTick := by
      intro hsus
      simp only [suspends, Bool.and_eq_true] at hsus
      rcases (hann.of_open hsus.1.1).2 with ⟨hkept, -⟩ | ⟨hclosed, -⟩
      · exact congrArg Current.onset hkept
      · exact congrArg Current.onset hclosed
    refine ⟨⟨?_, ?_⟩, ?_⟩
    · intro hkeeps e' now' he' hsus
      obtain ⟨rfl, rfl⟩ := Prod.mk.inj (Option.some.inj (he.symm.trans he'))
      have hadm : (e.admissibilityAt c.tick).admissible = false := by
        simp only [suspends, Bool.and_eq_true, Bool.not_eq_true'] at hsus
        exact hsus.1.2
      have hbound := hkeeps e c.tick he ((hsuspends hadm).trans hsus)
      rwa [honset hsus] at hbound
    · intro hno e' now' he' hopen
      obtain ⟨rfl, rfl⟩ := Prod.mk.inj (Option.some.inj (he.symm.trans he'))
      cases hadm : (e.admissibilityAt c.tick).admissible with
      | true =>
        have hlt := UInt64.lt_iff_toNat_lt.mp (hbelow hadm hopen)
        rwa [toNat_forwardGap hafter.episode hc, hpolicy] at hlt
      | false =>
        have hsus := (hsuspends hadm).symm.trans hopen
        rw [honset hsus]
        exact hno e c.tick he hsus
    · rw [next, call_evaluating he]
      exact hafter

theorem lowOnsets_configure (key : StreamKey) (policy : Policy) (generation : PolicyGeneration) :
    (configure {} key policy generation).LowOnsets :=
  ⟨fun _ h => (by cases h), Nat.two_pow_pos 63⟩

/-- THE CEILING: in a run of calls at ticks below 2^63 every evaluation keeps the ceiling exactly when
    none of them suspends an episode that has reached it. -/
theorem keepsCeiling_run (key : StreamKey) (policy : Policy) (generation : PolicyGeneration)
    (calls : List Call) (hticks : ∀ c ∈ calls, c.tick.value.toNat < 2 ^ 63) :
    Runs.Meets next KeepsCeiling (configure {} key policy generation) calls ↔
      Runs.Meets next NotSuspendedPast (configure {} key policy generation) calls := by
  have hstart := lowOnsets_configure key policy generation
  generalize configure {} key policy generation = d at *
  induction calls generalizing d with
  | nil => exact Iff.rfl
  | cons c calls ih =>
    obtain ⟨hiff, hnext⟩ := keepsCeiling_step hstart (hticks c (by simp))
    rw [Runs.meets_cons, Runs.meets_cons]
    exact and_congr hiff (ih (fun c' hc' => hticks c' (List.mem_cons_of_mem _ hc')) _ hnext)

/-- A policy that opens an episode on the third deep sample, for at most ten ticks. -/
def shortPolicy : Policy where
  detection :=
    { windowCapacity := 4, minSamplesForClassification := 2, onsetMinSlopeQ16 := 0
      releaseSlopeQ16 := 0, onsetSustainTicks := 1, maxEpisodeTicks := 10 }

theorem keepsCeiling_run_short :
    Runs.Meets next KeepsCeiling (configure {} gapKey shortPolicy ⟨1⟩)
        [deepSample 1, deepSample 2, deepSample 3, .advance ⟨14⟩] ↔
      Runs.Meets next NotSuspendedPast (configure {} gapKey shortPolicy ⟨1⟩)
        [deepSample 1, deepSample 2, deepSample 3, .advance ⟨14⟩] :=
  keepsCeiling_run _ _ _ _ (by decide)

/-- An episode with its onset at tick 2 and a ceiling of ten ticks is still open at tick 22, when its
    evidence is three ticks too old. -/
theorem ceiling_passed : ¬ ∀ key policy generation calls, PolicySet.validate policy = .ok () →
    (∀ c ∈ calls, c.tick.value.toNat < 2 ^ 63) → (∀ c ∈ calls, ∀ r t, c ≠ .fence r t) →
    Runs.Meets next KeepsCeiling (configure {} key policy generation) calls := by
  intro h
  have hmeets := h gapKey shortPolicy ⟨1⟩ [deepSample 1, deepSample 2, deepSample 3, .advance ⟨22⟩]
    (by decide +kernel) (by decide +kernel) (by simp [deepSample])
  have hlast := hmeets.2.2.2.1 _ _ (Option.eq_some_of_isSome (by decide +kernel)) (by decide +kernel)
  revert hlast
  decide +kernel

end Detector

end Mbg
