import MicroburstGovernor.Detect.Identity
import MicroburstGovernor.Model.Overrides
import Mathlib.Data.List.Chain

/-! The cooldown of one detector: consecutive episodes open at least a cooldown apart, so the span of
    the evaluated ticks bounds how many of them there are.

    Every evaluation closes an episode at its own tick, which no opening lies after. A fence closes at
    the tick it brings, and counts the cooldown from there even where that tick is a late one. -/

namespace Mbg

/-! ### Spaced numbers -/

/-- The last of numbers that lie `gap` apart is that many gaps after the first. -/
theorem spaced_le {gap bound : ℕ} : ∀ {rest : List ℕ} {a : ℕ},
    (a :: rest).IsChain (fun a b => a + gap ≤ b) → (∀ t ∈ a :: rest, t ≤ bound) →
      a + gap * rest.length ≤ bound
  | [], a, _, hbound => by simpa using hbound a (by simp)
  | b :: rest, a, h, hbound => by
    rw [List.isChain_cons_cons] at h
    have hrest := spaced_le h.2 fun t ht => hbound t (List.mem_cons_of_mem _ ht)
    have hab := h.1
    rw [List.length_cons, Nat.mul_succ]
    omega

/-- Numbers of a range that lie `gap` apart are at most one more than the gaps of the range. -/
theorem length_le_of_spaced {gap least bound : ℕ} (hgap : 0 < gap) {ticks : List ℕ}
    (h : ticks.IsChain fun a b => a + gap ≤ b) (hleast : ∀ t ∈ ticks, least ≤ t)
    (hbound : ∀ t ∈ ticks, t ≤ bound) : ticks.length ≤ (bound - least) / gap + 1 := by
  cases ticks with
  | nil => simp
  | cons a rest =>
    have hlast := spaced_le h hbound
    have ha := hleast a (by simp)
    rw [List.length_cons, Nat.add_le_add_iff_right, Nat.le_div_iff_mul_le hgap, Nat.mul_comm]
    omega

namespace Detector

/-! ### The cooldown of an evaluation -/

/-- What an evaluation does to the cooldown: closing starts it at the tick, nothing else touches it,
    and nothing opens inside it. -/
structure Cooled (d : Detector) (now : Tick) (d' : Detector) (r : DetectionDecision) : Prop where
  kept : r.closed = false → d'.cooldownUntil = d.cooldownUntil
  closed : r.closed = true →
    d'.cooldownUntil = addTicksSaturating now d.policy.detection.cooldownTicks
  opened : r.opened = true → d.inCooldown now = false

section

variable (d : Detector) (now : Tick) (r : DetectionDecision)

theorem cooldownUntil_updateEpisode (m : EvidenceWindow.Metrics) :
    (d.updateEpisode now m r).1.cooldownUntil = d.cooldownUntil := by
  rw [updateEpisode]
  split <;> rfl

theorem cooldownUntil_closeEpisode (reason : CloseReason) (fenced : Bool) :
    (d.closeEpisode reason now r fenced).1.cooldownUntil =
      addTicksSaturating now d.policy.detection.cooldownTicks := by
  simp only [closeEpisode]

end

theorem Cooled.of_kept {d d' : Detector} {now : Tick} {r : DetectionDecision}
    (h : d'.cooldownUntil = d.cooldownUntil) (ho : r.opened = false) (hc : r.closed = false) :
    Cooled d now d' r :=
  ⟨fun _ => h, fun hr => (Bool.false_ne_true (hc ▸ hr)).elim,
    fun hr => (Bool.false_ne_true (ho ▸ hr)).elim⟩

/-- An update opens and closes nothing, and leaves the cooldown alone. -/
theorem cooled_updateEpisode {d : Detector} {r : DetectionDecision} (h : d.hasOpenEpisode = true)
    (ho : r.opened = false) (hc : r.closed = false) (now : Tick) (m : EvidenceWindow.Metrics)
    (c : Classification) : Cooled d now (d.updateEpisode now m r).1
      { (d.updateEpisode now m r).2 with classification := c } := by
  obtain ⟨severity, hv, -⟩ := d.verdict_updateEpisode now r m h
  have hcool := d.cooldownUntil_updateEpisode now r m
  generalize d.updateEpisode now m r = u at *
  have hopened : u.2.opened = r.opened := congrArg DetectionDecision.Verdict.opened hv
  have hclosed : u.2.closed = r.closed := congrArg DetectionDecision.Verdict.closed hv
  exact .of_kept hcool (hopened.trans ho) (hclosed.trans hc)

/-- Closing after an update starts the cooldown at the tick of the evaluation. -/
theorem Cooled.close {d d' : Detector} {now : Tick} {r : DetectionDecision} (h : Cooled d now d' r)
    (hpolicy : d'.policy = d.policy) (reason : CloseReason) (c : Classification) :
    let e := d'.closeEpisode reason now { r with classification := c } false
    Cooled d now e.1 { e.2 with classification := .quiescent } := by
  intro e
  have hcool : e.1.cooldownUntil = _ :=
    d'.cooldownUntil_closeEpisode now { r with classification := c } reason false
  obtain ⟨severity, hv⟩ := d'.verdict_closeEpisode now { r with classification := c } reason false
  change e.2.verdict = _ at hv
  rw [hpolicy] at hcool
  clear_value e
  have hopened : e.2.opened = r.opened := congrArg DetectionDecision.Verdict.opened hv
  have hclosed : e.2.closed = true := congrArg DetectionDecision.Verdict.closed hv
  refine ⟨fun hr => ?_, fun _ => hcool, fun hr => h.opened (hopened ▸ hr)⟩
  rw [show e.2.closed = false from hr] at hclosed
  cases hclosed

theorem cooled_transition {d : Detector} {r : DetectionDecision} (ho : r.opened = false)
    (hc : r.closed = false) (now : Tick) (m : EvidenceWindow.Metrics) (adm : Admissibility)
    (releaseNow : Bool) : Cooled d now
      (d.transition now m adm (!d.inCooldown now) releaseNow r).1
      (d.transition now m adm (!d.inCooldown now) releaseNow r).2 := by
  rw [transition]
  cases hs : d.state with
  | idle =>
    by_cases hopen : (d.onsetConfirmed && !d.inCooldown now) = true
    · simp only [hopen, if_true]
      have hout : d.inCooldown now = false := by
        simp only [Bool.and_eq_true, Bool.not_eq_true'] at hopen
        exact hopen.2
      have hcool := (d.openEpisode now r).1.cooldownUntil_updateEpisode now (d.openEpisode now r).2 m
      obtain ⟨severity, hv, -⟩ :=
        (d.openEpisode now r).1.verdict_updateEpisode now (d.openEpisode now r).2 m rfl
      rw [verdict_openEpisode] at hv
      have hkept : (d.openEpisode now r).1.cooldownUntil = d.cooldownUntil := rfl
      rw [hkept] at hcool
      have hclosed := (congrArg DetectionDecision.Verdict.closed hv).trans hc
      generalize (d.openEpisode now r).1.updateEpisode now m (d.openEpisode now r).2 = u at *
      refine ⟨fun _ => hcool, fun hr => ?_, fun _ => hout⟩
      rw [show u.2.verdict.closed = true from hr] at hclosed
      cases hclosed
    · simp only [hopen, Bool.false_eq_true, if_false]
      split <;> exact .of_kept rfl ho hc
  | active =>
    have hopen : d.hasOpenEpisode = true := by simp [hasOpenEpisode, hs]
    by_cases hrel : d.releaseConfirmed releaseNow = true
    · simp only [hrel, if_true]
      have h := cooled_updateEpisode hopen ho hc now m .recovering
      generalize d.updateEpisode now m r = u at *
      exact ⟨h.kept, h.closed, h.opened⟩
    · simp only [hrel, Bool.false_eq_true, if_false]
      exact cooled_updateEpisode hopen ho hc now m _
  | recovering =>
    have hopen : d.hasOpenEpisode = true := by simp [hasOpenEpisode, hs]
    by_cases hrun : d.onsetRunActive = true
    · dsimp only
      rw [if_pos hrun]
      have ho' : (r.explain ReasonCode.episodeMerged 0 0 now).opened = false := by
        simp only [DetectionDecision.explain]; exact ho
      have hc' : (r.explain ReasonCode.episodeMerged 0 0 now).closed = false := by
        simp only [DetectionDecision.explain]; exact hc
      have h := cooled_updateEpisode (d := { d with
        state := .active, releaseSustaining := false, releaseProgressTicks := 0 })
        rfl ho' hc' now m (positiveClass adm)
      exact ⟨h.kept, h.closed, h.opened⟩
    · simp only [hrun, Bool.false_eq_true, if_false]
      by_cases hcool : forwardGap d.recoveryStartTick now ≥ d.policy.detection.cooldownTicks
      · simp only [hcool, if_true]
        have h := cooled_updateEpisode hopen ho hc now m .recovering
        have hp := congrArg Setup.policy (d.setup_updateEpisode now r m)
        generalize d.updateEpisode now m r = u at *
        exact h.close hp _ _
      · simp only [hcool, if_false]
        exact cooled_updateEpisode hopen ho hc now m _

theorem Cooled.enforceCeiling {d d' : Detector} {now : Tick} {r : DetectionDecision}
    (h : Cooled d now d' r) (hpolicy : d'.policy = d.policy) :
    Cooled d now (d'.enforceCeiling now r).1 (d'.enforceCeiling now r).2 := by
  rw [Detector.enforceCeiling]
  by_cases hover : (d'.hasOpenEpisode &&
      d'.episode.metrics.durationTicks ≥ d'.policy.detection.maxEpisodeTicks) = true
  · simp only [hover, if_true]
    have h' : Cooled d now d' (r.explain ReasonCode.episodeTimedOut
        d'.episode.metrics.durationTicks.toInt64 d'.policy.detection.maxEpisodeTicks.toInt64 now) :=
      ⟨h.kept, h.closed, h.opened⟩
    exact h'.close hpolicy _ _
  · simp only [hover, Bool.false_eq_true, if_false]
    exact h

theorem cooled_evaluateAdmissible (d : Detector) (now : Tick) (gap : UInt64)
    (m : EvidenceWindow.Metrics) (adm : Admissibility) (r : DetectionDecision)
    (ho : r.opened = false) (hu : r.updated = false) (hc : r.closed = false) :
    Cooled d now (d.evaluateAdmissible now gap m adm r).1
      (d.evaluateAdmissible now gap m adm r).2 := by
  obtain ⟨d', r', cooldownOk, releaseNow, heq, hset, -, -, hv, hcool, hok, -⟩ :=
    d.evaluateAdmissible_eq now gap m adm r
  rw [heq]
  have ho' := (congrArg DetectionDecision.Verdict.opened hv).trans ho
  have hc' := (congrArg DetectionDecision.Verdict.closed hv).trans hc
  have hin : d'.inCooldown now = d.inCooldown now := by rw [inCooldown, inCooldown, hcool]
  have hpolicy : d'.policy = d.policy := congrArg Setup.policy hset
  rw [← hin] at hok
  subst hok
  have hundecided : Undecided adm r'.verdict := by rw [hv]; exact ⟨rfl, ho, hu, hc⟩
  have hdecides := decides_transition (d := d') hundecided now m (!d'.inCooldown now) releaseNow
  have hp := congrArg Setup.policy hdecides.setup
  have h := (cooled_transition (d := d') ho' hc' now m adm releaseNow).enforceCeiling hp
  obtain ⟨hkept, hclosed, hopened⟩ := h
  rw [hcool] at hkept
  rw [hpolicy] at hclosed
  exact ⟨hkept, hclosed, fun hr => hin ▸ hopened hr⟩

theorem cooled_evaluateInadmissible (d : Detector) (now : Tick) (adm : Admissibility)
    (r : DetectionDecision) (ho : r.opened = false) (hc : r.closed = false) :
    Cooled d now (d.evaluateInadmissible now adm r).1 (d.evaluateInadmissible now adm r).2 := by
  unfold evaluateInadmissible
  extract_lets dp r₁ d₁ staleExcess held reason
  have hcool : d₁.cooldownUntil = d.cooldownUntil ∧ d₁.policy = d.policy := by
    dsimp only [d₁]
    split <;> exact ⟨rfl, rfl⟩
  have ho₁ : r₁.opened = false := ho
  have hc₁ : r₁.closed = false := hc
  by_cases hopen : d.hasOpenEpisode = true
  · rw [if_neg (by simp [hopen])]
    by_cases hheld : held ≤ dp.evidenceGraceTicks
    · rw [if_pos hheld]
      exact .of_kept hcool.1 ho₁ hc₁
    · rw [if_neg hheld]
      have hclose := d₁.cooldownUntil_closeEpisode now r₁ reason true
      obtain ⟨severity, hv⟩ := d₁.verdict_closeEpisode now r₁ reason true
      rw [hcool.2] at hclose
      generalize d₁.closeEpisode reason now r₁ true = e at *
      have hopened : e.2.opened = false := (congrArg DetectionDecision.Verdict.opened hv).trans ho₁
      have hclosed : e.2.closed = true := congrArg DetectionDecision.Verdict.closed hv
      refine ⟨fun hr => ?_, fun _ => hclose, fun hr => ?_⟩
      · rw [show e.2.closed = false from hr] at hclosed; cases hclosed
      · rw [show e.2.opened = true from hr] at hopened; cases hopened
  · rw [if_pos (by simp [hopen])]
    exact .of_kept rfl ho₁ hc₁

theorem cooled_evaluateFresh (d : Detector) (now : Tick) :
    Cooled d now (d.evaluateFresh now).1 (d.evaluateFresh now).2 := by
  unfold evaluateFresh
  extract_lets gap d₁ metrics r₀ adm r₁
  have hv : r₁.verdict = (d.newDecision now).verdict :=
    (verdict_explainEvidence d₁ metrics adm now r₀).trans rfl
  have ho : r₁.opened = false := congrArg DetectionDecision.Verdict.opened hv
  have hu : r₁.updated = false := congrArg DetectionDecision.Verdict.updated hv
  have hc : r₁.closed = false := congrArg DetectionDecision.Verdict.closed hv
  have hcool : d₁.cooldownUntil = d.cooldownUntil := rfl
  have hpolicy : d₁.policy = d.policy := rfl
  clear_value d₁ r₁
  have finish : ∀ e : Detector × DetectionDecision, Cooled d₁ now e.1 e.2 →
      Cooled d now { e.1 with lastDecision := e.2 } e.2 := by
    rintro e ⟨hkept, hclosed, hopened⟩
    rw [hcool] at hkept
    rw [hpolicy] at hclosed
    rw [inCooldown, hcool] at hopened
    exact ⟨hkept, hclosed, hopened⟩
  cases hok : adm.admissible with
  | false =>
    simp only [Bool.not_false, if_true]
    exact finish _ (d₁.cooled_evaluateInadmissible now adm r₁ ho hc)
  | true =>
    simp only [Bool.not_true, Bool.false_eq_true, if_false]
    exact finish _ (d₁.cooled_evaluateAdmissible now gap metrics adm r₁ ho hu hc)

/-! ### The cooldown of a call -/

/-- What an offered sample leaves alone of the cooldown. -/
theorem cooldown_offerSample (d : Detector) (sample : Sample) :
    (d.offerSample sample).cooldownUntil = d.cooldownUntil ∧
      (d.offerSample sample).policy = d.policy := by
  obtain ⟨_, _, _, h⟩ := d.offerSample_eq sample
  rw [h]
  exact ⟨rfl, rfl⟩

theorem cooldown_evaluating {d e : Detector} {c : Call} {now : Tick}
    (h : d.evaluating c = some (e, now)) :
    e.cooldownUntil = d.cooldownUntil ∧ e.policy = d.policy := by
  cases evaluates_of_evaluating h with
  | ingest _ _ _ _ => exact d.cooldown_offerSample _
  | advance _ => exact ⟨rfl, rfl⟩

/-- A call that evaluates nothing keeps the cooldown, or fences and starts it at its own tick. -/
theorem cooldown_not_evaluating {d : Detector} {c : Call} (h : d.evaluating c = none) :
    (d.call c).1.policy = d.policy ∧
      ((d.fencing c = false ∧ (d.call c).1.cooldownUntil = d.cooldownUntil ∧
          SameClock d (d.call c).1) ∨
        (d.fencing c = true ∧
          (d.call c).1.cooldownUntil = addTicksSaturating c.tick d.policy.detection.cooldownTicks ∧
          ClosedBetween d (d.call c).1 (d.call c).2)) := by
  cases unevaluated_call h with
  | kept passes same _ =>
    rw [same]
    exact ⟨rfl, Or.inl ⟨passes, rfl, rfl, rfl, rfl, rfl, rfl⟩⟩
  | offered passes sample _ _ now _ =>
    obtain ⟨hcool, hpolicy⟩ := d.cooldown_offerSample sample
    rw [now]
    exact ⟨hpolicy, Or.inl ⟨passes, hcool, d.sameClock_offerSample sample⟩⟩
  | fenced fences reason _ _ _ _ now announces =>
    have hc := closedBetween_fenceDecision (open_of_fencing fences) reason c.tick
    rw [now]
    exact ⟨rfl, Or.inr ⟨fences, rfl, hc.wasOpen, hc.current, hc.run, hc.hasEvaluated,
      hc.lastEvaluated, announces⟩⟩

/-! ### Runs -/

/-- A detector with the ticks it evaluated afresh and those at which it opened an episode, the newest
    last. -/
structure CooldownLog where
  detector : Detector
  evaluated : List Tick := []
  openings : List Tick := []

namespace CooldownLog

def step (s : CooldownLog) (c : Call) : CooldownLog :=
  match s.detector.evaluating c with
  | some (e, now) =>
    { detector := (s.detector.call c).1
      evaluated := s.evaluated ++ [now]
      openings := s.openings ++ if (e.evaluateFresh now).2.opened then [now] else [] }
  | none => { s with detector := (s.detector.call c).1 }

/-- The distance from the smallest evaluated tick to the largest. -/
def span (s : CooldownLog) : ℕ :=
  let ticks := s.evaluated.map (·.value.toNat)
  ticks.max?.getD 0 - ticks.min?.getD 0

/-- Numerically, one tick lies at least a cooldown after another. -/
def Apart (cooldown : UInt64) (o o' : Tick) : Prop :=
  o.value.toNat + cooldown.toNat ≤ o'.value.toNat

/-- Consecutive episodes open a cooldown apart, and the evaluated span bounds their number. -/
structure Bounded (cooldown : UInt64) (s : CooldownLog) : Prop where
  apart : s.openings.IsChain (Apart cooldown)
  count : s.openings.length ≤ s.span / cooldown.toNat + 1

/-- The condition on a call: a fence does not carry a tick before the one its episode opened at. -/
def FencesForward (s : CooldownLog) (c : Call) : Prop :=
  s.detector.fencing c = true → ∀ o ∈ s.openings.getLast?, o.value ≤ c.tick.value

instance (s : CooldownLog) (c : Call) : Decidable (FencesForward s c) :=
  match h : s.openings.getLast? with
  | none => isTrue fun _ o ho => by rw [h] at ho; cases ho
  | some o => decidable_of_iff (s.detector.fencing c = true → o.value ≤ c.tick.value)
      (by simp [FencesForward, h])

/-- The invariant: openings are evaluated ticks a cooldown apart, no evaluated tick lies after the
    clock, and a detector with no open episode is cooling down from the last opening. -/
structure Cooling (policy : Policy) (s : CooldownLog) : Prop where
  installed : s.detector.policy = policy
  clock : ∀ t ∈ s.evaluated, s.detector.hasEvaluated = true ∧
    t.value ≤ s.detector.lastEvaluated.value
  below : s.detector.hasEvaluated = true → s.detector.lastEvaluated.value.toNat < 2 ^ 62
  evaluated : ∀ o ∈ s.openings, o ∈ s.evaluated
  apart : s.openings.IsChain (Apart policy.detection.cooldownTicks)
  cools : s.detector.hasOpenEpisode = false → ∀ o ∈ s.openings.getLast?,
    Apart policy.detection.cooldownTicks o s.detector.cooldownUntil
  until_lt : s.detector.cooldownUntil.value.toNat < 2 ^ 63

theorem cooling_initial (d : Detector) (key : StreamKey) (policy : Policy)
    (generation : PolicyGeneration) : Cooling policy ⟨configure d key policy generation, [], []⟩ :=
  ⟨rfl, fun _ h => (by cases h), fun h => (by cases h), fun _ h => (by cases h), .nil,
    fun _ _ h => (by cases h), Nat.two_pow_pos 63⟩

/-- What the invariant says of the number of episodes. -/
theorem Cooling.bounded {policy : Policy} {s : CooldownLog} (h : Cooling policy s)
    (hcool : 0 < policy.detection.cooldownTicks) : Bounded policy.detection.cooldownTicks s := by
  refine ⟨h.apart, ?_⟩
  have hticks : ∀ o ∈ s.openings.map (·.value.toNat), o ∈ s.evaluated.map (·.value.toNat) := by
    intro o ho
    obtain ⟨t, ht, rfl⟩ := List.mem_map.mp ho
    exact List.mem_map_of_mem (h.evaluated t ht)
  have hchain : (s.openings.map (·.value.toNat)).IsChain
      fun a b => a + policy.detection.cooldownTicks.toNat ≤ b := (List.isChain_map _).mpr h.apart
  have hlen := length_le_of_spaced (UInt64.lt_iff_toNat_lt.mp hcool) hchain
    (fun o ho => List.min?_getD_le_of_mem (k := 0) (hticks o ho))
    (fun o ho => List.le_max?_getD_of_mem (k := 0) (hticks o ho))
  rwa [List.length_map] at hlen

/-- A close in the lower quarter of the tick range starts a full cooldown. -/
theorem toNat_addTicksSaturating {now : Tick} {cooldown : UInt64} (hnow : now.value.toNat < 2 ^ 62)
    (hcool : cooldown ≤ Limits.maxCooldownTicks) :
    (addTicksSaturating now cooldown).value.toNat = now.value.toNat + cooldown.toNat := by
  have hle : cooldown.toNat ≤ 4294967296 := UInt64.le_iff_toNat_le.mp hcool
  have hsum : addChecked now.value cooldown = some (now.value + cooldown) :=
    addChecked_eq_some.mpr ⟨by omega, rfl⟩
  rw [addTicksSaturating, saturatingAdd, hsum, Option.getD_some, UInt64.toNat_add]
  omega

variable {policy : Policy} {s : CooldownLog} {c : Call}

theorem cooling_evaluating {e : Detector} {now : Tick} (h : Cooling policy s)
    (hle : policy.detection.cooldownTicks ≤ Limits.maxCooldownTicks)
    (hc : c.tick.value.toNat < 2 ^ 62) (he : s.detector.evaluating c = some (e, now)) :
    Cooling policy (s.step c) := by
  obtain ⟨hsame, rfl, hfresh⟩ := evaluating_spec he
  obtain ⟨hcoolE, hpolE⟩ := cooldown_evaluating he
  have hcall := call_evaluating he
  have hev := e.evaluated_evaluateFresh c.tick
  have hann := hev.announces
  have hevaluated : (e.evaluateFresh c.tick).1.hasEvaluated = true :=
    congrArg Setup.hasEvaluated hev.setup
  have hlast : (e.evaluateFresh c.tick).1.lastEvaluated = c.tick :=
    congrArg Setup.lastEvaluated hev.setup
  have hpolicy : (e.evaluateFresh c.tick).1.policy = e.policy := congrArg Setup.policy hev.setup
  obtain ⟨hkept, hclosed, hopened⟩ := e.cooled_evaluateFresh c.tick
  rw [hpolE, h.installed] at hclosed hpolicy
  rw [inCooldown, hcoolE] at hopened
  rw [hcoolE] at hkept
  rw [hsame.current] at hann
  have hlt : s.detector.hasEvaluated = true → s.detector.lastEvaluated.value < c.tick.value := by
    intro hd
    have hb := h.below
    rw [← hsame.hasEvaluated, ← hsame.lastEvaluated] at hb
    rw [← hsame.lastEvaluated]
    exact OnsetLog.lt_of_freshAt hfresh hb hc (hsame.hasEvaluated.trans hd)
  have hstep : s.step c = ⟨(e.evaluateFresh c.tick).1, s.evaluated ++ [c.tick],
      s.openings ++ if (e.evaluateFresh c.tick).2.opened then [c.tick] else []⟩ := by
    rw [step, he]
    dsimp only
    rw [hcall]
  clear hev hsame hfresh hcoolE hpolE
  rw [hstep]
  generalize e.evaluateFresh c.tick = u at *
  have hbefore : ∀ t ∈ s.evaluated, t.value.toNat ≤ c.tick.value.toNat := fun t ht =>
    UInt64.le_iff_toNat_le.mp (UInt64.le_of_lt
      (UInt64.lt_of_le_of_lt (h.clock t ht).2 (hlt (h.clock t ht).1)))
  have hclock : ∀ t ∈ s.evaluated ++ [c.tick], u.1.hasEvaluated = true ∧
      t.value ≤ u.1.lastEvaluated.value := by
    intro t ht
    rw [hlast]
    rcases List.mem_append.mp ht with ht | ht
    · exact ⟨hevaluated, UInt64.le_iff_toNat_le.mpr (hbefore t ht)⟩
    · exact ⟨hevaluated, List.mem_singleton.mp ht ▸ UInt64.le_refl _⟩
  have hbelow : u.1.hasEvaluated = true → u.1.lastEvaluated.value.toNat < 2 ^ 62 := by
    intro _
    rw [hlast]
    exact hc
  have hend := toNat_addTicksSaturating hc hle
  have hmax : policy.detection.cooldownTicks.toNat ≤ 4294967296 := UInt64.le_iff_toNat_le.mp hle
  -- closing starts the cooldown anew, everything else leaves it where it was
  have huntil : u.1.cooldownUntil.value.toNat < 2 ^ 63 := by
    cases hcl : u.2.closed with
    | true => rw [hclosed hcl, hend]; omega
    | false => rw [hkept hcl]; exact h.until_lt
  cases hop : u.2.opened with
  | true =>
    obtain ⟨hidle, hnow⟩ := hann.of_opened hop
    have hout := hopened hop
    have happart : ∀ o ∈ s.openings.getLast?, Apart policy.detection.cooldownTicks o c.tick := by
      intro o ho
      have hcools := h.cools hidle o ho
      have hle : ¬ c.tick.value < s.detector.cooldownUntil.value := by
        rw [← tickAfter_iff_lt (by omega) h.until_lt, hout]
        exact Bool.false_ne_true
      rw [UInt64.lt_iff_toNat_lt] at hle
      rw [Apart] at hcools ⊢
      omega
    refine ⟨hpolicy, hclock, hbelow, ?_, ?_, ?_, huntil⟩
    · intro o ho
      rcases List.mem_append.mp ho with ho | ho
      · exact List.mem_append_left _ (h.evaluated o ho)
      · exact List.mem_append_right _ ho
    · refine List.isChain_append.mpr ⟨h.apart, .singleton _, fun o ho o' ho' => ?_⟩
      obtain rfl := Option.mem_some_iff.mp ho'
      exact happart o ho
    · intro hu o ho
      obtain rfl : c.tick = o := by simpa using ho
      have hcl : u.2.verdict.closed = true := by
        have hstill := congrArg Current.isOpen hnow
        rw [show u.1.current.isOpen = false from hu] at hstill
        simpa using hstill.symm
      rw [Apart, hclosed hcl, hend]
  | false =>
    rw [if_neg Bool.false_ne_true, List.append_nil]
    refine ⟨hpolicy, hclock, hbelow, fun o ho => List.mem_append_left _ (h.evaluated o ho), h.apart,
      fun hu o ho => ?_, huntil⟩
    cases hcl : u.2.closed with
    | true =>
      have ho' := hbefore o (h.evaluated o (List.mem_of_mem_getLast? ho))
      rw [Apart, hclosed hcl, hend]
      omega
    | false =>
      have hidle : s.detector.hasOpenEpisode = false := by
        by_contra hd
        rcases (hann.of_open (Bool.eq_true_of_not_eq_false hd)).2 with ⟨same, -⟩ | ⟨-, hcl'⟩
        · exact hd ((congrArg Current.isOpen same).symm.trans hu)
        · rw [show u.2.closed = true from hcl'] at hcl
          cases hcl
      rw [hkept hcl]
      exact h.cools hidle o ho

theorem cooling_not_evaluating (h : Cooling policy s)
    (hle : policy.detection.cooldownTicks ≤ Limits.maxCooldownTicks)
    (hc : c.tick.value.toNat < 2 ^ 62) (hforward : FencesForward s c)
    (he : s.detector.evaluating c = none) : Cooling policy (s.step c) := by
  have hstep : s.step c = { s with detector := (s.detector.call c).1 } := by rw [step, he]
  rw [hstep]
  obtain ⟨hpolicy, hclock, hbelow, hevaluated, hapart, hcools, huntil⟩ := h
  obtain ⟨hpol, hcases⟩ := cooldown_not_evaluating he
  rcases hcases with ⟨-, hcool, hsame⟩ | ⟨hfence, hcool, hclosed⟩
  · have hopen : (s.detector.call c).1.hasOpenEpisode = s.detector.hasOpenEpisode :=
      congrArg Current.isOpen hsame.current
    rw [← hsame.hasEvaluated, ← hsame.lastEvaluated] at hclock hbelow
    rw [← hopen, ← hcool] at hcools
    rw [← hcool] at huntil
    exact ⟨hpol.trans hpolicy, hclock, hbelow, hevaluated, hapart, hcools, huntil⟩
  · rw [← hclosed.hasEvaluated, ← hclosed.lastEvaluated] at hclock hbelow
    rw [hpolicy] at hcool
    have hend := toNat_addTicksSaturating hc hle
    rw [← hcool] at hend
    have hmax : policy.detection.cooldownTicks.toNat ≤ 4294967296 := UInt64.le_iff_toNat_le.mp hle
    refine ⟨hpol.trans hpolicy, hclock, hbelow, hevaluated, hapart, fun _ o ho => ?_, ?_⟩
    · have hforth := UInt64.le_iff_toNat_le.mp (hforward hfence o ho)
      rw [Apart, hend]
      omega
    · rw [hend]; omega

/-- STEP: a call in the lower quarter of the tick range keeps the invariant, unless it fences an
    episode at a tick before its opening. -/
theorem cooling_step (h : Cooling policy s)
    (hle : policy.detection.cooldownTicks ≤ Limits.maxCooldownTicks)
    (hc : c.tick.value.toNat < 2 ^ 62) (hforward : FencesForward s c) :
    Cooling policy (s.step c) := by
  cases he : s.detector.evaluating c with
  | none => exact cooling_not_evaluating h hle hc hforward he
  | some e => exact cooling_evaluating h hle hc he

/-- THE COOLDOWN BOUNDS THE EPISODES: in every run of calls at ticks below 2^62 in which no fence
    carries a tick before the one its episode opened at. -/
theorem bounded_run (d : Detector) (key : StreamKey) (policy : Policy)
    (generation : PolicyGeneration) (calls : List Call)
    (hvalid : PolicySet.validate policy = .ok ()) (hcool : 0 < policy.detection.cooldownTicks)
    (hticks : ∀ c ∈ calls, c.tick.value.toNat < 2 ^ 62)
    (hforward : Runs.Meets step FencesForward ⟨configure d key policy generation, [], []⟩ calls) :
    Bounded policy.detection.cooldownTicks
      (Runs.run step ⟨configure d key policy generation, [], []⟩ calls) := by
  have hle := PolicySet.cooldown_of_validate hvalid
  have hbelow : Runs.Meets step (fun _ c => c.tick.value.toNat < 2 ^ 62)
    ⟨configure d key policy generation, [], []⟩ calls := Runs.meets_of_forall_mem hticks
  exact (Runs.run_invariant (fun _ _ hI hok => cooling_step hI hle hok.2 hok.1)
    (cooling_initial d key policy generation) (Runs.meets_and hforward hbelow)).bounded hcool

/-- A policy that opens an episode on the third deep sample and cools down for four ticks. -/
def coolPolicy : Policy where
  detection :=
    { windowCapacity := 4, minSamplesForClassification := 2, onsetMinSlopeQ16 := 0
      releaseSlopeQ16 := 0, onsetSustainTicks := 1, cooldownTicks := 4 }

def coolKey : StreamKey := ⟨⟨1⟩, ⟨1⟩, ⟨1⟩⟩

/-- A deep queue, measured under a resource generation. -/
def coolSample (generation : UInt32) (tick : UInt64) : Call :=
  .ingest { stream := coolKey, tick := ⟨tick⟩, depth := 2048, resourceGeneration := ⟨generation⟩ }

/-- Episodes at ticks 3 and 9, the first fenced by a new generation at tick 4. -/
theorem bounded_run_twice : Bounded 4 (Runs.run step ⟨configure {} coolKey coolPolicy ⟨1⟩, [], []⟩
    [coolSample 1 1, coolSample 1 2, coolSample 1 3, coolSample 2 4, coolSample 2 7, coolSample 2 8,
      coolSample 2 9]) :=
  bounded_run {} coolKey coolPolicy ⟨1⟩ _ (by decide +kernel) (by decide +kernel)
    (by decide +kernel) (by decide +kernel)

/-- Episodes at ticks 13 and 16: the first was fenced at tick 13 by a sample of tick 1. -/
theorem cooldown_shortened : ¬ ∀ key policy generation calls,
    PolicySet.validate policy = .ok () → 0 < policy.detection.cooldownTicks →
    (∀ c ∈ calls, c.tick.value.toNat < 2 ^ 62) → (∀ c ∈ calls, ∀ r t, c ≠ .fence r t) →
    Bounded policy.detection.cooldownTicks
      (Runs.run step ⟨configure {} key policy generation, [], []⟩ calls) := by
  intro h
  have hrun := h coolKey coolPolicy ⟨1⟩ [coolSample 1 11, coolSample 1 12, coolSample 1 13,
    coolSample 2 1, coolSample 2 14, coolSample 2 15, coolSample 2 16] (by decide +kernel)
    (by decide +kernel) (by decide +kernel) (by simp [coolSample])
  have happart := hrun.apart
  generalize hs : (Runs.run step _ _).openings = openings at happart
  have hticks : openings = [⟨13⟩, ⟨16⟩] := by rw [← hs]; decide +kernel
  rw [hticks] at happart
  exact absurd (List.isChain_cons_cons.mp happart).1 (by simp [Apart, coolPolicy])

end CooldownLog

end Detector

end Mbg
