import MicroburstGovernor.Detect.Accounts
import MicroburstGovernor.Detect.Cooldown
import MicroburstGovernor.Detect.Evidence

/-! When an opening is suppressed by the cooldown, over runs of one detector that start anywhere in
    the tick range. -/

namespace Mbg

namespace Detector

/-! ### The mark of a suppressed opening -/

section

variable (d : Detector) (now : Tick) (r : DetectionDecision)

theorem suppressed_updateEpisode (m : EvidenceWindow.Metrics) :
    (d.updateEpisode now m r).2.suppressedByCooldown = r.suppressedByCooldown := by
  rw [updateEpisode]
  split
  · rfl
  · dsimp only
    generalize classify _ _ _ _ _ = graded
    obtain ⟨severity, explanation, hcap, -⟩ := capSeverity_eq (d := d)
      (r := { r with explanation := graded.2 }) now graded.1.overall
    rw [hcap]

theorem suppressed_openEpisode :
    (d.openEpisode now r).2.suppressedByCooldown = r.suppressedByCooldown := by
  obtain ⟨event, explanation, hdecision⟩ := openEpisode_decision (d := d) (r := r) now
  rw [hdecision]

theorem suppressed_closeEpisode (reason : CloseReason) (fenced : Bool) :
    (d.closeEpisode reason now r fenced).2.suppressedByCooldown = r.suppressedByCooldown := by
  simp only [closeEpisode, DetectionDecision.suppressed_explainIf, DetectionDecision.explain]

/-- The state machine and the ceiling leave the mark alone. -/
theorem suppressed_transition (m : EvidenceWindow.Metrics) (adm : Admissibility)
    (cooldownOk releaseNow : Bool) :
    (d.transition now m adm cooldownOk releaseNow r).2.suppressedByCooldown =
      r.suppressedByCooldown := by
  rw [transition]
  cases d.state with
  | idle =>
    dsimp only
    split
    · have h := suppressed_openEpisode d now r
      generalize d.openEpisode now r = o at *
      exact (suppressed_updateEpisode o.1 now o.2 m).trans h
    · split <;> rfl
  | active =>
    have h := suppressed_updateEpisode d now r m
    generalize d.updateEpisode now m r = u at *
    dsimp only
    split
    · exact h
    · exact h
  | recovering =>
    dsimp only
    split
    · exact suppressed_updateEpisode { d with
        state := .active, releaseSustaining := false, releaseProgressTicks := 0 } now
        (r.explain ReasonCode.episodeMerged 0 0 now) m
    · have h := suppressed_updateEpisode d now r m
      generalize d.updateEpisode now m r = u at *
      split
      · exact (suppressed_closeEpisode u.1 now u.2 _ _).trans h
      · exact h

theorem suppressed_enforceCeiling :
    (d.enforceCeiling now r).2.suppressedByCooldown = r.suppressedByCooldown := by
  rw [enforceCeiling]
  dsimp only
  split
  · exact suppressed_closeEpisode d now (r.explain ReasonCode.episodeTimedOut
      d.episode.metrics.durationTicks.toInt64 d.policy.detection.maxEpisodeTicks.toInt64 now)
      CloseReason.episodeTimeout false
  · rfl

end

/-- A fresh evaluation on admissible evidence is suppressed exactly inside the cooldown. -/
theorem suppressed_evaluateFresh {d : Detector} {now : Tick}
    (h : (d.admissibilityAt now).admissible = true) :
    (d.evaluateFresh now).2.suppressedByCooldown = d.inCooldown now := by
  obtain ⟨r, hr, heq⟩ := d.evaluateFresh_eq now
  rw [heq, h, if_pos rfl]
  obtain ⟨r', heq', hsuppressed, -⟩ := (d.clocked now).evaluateAdmissible_accounted now (d.gapTo now)
    d.readMetrics (d.admissibilityAt now) r
  have hin : ((d.clocked now).accounted now (d.gapTo now) d.readMetrics).inCooldown now =
      d.inCooldown now := by
    rw [inCooldown, accounted]
    rw [(untouched_trackRelease _ _ _).1, (untouched_trackOnset _ _ _ _ _).1]
    rfl
  rw [heq', decided]
  dsimp only
  rw [suppressed_enforceCeiling, suppressed_transition, hsuppressed hr.suppressed, hin]

/-! ### Runs -/

/-- A detector and the tick of the call that closed an episode of it last, if one did. -/
structure CloseLog where
  detector : Detector
  lastClose : Option Tick := none

namespace CloseLog

/-- A call that closes an episode: by its evaluation, or by a fence. -/
def closes (d : Detector) (c : Call) : Bool :=
  match d.evaluating c with
  | some (e, now) => (e.evaluateFresh now).2.closed
  | none => d.fencing c

def step (s : CloseLog) (c : Call) : CloseLog where
  detector := (s.detector.call c).1
  lastClose := if closes s.detector c then some c.tick else s.lastClose

/-- A tick strictly before the end of the cooldown of the last close, in wrapping-safe order. -/
def CoolsAt (s : CloseLog) (now : Tick) : Prop :=
  ∃ close ∈ s.lastClose,
    tickAfter now ⟨close.value + s.detector.policy.detection.cooldownTicks⟩ = true

/-- The contract of one call: a fresh evaluation of admissible evidence is suppressed exactly inside
    the cooldown of the last close. -/
def ExactCooldown (s : CloseLog) (c : Call) : Prop :=
  ∀ e now, s.detector.evaluating c = some (e, now) → (e.admissibilityAt now).admissible = true →
    ((e.evaluateFresh now).2.suppressedByCooldown = true ↔ s.CoolsAt now)

/-- Where the recorded deadline tells the truth about a tick: before any close in the lower half of
    the tick range, and after one when the deadline was not clamped at the end of the range, or lies
    on the same side of the tick clamped and wrapped. -/
def DeadlineTrue (cooldown : UInt64) (lastClose : Option Tick) (now : Tick) : Prop :=
  match lastClose with
  | none => now.value.toNat ≤ 2 ^ 63
  | some close => close.value.toNat + cooldown.toNat < 2 ^ 64 ∨
      (tickAfter now ⟨~~~0⟩ = true ↔ tickAfter now ⟨close.value + cooldown⟩ = true)

/-- The condition on a call: the deadline is true of the tick of its evaluation. -/
def DeadlineTrueAt (s : CloseLog) (c : Call) : Prop :=
  ∀ e now, s.detector.evaluating c = some (e, now) → (e.admissibilityAt now).admissible = true →
    DeadlineTrue s.detector.policy.detection.cooldownTicks s.lastClose now

/-- The invariant: the recorded deadline is that of the last close, clamped. -/
def Recorded (s : CloseLog) : Prop :=
  s.detector.cooldownUntil = (s.lastClose.map fun close =>
    addTicksSaturating close s.detector.policy.detection.cooldownTicks).getD {}

theorem tickAfter_zero_iff (now : Tick) : tickAfter now {} = true ↔ ¬ now.value.toNat ≤ 2 ^ 63 := by
  rw [tickAfter_iff, UInt64.toNat_sub, UInt64.toNat_zero]
  have := now.value.toNat_lt
  omega

/-- The recorded deadline decides as the last close does exactly when it is true of the tick. -/
theorem inCooldown_iff {s : CloseLog} (h : s.Recorded) (now : Tick) :
    (tickAfter now s.detector.cooldownUntil = true ↔ s.CoolsAt now) ↔
      DeadlineTrue s.detector.policy.detection.cooldownTicks s.lastClose now := by
  rw [show s.detector.cooldownUntil = _ from h, CoolsAt]
  cases s.lastClose with
  | none =>
    rw [Option.map_none, Option.getD_none, tickAfter_zero_iff]
    simp [DeadlineTrue]
  | some close =>
    rw [Option.map_some, Option.getD_some, addTicksSaturating, saturatingAdd]
    simp only [Option.mem_some_iff, exists_eq_left', DeadlineTrue]
    cases hsum : addChecked close.value s.detector.policy.detection.cooldownTicks with
    | some total =>
      obtain ⟨hfits, rfl⟩ := addChecked_eq_some.mp hsum
      exact iff_of_true Iff.rfl (Or.inl hfits)
    | none =>
      have hover : ¬ close.value.toNat + s.detector.policy.detection.cooldownTicks.toNat < 2 ^ 64 :=
        fun hfits => by rw [addChecked_eq_some.mpr ⟨hfits, rfl⟩] at hsum; cases hsum
      rw [Option.getD_none]
      simp only [hover, false_or]

/-- STEP: a call keeps the record, and is exact when its deadline is true. -/
theorem exactCooldown_step {s : CloseLog} (h : s.Recorded) (c : Call) :
    (s.ExactCooldown c ↔ s.DeadlineTrueAt c) ∧ (s.step c).Recorded := by
  constructor
  · constructor
    · intro hexact e now he hadm
      have hiff := hexact e now he hadm
      rw [suppressed_evaluateFresh hadm, inCooldown, (cooldown_evaluating he).1] at hiff
      exact (inCooldown_iff h now).mp hiff
    · intro htrue e now he hadm
      rw [suppressed_evaluateFresh hadm, inCooldown, (cooldown_evaluating he).1]
      exact (inCooldown_iff h now).mpr (htrue e now he hadm)
  · rw [Recorded, step]
    cases he : s.detector.evaluating c with
    | some p =>
      obtain ⟨e, now⟩ := p
      obtain ⟨hcool, hpolicy⟩ := cooldown_evaluating he
      obtain ⟨-, rfl, -⟩ := evaluating_spec he
      have hcooled := e.cooled_evaluateFresh c.tick
      have hset : (e.evaluateFresh c.tick).1.policy = e.policy :=
        congrArg Setup.policy (e.evaluated_evaluateFresh c.tick).setup
      have hcloses : closes s.detector c = (e.evaluateFresh c.tick).2.closed := by
        rw [closes, he]
      rw [call_evaluating he, hcloses, hset, hpolicy]
      cases hclosed : (e.evaluateFresh c.tick).2.closed with
      | true =>
        rw [hcooled.closed hclosed, hpolicy]
        rfl
      | false =>
        rw [hcooled.kept hclosed, hcool]
        exact h
    | none =>
      obtain ⟨hpolicy, hcases⟩ := cooldown_not_evaluating he
      have hcloses : closes s.detector c = s.detector.fencing c := by rw [closes, he]
      rw [hcloses, hpolicy]
      rcases hcases with ⟨hfencing, hcool, -⟩ | ⟨hfencing, hcool, -⟩
      · rw [hfencing, hcool]
        exact h
      · rw [hfencing, hcool]
        rfl

/-- THE COOLDOWN IS EXACT: in a run of calls all fresh evaluations of admissible evidence are
    suppressed as the last close demands exactly when the recorded deadline is true of each. -/
theorem exactCooldown_run (key : StreamKey) (policy : Policy) (generation : PolicyGeneration)
    (calls : List Call) :
    Runs.Meets step ExactCooldown ⟨configure {} key policy generation, none⟩ calls ↔
      Runs.Meets step DeadlineTrueAt ⟨configure {} key policy generation, none⟩ calls :=
  Runs.meets_iff_of_invariant (I := Recorded) (fun _ c h => exactCooldown_step h c)
    (show Recorded ⟨configure {} key policy generation, none⟩ from rfl)

/-- A stream that starts in the upper half of the tick range is suppressed from the start. -/
theorem cooldown_from_start : ¬ ∀ key policy generation calls,
    PolicySet.validate policy = .ok () → (∀ c ∈ calls, ∀ r t, c ≠ .fence r t) →
    Runs.Meets step ExactCooldown ⟨configure {} key policy generation, none⟩ calls := by
  intro h
  have hmeets := h gapKey CooldownLog.coolPolicy ⟨1⟩
    [deepSample 0x8000000000000001, deepSample 0x8000000000000002] (by decide +kernel)
    (by simp [deepSample])
  have hexact := hmeets.2.1 _ _ (Option.eq_some_of_isSome (by decide +kernel)) (by decide +kernel)
  obtain ⟨close, hclose, -⟩ := hexact.mp (by decide +kernel)
  have hnone : (step ⟨configure {} gapKey CooldownLog.coolPolicy ⟨1⟩, none⟩
    (deepSample 0x8000000000000001)).lastClose = none := by decide +kernel
  rw [hnone] at hclose
  cases hclose

end CloseLog

end Detector

end Mbg
