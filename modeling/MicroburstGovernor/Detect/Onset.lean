import MicroburstGovernor.Detect.Accounts
import MicroburstGovernor.Detect.Cooldown
import MicroburstGovernor.Detect.Evidence

/-! The onset rules over runs of one detector: what the evaluations between the onset of an episode
    and its opening saw. -/

namespace Mbg

/-- A clamped sum is at most the sum. -/
theorem toNat_saturatingAdd_le (a b : UInt64) : (saturatingAdd a b).toNat ≤ a.toNat + b.toNat := by
  rw [saturatingAdd]
  cases hsum : addChecked a b with
  | some total =>
    obtain ⟨hfits, rfl⟩ := addChecked_eq_some.mp hsum
    rw [Option.getD_some, UInt64.toNat_add]
    omega
  | none =>
    have hover : ¬ a.toNat + b.toNat < 2 ^ 64 := fun hfits => by
      rw [addChecked_eq_some.mpr ⟨hfits, rfl⟩] at hsum
      cases hsum
    have := (~~~0 : UInt64).toNat_lt
    rw [Option.getD_none]
    omega

namespace Detector

/-! ### The onset account -/

/-- The onset run in progress: its start, the ticks counted since, and whether a rise was seen. -/
structure OnsetAccount where
  start : Tick
  ticks : UInt64
  risen : Bool

def account (d : Detector) : Option OnsetAccount :=
  if d.onsetRunActive then some ⟨d.onsetStartTick, d.onsetRunTicks, d.onsetRiseObserved⟩ else none

/-- The account of a run that goes on, or that starts now. -/
def OnsetAccount.extend (account : Option OnsetAccount) (now : Tick) (gap : UInt64) : OnsetAccount :=
  match account with
  | none => ⟨now, 0, false⟩
  | some acc => { acc with ticks := saturatingAdd acc.ticks gap }

/-- A rise counts while the ticks of the run lie within the onset window. -/
def OnsetAccount.latch (acc : OnsetAccount) (slopeOk : Bool) (window : UInt64) : OnsetAccount :=
  { acc with risen := acc.risen || slopeOk && decide (acc.ticks ≤ window) }

@[simp] theorem OnsetAccount.start_latch (acc : OnsetAccount) (slopeOk : Bool) (window : UInt64) :
    (acc.latch slopeOk window).start = acc.start := rfl

@[simp] theorem OnsetAccount.ticks_latch (acc : OnsetAccount) (slopeOk : Bool) (window : UInt64) :
    (acc.latch slopeOk window).ticks = acc.ticks := rfl

@[simp] theorem OnsetAccount.extend_some (acc : OnsetAccount) (now : Tick) (gap : UInt64) :
    extend (some acc) now gap = { acc with ticks := saturatingAdd acc.ticks gap } := rfl

theorem OnsetAccount.risen_latch {acc : OnsetAccount} {slopeOk : Bool} {window : UInt64}
    (h : (acc.latch slopeOk window).risen = true) : acc.risen = true ∨ slopeOk = true := by
  simp only [latch, Bool.or_eq_true, Bool.and_eq_true] at h
  exact h.imp_right And.left

/-- The account after one reading. -/
def nextAccount (dp : DetectionPolicy) (account : Option OnsetAccount) (now : Tick) (gap : UInt64)
    (m : EvidenceWindow.Metrics) : Option OnsetAccount :=
  if depthOk dp m then
    some ((OnsetAccount.extend account now gap).latch (slopeOk dp m) dp.onsetSlopeWindowTicks)
  else none

theorem account_trackOnset (d : Detector) (now : Tick) (gap : UInt64) (depth slope : Bool) :
    (d.trackOnset now gap depth slope).account = if depth then
      some ((OnsetAccount.extend d.account now gap).latch slope
        d.policy.detection.onsetSlopeWindowTicks)
    else none := by
  rw [trackOnset]
  cases depth with
  | false => rfl
  | true =>
    rw [if_pos rfl, if_pos rfl]
    extract_lets d'
    have hextend : d'.account = some (OnsetAccount.extend d.account now gap) ∧
        d'.policy = d.policy := by
      dsimp only [d', account]
      cases d.onsetRunActive <;> exact ⟨rfl, rfl⟩
    have hlatch : ∀ acc, d'.account = some acc → acc.ticks = d'.onsetRunTicks ∧
        d'.onsetRunActive = true := by
      intro acc hacc
      rw [account] at hacc
      split at hacc
      · rename_i hactive
        obtain rfl := Option.some.inj hacc
        exact ⟨rfl, hactive⟩
      · cases hacc
    obtain ⟨hticks, hactive⟩ := hlatch _ hextend.1
    have hacc := hextend.1
    rw [account, if_pos hactive] at hacc
    rw [← Option.some.inj hacc, ← hextend.2]
    clear_value d'
    split
    · rename_i h
      simp only [Bool.and_eq_true, decide_eq_true_eq] at h
      rw [account]
      simp [hactive, OnsetAccount.latch, h.1, h.2]
    · rename_i h
      rw [account]
      simp only [Bool.not_eq_true] at h
      simp [hactive, OnsetAccount.latch, h]

theorem account_trackRelease (d : Detector) (gap : UInt64) (release : Bool) :
    (d.trackRelease gap release).account = d.account := by
  rw [trackRelease]
  split
  · split <;> simp only [account]
  · simp only [account]

theorem account_accounted (d : Detector) (now : Tick) (gap : UInt64) (m : EvidenceWindow.Metrics) :
    (d.accounted now gap m).account = nextAccount d.policy.detection d.account now gap m := by
  rw [accounted, account_trackRelease, account_trackOnset, nextAccount]
  rfl

/-! ### The account of an evaluation -/

section

variable (d : Detector) (now : Tick) (r : DetectionDecision)

theorem account_updateEpisode (m : EvidenceWindow.Metrics) :
    (d.updateEpisode now m r).1.account = d.account := by
  rw [updateEpisode]
  split
  · rfl
  · simp only [account]

theorem opened_updateEpisode (m : EvidenceWindow.Metrics) :
    (d.updateEpisode now m r).2.opened = r.opened := by
  rw [updateEpisode]
  split
  · rfl
  · dsimp only
    generalize classify _ _ _ _ _ = graded
    obtain ⟨severity, explanation, hcap, -⟩ := capSeverity_eq (d := d)
      (r := { r with explanation := graded.2 }) now graded.1.overall
    rw [hcap]

theorem account_closeEpisode (reason : CloseReason) (fenced : Bool) :
    (d.closeEpisode reason now r fenced).1.account = none := by
  simp [closeEpisode, account]

theorem opened_closeEpisode (reason : CloseReason) (fenced : Bool) :
    (d.closeEpisode reason now r fenced).2.opened = r.opened := by
  obtain ⟨severity, hv⟩ := d.verdict_closeEpisode now r reason fenced
  exact congrArg DetectionDecision.Verdict.opened hv

end

/-- What the state machine does to the onset account: it keeps or ends it, and opens an episode at the
    start of a confirmed one. -/
structure AccountKept (a : Detector) (d' : Detector) (r : DetectionDecision) : Prop where
  kept : d'.account = none ∨ d'.account = a.account
  opened : r.opened = true → a.onsetConfirmed = true ∧
    d'.episode.metrics.onsetTick = a.onsetStartTick

theorem AccountKept.of_unopened {a d' : Detector} {r : DetectionDecision}
    (hkept : d'.account = none ∨ d'.account = a.account) (ho : r.opened = false) :
    AccountKept a d' r :=
  ⟨hkept, fun h => by rw [h] at ho; cases ho⟩

theorem accountKept_transition (a : Detector) (now : Tick) (m : EvidenceWindow.Metrics)
    (adm : Admissibility) (cooldownOk releaseNow : Bool) {r : DetectionDecision}
    (ho : r.opened = false) :
    AccountKept a (a.transition now m adm cooldownOk releaseNow r).1
      (a.transition now m adm cooldownOk releaseNow r).2 := by
  rw [transition]
  cases a.state with
  | idle =>
    dsimp only
    split
    · rename_i hopen
      rw [Bool.and_eq_true] at hopen
      have haccount : (a.openEpisode now r).1.account = a.account := rfl
      have honset : (a.openEpisode now r).1.episode.metrics.onsetTick = a.onsetStartTick := rfl
      generalize a.openEpisode now r = o at *
      have hkept := account_updateEpisode o.1 now o.2 m
      have hcurrent := congrArg Current.onset (o.1.current_updateEpisode now o.2 m)
      generalize o.1.updateEpisode now m o.2 = u at *
      exact ⟨Or.inr (hkept.trans haccount), fun _ => ⟨hopen.1, Eq.trans hcurrent honset⟩⟩
    · split <;> exact .of_unopened (Or.inr rfl) ho
  | active =>
    have hkept := account_updateEpisode a now r m
    have hopened := (opened_updateEpisode a now r m).trans ho
    generalize a.updateEpisode now m r = u at *
    dsimp only
    split
    · exact .of_unopened (Or.inr hkept) hopened
    · exact .of_unopened (Or.inr hkept) hopened
  | recovering =>
    dsimp only
    split
    · have hkept := account_updateEpisode { a with
        state := .active, releaseSustaining := false, releaseProgressTicks := 0 } now
        (r.explain ReasonCode.episodeMerged 0 0 now) m
      have hopened := (opened_updateEpisode { a with
        state := .active, releaseSustaining := false, releaseProgressTicks := 0 } now
        (r.explain ReasonCode.episodeMerged 0 0 now) m).trans ho
      have hsame : Detector.account { a with
        state := .active, releaseSustaining := false, releaseProgressTicks := 0 } = a.account := by
        simp only [account]
      rw [hsame] at hkept
      generalize Detector.updateEpisode { a with
        state := .active, releaseSustaining := false, releaseProgressTicks := 0 } now m
        (r.explain ReasonCode.episodeMerged 0 0 now) = u at *
      exact .of_unopened (Or.inr hkept) hopened
    · have hkept := account_updateEpisode a now r m
      have hopened := (opened_updateEpisode a now r m).trans ho
      generalize a.updateEpisode now m r = u at *
      split
      · have hnone := account_closeEpisode u.1 now u.2 CloseReason.releaseConfirmed false
        have hstill := (opened_closeEpisode u.1 now u.2 CloseReason.releaseConfirmed false).trans
          hopened
        generalize u.1.closeEpisode CloseReason.releaseConfirmed now u.2 false = e at *
        exact .of_unopened (Or.inl hnone) hstill
      · exact .of_unopened (Or.inr hkept) hopened

theorem AccountKept.enforceCeiling {a d' : Detector} {r : DetectionDecision}
    (h : AccountKept a d' r) (now : Tick) :
    AccountKept a (d'.enforceCeiling now r).1 (d'.enforceCeiling now r).2 := by
  rw [Detector.enforceCeiling]
  dsimp only
  split
  · have hnone := account_closeEpisode d' now (r.explain ReasonCode.episodeTimedOut
      d'.episode.metrics.durationTicks.toInt64 d'.policy.detection.maxEpisodeTicks.toInt64 now)
      CloseReason.episodeTimeout false
    have hopened := opened_closeEpisode d' now (r.explain ReasonCode.episodeTimedOut
      d'.episode.metrics.durationTicks.toInt64 d'.policy.detection.maxEpisodeTicks.toInt64 now)
      CloseReason.episodeTimeout false
    have honset := congrArg Current.onset (d'.current_closeEpisode now
      (r.explain ReasonCode.episodeTimedOut d'.episode.metrics.durationTicks.toInt64
        d'.policy.detection.maxEpisodeTicks.toInt64 now) CloseReason.episodeTimeout false)
    generalize d'.closeEpisode CloseReason.episodeTimeout now _ false = e at *
    refine ⟨Or.inl hnone, fun ho => ?_⟩
    have ho' : r.opened = true := hopened.symm.trans ho
    exact ⟨(h.opened ho').1, Eq.trans honset (h.opened ho').2⟩
  · exact h

/-- A fresh evaluation extends the account by its reading on admissible evidence, and leaves it alone
    on any other; an episode opens at the start of a sustained run in which a rise was seen. -/
structure AccountEvaluated (d : Detector) (now : Tick) (d' : Detector) (r : DetectionDecision) :
    Prop where
  kept : d'.account = none ∨ d'.account =
    if (d.admissibilityAt now).admissible then
      nextAccount d.policy.detection d.account now (d.gapTo now) d.readMetrics
    else d.account
  opened : r.opened = true → (d.admissibilityAt now).admissible = true ∧
    ∃ acc, nextAccount d.policy.detection d.account now (d.gapTo now) d.readMetrics = some acc ∧
      acc.risen = true ∧ d.policy.detection.onsetSustainTicks ≤ acc.ticks ∧
        d'.episode.metrics.onsetTick = acc.start

theorem account_evaluateInadmissible (d : Detector) (now : Tick) (adm : Admissibility)
    (r : DetectionDecision) (ho : r.opened = false) :
    ((d.evaluateInadmissible now adm r).1.account = none ∨
      (d.evaluateInadmissible now adm r).1.account = d.account) ∧
      (d.evaluateInadmissible now adm r).2.opened = false := by
  unfold evaluateInadmissible
  extract_lets dp r₁ d₁ staleExcess held reason
  have haccount : d₁.account = d.account := by
    dsimp only [d₁]
    split
    · rfl
    · simp only [account]
  have ho₁ : r₁.opened = false := ho
  split
  · exact ⟨Or.inr rfl, ho₁⟩
  · split
    · exact ⟨Or.inr haccount, ho₁⟩
    · have hnone := account_closeEpisode d₁ now r₁ reason true
      have hopened := (opened_closeEpisode d₁ now r₁ reason true).trans ho₁
      generalize d₁.closeEpisode reason now r₁ true = e at *
      exact ⟨Or.inl hnone, hopened⟩

theorem accountEvaluated_evaluateFresh (d : Detector) (now : Tick) :
    AccountEvaluated d now (d.evaluateFresh now).1 (d.evaluateFresh now).2 := by
  obtain ⟨r, hr, heq⟩ := d.evaluateFresh_eq now
  have ho : r.opened = false := congrArg DetectionDecision.Verdict.opened hr.verdict
  rw [heq]
  cases hadm : (d.admissibilityAt now).admissible with
  | true =>
    rw [if_pos rfl]
    obtain ⟨r', heq', -, hopened⟩ := (d.clocked now).evaluateAdmissible_accounted now (d.gapTo now)
      d.readMetrics (d.admissibilityAt now) r
    have haccount := account_accounted (d.clocked now) now (d.gapTo now) d.readMetrics
    have hset : ((d.clocked now).accounted now (d.gapTo now) d.readMetrics).policy = d.policy :=
      congrArg Setup.policy ((frame_trackRelease _ _ _).1.trans (frame_trackOnset _ _ _ _ _).1)
    have hsame : nextAccount (d.clocked now).policy.detection (d.clocked now).account now
        (d.gapTo now) d.readMetrics =
        nextAccount d.policy.detection d.account now (d.gapTo now) d.readMetrics := rfl
    rw [hsame] at haccount
    rw [heq', decided]
    generalize (d.clocked now).accounted now (d.gapTo now) d.readMetrics = a at *
    have hkept := (accountKept_transition a now d.readMetrics (d.admissibilityAt now)
      (!a.inCooldown now) (releaseNow (d.clocked now).policy.detection d.readMetrics)
      (hopened.trans ho)).enforceCeiling now
    dsimp only
    generalize (a.transition now d.readMetrics (d.admissibilityAt now) (!a.inCooldown now)
      (releaseNow (d.clocked now).policy.detection d.readMetrics) r').1.enforceCeiling now _ = e at *
    refine ⟨?_, fun hop => ⟨hadm, ?_⟩⟩
    · rw [hadm, if_pos rfl, ← haccount]
      exact hkept.kept
    · obtain ⟨hconfirmed, honset⟩ := hkept.opened hop
      simp only [onsetConfirmed, Bool.and_eq_true, decide_eq_true_eq] at hconfirmed
      obtain ⟨⟨hactive, hrisen⟩, hsustain⟩ := hconfirmed
      rw [account, if_pos hactive] at haccount
      rw [hset] at hsustain
      exact ⟨_, haccount.symm, hrisen, hsustain, honset⟩
  | false =>
    rw [if_neg Bool.false_ne_true]
    obtain ⟨hkept, hopened⟩ := account_evaluateInadmissible (d.clocked now) now
      (d.admissibilityAt now) r ho
    have hsame : (d.clocked now).account = d.account := rfl
    rw [hsame] at hkept
    generalize (d.clocked now).evaluateInadmissible now (d.admissibilityAt now) r = e at *
    refine ⟨?_, fun hop => ?_⟩
    · rw [hadm, if_neg Bool.false_ne_true]
      exact hkept
    · rw [show e.2.opened = true from hop] at hopened
      cases hopened

/-! ### Runs -/

/-- What a fresh evaluation saw: the latest depth, and the steepest of the recent and window slopes. -/
structure Reading where
  tick : Tick
  depth : UInt64
  slope : RateQ16

def readingAt (d : Detector) (now : Tick) : Reading :=
  ⟨now, d.readMetrics.latestDepth, steepestSlope d.readMetrics⟩

/-- A detector with the readings of its fresh evaluations, the newest last. -/
structure OnsetTrace where
  detector : Detector
  readings : List Reading := []

namespace OnsetTrace

def step (s : OnsetTrace) (c : Call) : OnsetTrace where
  detector := (s.detector.call c).1
  readings := s.readings ++ match s.detector.evaluating c with
    | some (e, now) => [e.readingAt now]
    | none => []

/-- The contract of one call: the episode it opens had the depth at every evaluation since its onset,
    for long enough, and a rise inside the onset window. -/
def SoundOnset (s : OnsetTrace) (c : Call) : Prop :=
  ∀ e now, s.detector.evaluating c = some (e, now) → (e.evaluateFresh now).2.opened = true →
    let dp := s.detector.policy.detection
    let onset := (e.evaluateFresh now).1.episode.metrics.onsetTick
    (∀ r ∈ (s.step c).readings, onset.value ≤ r.tick.value → r.tick.value ≤ now.value →
      dp.onsetMinDepth ≤ r.depth) ∧
    dp.onsetSustainTicks.toNat ≤ now.value.toNat - onset.value.toNat ∧
    ∃ u ∈ (s.step c).readings, onset.value ≤ u.tick.value ∧
      u.tick.value.toNat ≤ onset.value.toNat + dp.onsetSlopeWindowTicks.toNat ∧
      dp.onsetMinSlopeQ16 ≤ u.slope

/-- The condition on a call, while an onset run is in progress and no episode is open: an evaluation
    of inadmissible evidence still sees the depth, and one that first sees the rise does so inside
    the onset window. -/
def NothingMissed (s : OnsetTrace) (c : Call) : Prop :=
  ∀ e now, s.detector.evaluating c = some (e, now) → e.hasOpenEpisode = false →
    ∀ acc ∈ e.account,
      let dp := s.detector.policy.detection
      ((e.admissibilityAt now).admissible = false → depthOk dp e.readMetrics = true) ∧
      ((e.admissibilityAt now).admissible = true → acc.risen = false →
        (∀ next ∈ nextAccount dp e.account now (e.gapTo now) e.readMetrics, next.risen = true →
          now.value.toNat ≤ acc.start.value.toNat + dp.onsetSlopeWindowTicks.toNat))

instance (s : OnsetTrace) (c : Call) : Decidable (NothingMissed s c) :=
  decidable_of_iff (∀ p ∈ s.detector.evaluating c, p.1.hasOpenEpisode = false →
    ∀ acc ∈ p.1.account,
      ((p.1.admissibilityAt p.2).admissible = false →
        depthOk s.detector.policy.detection p.1.readMetrics = true) ∧
      ((p.1.admissibilityAt p.2).admissible = true → acc.risen = false →
        (∀ next ∈ nextAccount s.detector.policy.detection p.1.account p.2 (p.1.gapTo p.2)
          p.1.readMetrics, next.risen = true → p.2.value.toNat ≤
            acc.start.value.toNat + s.detector.policy.detection.onsetSlopeWindowTicks.toNat)))
    ⟨fun h e now he => h (e, now) he, fun h p hp => h p.1 p.2 hp⟩

/-- What the readings say of an onset account. -/
structure Witnessed (dp : DetectionPolicy) (readings : List Reading) (last : Tick)
    (acc : OnsetAccount) : Prop where
  start : acc.start.value ≤ last.value
  ticks : acc.ticks.toNat ≤ last.value.toNat - acc.start.value.toNat
  deep : ∀ r ∈ readings, acc.start.value ≤ r.tick.value → dp.onsetMinDepth ≤ r.depth
  risen : acc.risen = true → ∃ u ∈ readings, acc.start.value ≤ u.tick.value ∧
    u.tick.value.toNat ≤ acc.start.value.toNat + dp.onsetSlopeWindowTicks.toNat ∧
    dp.onsetMinSlopeQ16 ≤ u.slope

/-- The invariant: readings lie at or before the clock, and bear out the account of a run that may
    still open an episode. -/
structure Traced (policy : Policy) (s : OnsetTrace) : Prop where
  installed : s.detector.policy = policy
  below : s.detector.hasEvaluated = true → s.detector.lastEvaluated.value.toNat < 2 ^ 63
  clock : ∀ r ∈ s.readings, s.detector.hasEvaluated = true ∧
    r.tick.value ≤ s.detector.lastEvaluated.value
  witnessed : s.detector.hasOpenEpisode = false → ∀ acc ∈ s.detector.account,
    s.detector.hasEvaluated = true ∧
      Witnessed policy.detection s.readings s.detector.lastEvaluated acc

/-- A reading that sees the depth starts an account when no run is in progress. -/
theorem nextAccount_start {dp : DetectionPolicy} {now : Tick} {gap : UInt64}
    {m : EvidenceWindow.Metrics} {next : OnsetAccount}
    (h : nextAccount dp none now gap m = some next) : depthOk dp m = true ∧ next.start = now ∧
      next.ticks = 0 ∧ (next.risen = true → slopeOk dp m = true) := by
  rw [nextAccount] at h
  split at h
  · rename_i hdepth
    obtain rfl := Option.some.inj h
    refine ⟨hdepth, OnsetAccount.start_latch .., OnsetAccount.ticks_latch .., fun hrisen => ?_⟩
    exact (OnsetAccount.risen_latch hrisen).resolve_left (by simp [OnsetAccount.extend])
  · cases h

/-- A reading that sees the depth adds its gap to the account in progress. -/
theorem nextAccount_extend {dp : DetectionPolicy} {now : Tick} {gap : UInt64}
    {m : EvidenceWindow.Metrics} {acc next : OnsetAccount}
    (h : nextAccount dp (some acc) now gap m = some next) : depthOk dp m = true ∧
      next.start = acc.start ∧ next.ticks = saturatingAdd acc.ticks gap ∧
        (next.risen = true → acc.risen = true ∨ slopeOk dp m = true) := by
  rw [nextAccount, OnsetAccount.extend_some] at h
  generalize saturatingAdd acc.ticks gap = ticks at *
  split at h
  · rename_i hdepth
    obtain rfl := Option.some.inj h
    refine ⟨hdepth, OnsetAccount.start_latch .., OnsetAccount.ticks_latch .., fun hrisen => ?_⟩
    have hcause := OnsetAccount.risen_latch hrisen
    exact hcause
  · cases h

section

variable {dp : DetectionPolicy} {readings : List Reading} {e : Detector} {now : Tick}

theorem deep_reading (h : depthOk dp e.readMetrics = true) :
    dp.onsetMinDepth ≤ (e.readingAt now).depth := by
  simpa [depthOk, readingAt] using h

theorem steep_reading (h : slopeOk dp e.readMetrics = true) :
    dp.onsetMinSlopeQ16 ≤ (e.readingAt now).slope := by
  simpa [slopeOk, readingAt] using h

theorem mem_readings : e.readingAt now ∈ readings ++ [e.readingAt now] := by simp

/-- An account that a reading starts is borne out by that reading. -/
theorem witnessed_start {next : OnsetAccount} (hbefore : ∀ r ∈ readings, r.tick.value < now.value)
    (hnext : nextAccount dp none now (e.gapTo now) e.readMetrics = some next) :
    Witnessed dp (readings ++ [e.readingAt now]) now next := by
  obtain ⟨hdepth, hstart, hticks, hrisen⟩ := nextAccount_start hnext
  refine ⟨hstart ▸ UInt64.le_refl _, by rw [hticks]; exact Nat.zero_le _, ?_, ?_⟩
  · intro r hr hafter
    rcases List.mem_append.mp hr with hr | hr
    · have hlt := UInt64.lt_iff_toNat_lt.mp (hbefore r hr)
      rw [hstart, UInt64.le_iff_toNat_le] at hafter
      omega
    · rw [List.mem_singleton.mp hr]
      exact deep_reading hdepth
  · intro hup
    rw [hstart]
    exact ⟨_, mem_readings, UInt64.le_refl _, Nat.le_add_right _ _, steep_reading (hrisen hup)⟩

/-- An account that a reading extends is borne out by the readings so far and that one. -/
theorem Witnessed.extend {acc next : OnsetAccount}
    (h : Witnessed dp readings e.lastEvaluated acc) (hev : e.hasEvaluated = true)
    (hlast : e.lastEvaluated.value < now.value) (hnow : now.value.toNat < 2 ^ 63)
    (hrise : acc.risen = false → next.risen = true →
      now.value.toNat ≤ acc.start.value.toNat + dp.onsetSlopeWindowTicks.toNat)
    (hnext : nextAccount dp (some acc) now (e.gapTo now) e.readMetrics = some next) :
    Witnessed dp (readings ++ [e.readingAt now]) now next := by
  obtain ⟨hdepth, hstart, hticks, hrisen⟩ := nextAccount_extend hnext
  have hlast' := UInt64.lt_iff_toNat_lt.mp hlast
  have hbegun := UInt64.le_iff_toNat_le.mp h.start
  refine ⟨?_, ?_, ?_, ?_⟩
  · rw [hstart]
    exact UInt64.le_of_lt (UInt64.lt_of_le_of_lt h.start hlast)
  · have hsum := toNat_saturatingAdd_le acc.ticks (e.gapTo now)
    have hgap : (e.gapTo now).toNat = now.value.toNat - e.lastEvaluated.value.toNat := by
      rw [gapTo, if_pos hev, toNat_forwardGap (by omega) hnow]
    have hcounted := h.ticks
    rw [hticks, hstart]
    omega
  · intro r hr hafter
    rw [hstart] at hafter
    rcases List.mem_append.mp hr with hr | hr
    · exact h.deep r hr hafter
    · rw [List.mem_singleton.mp hr]
      exact deep_reading hdepth
  · intro hup
    rw [hstart]
    cases hflat : acc.risen with
    | true =>
      obtain ⟨u, hu, hfrom, hwithin, hslope⟩ := h.risen hflat
      exact ⟨u, List.mem_append_left _ hu, hfrom, hwithin, hslope⟩
    | false =>
      have hslope := (hrisen hup).resolve_left (by simp [hflat])
      exact ⟨_, mem_readings, UInt64.le_of_lt (UInt64.lt_of_le_of_lt h.start hlast),
        hrise hflat hup, steep_reading hslope⟩

/-- A reading of inadmissible evidence that still sees the depth bears the account out as it is. -/
theorem Witnessed.keep {acc : OnsetAccount}
    (h : Witnessed dp readings e.lastEvaluated acc)
    (hlast : e.lastEvaluated.value < now.value) (hdepth : depthOk dp e.readMetrics = true) :
    Witnessed dp (readings ++ [e.readingAt now]) now acc := by
  have hlast' := UInt64.lt_iff_toNat_lt.mp hlast
  have hstart := UInt64.le_iff_toNat_le.mp h.start
  refine ⟨UInt64.le_iff_toNat_le.mpr (Nat.le_trans hstart (Nat.le_of_lt hlast')), ?_, ?_, ?_⟩
  · have hticks := h.ticks
    omega
  · intro r hr hafter
    rcases List.mem_append.mp hr with hr | hr
    · exact h.deep r hr hafter
    · rw [List.mem_singleton.mp hr]
      exact deep_reading hdepth
  · intro hrisen
    obtain ⟨u, hu, hfrom, hwithin, hslope⟩ := h.risen hrisen
    exact ⟨u, List.mem_append_left _ hu, hfrom, hwithin, hslope⟩

end

theorem account_offerSample (d : Detector) (sample : Sample) :
    (d.offerSample sample).account = d.account := by
  obtain ⟨_, _, _, h⟩ := d.offerSample_eq sample
  rw [h]
  simp only [account]

theorem account_evaluating {d e : Detector} {c : Call} {now : Tick}
    (h : d.evaluating c = some (e, now)) : e.account = d.account := by
  cases evaluates_of_evaluating h with
  | ingest _ _ _ _ => exact account_offerSample d _
  | advance _ => rfl

variable {policy : Policy} {s : OnsetTrace} {c : Call}

theorem account_of_onsetRun {d : Detector} (h : d.onsetRun = none) : d.account = none := by
  rw [onsetRun] at h
  rw [account]
  split at h
  · cases h
  · rename_i hinactive
    rw [if_neg hinactive]

/-- What the readings of an idle detector, with one more, say of the account they lead to. -/
theorem witnessed_evaluating {e : Detector} (h : Traced policy s) (hc : c.tick.value.toNat < 2 ^ 63)
    (he : s.detector.evaluating c = some (e, c.tick)) (hok : NothingMissed s c)
    (hidle : e.hasOpenEpisode = false) :
    ((e.admissibilityAt c.tick).admissible = true → ∀ next, nextAccount policy.detection e.account
        c.tick (e.gapTo c.tick) e.readMetrics = some next →
        Witnessed policy.detection (s.readings ++ [e.readingAt c.tick]) c.tick next) ∧
      ((e.admissibilityAt c.tick).admissible = false → ∀ acc, e.account = some acc →
        Witnessed policy.detection (s.readings ++ [e.readingAt c.tick]) c.tick acc) := by
  obtain ⟨hsame, -, hfresh⟩ := evaluating_spec he
  obtain ⟨hinstalled, hbelow, hclock, hwitnessed⟩ := h
  have hopen : e.hasOpenEpisode = s.detector.hasOpenEpisode := congrArg Current.isOpen hsame.current
  have hmissed := hok e c.tick he hidle
  rw [hinstalled] at hmissed
  rw [← hsame.hasEvaluated, ← hsame.lastEvaluated] at hbelow hclock
  rw [← hsame.hasEvaluated, ← hsame.lastEvaluated, ← hopen, ← account_evaluating he] at hwitnessed
  have hlt : e.hasEvaluated = true → e.lastEvaluated.value < c.tick.value := by
    intro hev
    rw [freshAt, hev, Bool.not_true, Bool.false_or] at hfresh
    exact (tickAfter_iff_lt (hbelow hev) hc).mp hfresh
  constructor
  · intro hadm next hnext
    cases hacc : e.account with
    | none =>
      rw [hacc] at hnext
      refine witnessed_start (fun r hr => ?_) hnext
      obtain ⟨hev, hle⟩ := hclock r hr
      exact UInt64.lt_of_le_of_lt hle (hlt hev)
    | some acc =>
      obtain ⟨hev, hw⟩ := hwitnessed hidle acc hacc
      have hrise := fun hflat => (hmissed acc hacc).2 hadm hflat next hnext
      rw [hacc] at hnext
      exact hw.extend hev (hlt hev) hc hrise hnext
  · intro hadm acc hacc
    obtain ⟨hev, hw⟩ := hwitnessed hidle acc hacc
    exact hw.keep (hlt hev) ((hmissed acc hacc).1 hadm)

theorem step_evaluating {e : Detector} (h : Traced policy s) (hc : c.tick.value.toNat < 2 ^ 63)
    (he : s.detector.evaluating c = some (e, c.tick)) (hok : NothingMissed s c) :
    SoundOnset s c ∧ Traced policy (s.step c) := by
  have hwitnessed := witnessed_evaluating h hc he hok
  obtain ⟨hsame, -, hfresh⟩ := evaluating_spec he
  have hpolicy : e.policy = policy := (cooldown_evaluating he).2.trans h.installed
  have hev := e.evaluated_evaluateFresh c.tick
  obtain ⟨hkept, hopened⟩ := e.accountEvaluated_evaluateFresh c.tick
  have hclosed := (e.runEvaluated_evaluateFresh c.tick).closed
  have hann := hev.announces
  have hlast : (e.evaluateFresh c.tick).1.lastEvaluated = c.tick :=
    congrArg Setup.lastEvaluated hev.setup
  have hevaluated : (e.evaluateFresh c.tick).1.hasEvaluated = true :=
    congrArg Setup.hasEvaluated hev.setup
  have hinstalled : (e.evaluateFresh c.tick).1.policy = policy :=
    (congrArg Setup.policy hev.setup).trans hpolicy
  have hreadings : (s.step c).readings = s.readings ++ [e.readingAt c.tick] := by
    simp only [step, he]
  have hdetector : (s.step c).detector = (e.evaluateFresh c.tick).1 := by
    rw [step, call_evaluating he]
  rw [hpolicy] at hkept hopened
  clear hev
  constructor
  · intro e' now' he' hop
    obtain ⟨rfl, rfl⟩ := Prod.mk.inj (Option.some.inj (he.symm.trans he'))
    obtain ⟨hadm, next, hnext, hrisen, hsustain, honset⟩ := hopened hop
    have hw := (hwitnessed (hann.of_opened hop).1).1 hadm next hnext
    dsimp only
    rw [h.installed, honset, hreadings]
    refine ⟨fun r hr hafter _ => hw.deep r hr hafter, ?_, hw.risen hrisen⟩
    exact Nat.le_trans (UInt64.le_iff_toNat_le.mp hsustain) hw.ticks
  · generalize e.evaluateFresh c.tick = u at *
    refine ⟨by rw [hdetector]; exact hinstalled, fun _ => by rw [hdetector, hlast]; exact hc, ?_, ?_⟩
    · intro r hr
      rw [hdetector, hlast]
      refine ⟨hevaluated, ?_⟩
      rw [hreadings] at hr
      rcases List.mem_append.mp hr with hr | hr
      · obtain ⟨hd, hle⟩ := h.clock r hr
        have hb := h.below hd
        rw [freshAt, hsame.hasEvaluated, hd, Bool.not_true, Bool.false_or, hsame.lastEvaluated] at hfresh
        have hlt := (tickAfter_iff_lt hb hc).mp hfresh
        exact UInt64.le_of_lt (UInt64.lt_of_le_of_lt hle hlt)
      · rw [List.mem_singleton.mp hr]
        exact UInt64.le_refl _
    · rw [hdetector, hlast, hreadings]
      intro hidle' acc hacc
      refine ⟨hevaluated, ?_⟩
      have hsome : u.2.closed = false := by
        cases hcl : u.2.closed with
        | false => rfl
        | true =>
          rw [account_of_onsetRun (hclosed hcl)] at hacc
          cases hacc
      have hidle : e.hasOpenEpisode = false := by
        cases ho : e.hasOpenEpisode with
        | false => rfl
        | true =>
          rcases (hann.of_open ho).2 with ⟨hsame', -⟩ | ⟨-, hcl⟩
          · have hstill : u.1.hasOpenEpisode = e.hasOpenEpisode := congrArg Current.isOpen hsame'
            rw [hstill, ho] at hidle'
            cases hidle'
          · rw [show u.2.closed = true from hcl] at hsome
            cases hsome
      obtain ⟨hnext, hkeep⟩ := hwitnessed hidle
      rcases hkept with hnone | hsome'
      · rw [hnone] at hacc
        cases hacc
      · cases hadm : (e.admissibilityAt c.tick).admissible with
        | true =>
          rw [hadm, if_pos rfl] at hsome'
          exact hnext hadm acc (hsome'.symm.trans hacc)
        | false =>
          rw [hadm, if_neg Bool.false_ne_true] at hsome'
          exact hkeep hadm acc (hsome'.symm.trans hacc)

/-- A call that evaluates nothing keeps the account, or ends it. -/
theorem account_not_evaluating {d : Detector} (h : d.evaluating c = none) :
    (d.call c).1.account = none ∨ (d.call c).1.account = d.account := by
  cases unevaluated_call h with
  | kept _ same _ =>
    rw [same]
    exact Or.inr rfl
  | offered _ sample _ _ now _ =>
    rw [now]
    exact Or.inr (account_offerSample d sample)
  | fenced _ reason _ _ _ _ now _ =>
    rw [now]
    exact Or.inl (account_closeEpisode d c.tick (d.newDecision c.tick) reason true)

theorem step_not_evaluating (h : Traced policy s) (he : s.detector.evaluating c = none) :
    SoundOnset s c ∧ Traced policy (s.step c) := by
  have hreadings : (s.step c).readings = s.readings := by
    simp only [step, he, List.append_nil]
  have hdetector : (s.step c).detector = (s.detector.call c).1 := by rw [step]
  obtain ⟨hinstalled, hbelow, hclock, hwitnessed⟩ := h
  refine ⟨fun e now he' => (by rw [he] at he'; cases he'), ?_⟩
  have hpolicy := (cooldown_not_evaluating he).1
  have haccount := account_not_evaluating he
  rcases call_not_evaluating he with ⟨hsame, -⟩ | hclosed
  · have hopen : (s.detector.call c).1.hasOpenEpisode = s.detector.hasOpenEpisode :=
      congrArg Current.isOpen hsame.current
    rw [← hsame.hasEvaluated, ← hsame.lastEvaluated] at hbelow hclock
    rw [← hsame.hasEvaluated, ← hsame.lastEvaluated, ← hopen] at hwitnessed
    refine ⟨by rw [hdetector, hpolicy, hinstalled], by rw [hdetector]; exact hbelow,
      by rw [hdetector, hreadings]; exact hclock, ?_⟩
    rw [hdetector, hreadings]
    intro hidle acc hacc
    rcases haccount with hnone | hkept
    · rw [hnone] at hacc
      cases hacc
    · exact hwitnessed hidle acc (hkept ▸ hacc)
  · rw [← hclosed.hasEvaluated, ← hclosed.lastEvaluated] at hbelow hclock
    refine ⟨by rw [hdetector, hpolicy, hinstalled], by rw [hdetector]; exact hbelow,
      by rw [hdetector, hreadings]; exact hclock, ?_⟩
    rw [hdetector]
    intro _ acc hacc
    rw [account_of_onsetRun hclosed.run] at hacc
    cases hacc

/-- STEP: a call that misses nothing opens by the rules, and keeps the invariant. -/
theorem soundOnset_step (h : Traced policy s) (hc : c.tick.value.toNat < 2 ^ 63)
    (hok : NothingMissed s c) : SoundOnset s c ∧ Traced policy (s.step c) := by
  cases he : s.detector.evaluating c with
  | none => exact step_not_evaluating h he
  | some p =>
    obtain ⟨e, now⟩ := p
    obtain ⟨-, rfl, -⟩ := evaluating_spec he
    exact step_evaluating h hc he hok

theorem traced_configure (key : StreamKey) (policy : Policy) (generation : PolicyGeneration) :
    Traced policy ⟨configure {} key policy generation, []⟩ :=
  ⟨rfl, fun h => (by cases h), fun _ h => (by cases h), fun _ _ h => (by cases h)⟩

/-- ONSETS ARE SOUND: in a run of calls at ticks below 2^63 in which no evaluation of a run in progress
    misses a reading or latches a late rise, every episode opens by the three onset rules. -/
theorem soundOnset_run (key : StreamKey) (policy : Policy) (generation : PolicyGeneration)
    (calls : List Call) (hticks : ∀ c ∈ calls, c.tick.value.toNat < 2 ^ 63)
    (hok : Runs.Meets step NothingMissed ⟨configure {} key policy generation, []⟩ calls) :
    Runs.Meets step SoundOnset ⟨configure {} key policy generation, []⟩ calls := by
  have hstart := traced_configure key policy generation
  generalize (⟨configure {} key policy generation, []⟩ : OnsetTrace) = s at *
  induction calls generalizing s with
  | nil => exact trivial
  | cons c calls ih =>
    obtain ⟨hsound, hnext⟩ := soundOnset_step hstart (hticks c (by simp)) hok.1
    exact ⟨hsound, ih (fun c' hc' => hticks c' (List.mem_cons_of_mem _ hc')) _ hok.2 hnext⟩

theorem soundOnset_run_steady : Runs.Meets step SoundOnset
    ⟨configure {} gapKey CooldownLog.coolPolicy ⟨1⟩, []⟩ [deepSample 1, deepSample 2, deepSample 3] :=
  soundOnset_run _ _ _ _ (by decide) (by decide +kernel)

/-- A shallow queue, observed at a tick. -/
def shallowSample (tick : UInt64) : Call := .ingest { stream := gapKey, tick := ⟨tick⟩ }

/-- An episode opens at tick 13 with its onset at tick 2, though the queue was empty at tick 10. -/
theorem onset_across_gap : ¬ ∀ key policy generation calls, PolicySet.validate policy = .ok () →
    (∀ c ∈ calls, c.tick.value.toNat < 2 ^ 63) → (∀ c ∈ calls, ∀ r t, c ≠ .fence r t) →
    Runs.Meets step SoundOnset ⟨configure {} key policy generation, []⟩ calls := by
  intro h
  have hmeets := h gapKey CooldownLog.coolPolicy ⟨1⟩ [deepSample 1, deepSample 2, shallowSample 10,
    deepSample 11, deepSample 12, deepSample 13] (by decide +kernel) (by decide +kernel)
    (by simp [deepSample, shallowSample])
  have hlast := hmeets.2.2.2.2.2.1 _ _ (Option.eq_some_of_isSome (by decide +kernel))
    (by decide +kernel)
  have hdeep := hlast.1
  revert hdeep
  decide +kernel

end OnsetTrace

end Detector

end Mbg
