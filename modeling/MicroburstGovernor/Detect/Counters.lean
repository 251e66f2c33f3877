import MicroburstGovernor.Detect.Retained
import MicroburstGovernor.Lib.Odometer

/-! Cumulative counters: what one step of a counter resolves to, and what the two ends of a window
    tell about the steps between them. -/

namespace Mbg

/-! ### One step -/

/-- A modular forward step below half the counter's range. -/
def ForwardStep (previous current : UInt64) : Prop := (current - previous).toNat < 2 ^ 63

instance (previous current : UInt64) : Decidable (ForwardStep previous current) :=
  inferInstanceAs (Decidable (_ < _))

/-- A step is usable exactly when it goes forward, and comes to the distance then. -/
structure ResolvesDistance (previous current : UInt64) : Prop where
  usable : (resolveCounter previous current false).usable = true ↔ ForwardStep previous current
  delta : (resolveCounter previous current false).usable = true →
    (resolveCounter previous current false).delta = current - previous

/-- A step resolves alike wherever on the counter's circle it is taken. -/
def ResolvesAnywhere (previous current : UInt64) : Prop := ∀ k : UInt64,
  (resolveCounter (previous + k) (current + k) false).usable =
      (resolveCounter previous current false).usable ∧
    (resolveCounter (previous + k) (current + k) false).delta =
      (resolveCounter previous current false).delta

/-- The counter went back, by half its range at most. -/
def WentBack (previous current : UInt64) : Prop :=
  1 ≤ (previous - current).toNat ∧ (previous - current).toNat ≤ 2 ^ 63

theorem forwardStep_iff_lt {previous current : UInt64} :
    ForwardStep previous current ↔ current - previous < (1 : UInt64) <<< 63 := by
  rw [UInt64.lt_iff_toNat_lt]
  exact Iff.rfl

/-- What a step resolves to: a plain step forward of any length and a short step across the wrap are
    usable. -/
theorem usable_resolveCounter {previous current : UInt64} :
    (resolveCounter previous current false).usable = true ↔
      previous ≤ current ∨ ForwardStep previous current := by
  rw [forwardStep_iff_lt, resolveCounter, if_neg Bool.false_ne_true]
  split
  · rename_i h
    simp [show previous ≤ current from h]
  · rename_i h
    have hlt : ¬ previous ≤ current := h
    dsimp only
    split
    · rename_i hshort
      simp [hshort]
    · rename_i hlong
      simp [hlt, hlong]

theorem delta_resolveCounter (previous current : UInt64) :
    (resolveCounter previous current false).delta =
      if (resolveCounter previous current false).usable then current - previous else 0 := by
  rw [resolveCounter, if_neg Bool.false_ne_true]
  split
  · simp
  · dsimp only
    split <;> simp

/-- A step back by at most half the range is no step forward, and the other way round. -/
theorem forwardStep_or_wentBack {previous current : UInt64} :
    ¬ ForwardStep previous current ↔ WentBack previous current := by
  rw [ForwardStep, WentBack, UInt64.toNat_sub, UInt64.toNat_sub]
  have := previous.toNat_lt
  have := current.toNat_lt
  omega

theorem resolvesDistance_iff {previous current : UInt64} :
    ResolvesDistance previous current ↔ ForwardStep previous current ∨ current < previous := by
  have hlt : current < previous ↔ ¬ previous ≤ current := UInt64.not_le.symm
  constructor
  · intro h
    have husable := h.usable
    rw [usable_resolveCounter] at husable
    rw [hlt]
    tauto
  · intro h
    rw [hlt] at h
    refine ⟨?_, fun husable => ?_⟩
    · rw [usable_resolveCounter]
      tauto
    · rw [delta_resolveCounter, husable, if_pos rfl]

theorem resolvesAnywhere_iff {previous current : UInt64} :
    ResolvesAnywhere previous current ↔ ForwardStep previous current := by
  have hdistance : ∀ k : UInt64, current + k - (previous + k) = current - previous := by
    intro k
    grind
  constructor
  · intro h
    by_contra hnot
    have hforward : ∀ k, ¬ ForwardStep (previous + k) (current + k) := by
      intro k
      rw [ForwardStep, hdistance]
      exact hnot
    -- the same step back, once ending and once starting where the counter wraps
    have hends := (h (0 - current)).1.trans (h (0 - previous)).1.symm
    rw [Bool.eq_iff_iff, usable_resolveCounter, usable_resolveCounter,
      or_iff_left (hforward _), or_iff_left (hforward _)] at hends
    have hstart : previous + (0 - previous) = 0 := by grind
    have hend : current + (0 - current) = 0 := by grind
    have hback := (forwardStep_or_wentBack.mp hnot).1
    rw [hstart, hend] at hends
    have hle := hends.mpr (UInt64.zero_le)
    rw [UInt64.le_iff_toNat_le, UInt64.toNat_zero,
      show previous + (0 - current) = previous - current by grind] at hle
    omega
  · intro h k
    have hk : ForwardStep (previous + k) (current + k) := by
      rw [ForwardStep, hdistance]
      exact h
    have husable := usable_resolveCounter.mpr (Or.inr h)
    have husable' := usable_resolveCounter.mpr (Or.inr hk)
    refine ⟨husable'.trans husable.symm, ?_⟩
    rw [delta_resolveCounter, delta_resolveCounter, husable, husable', if_pos rfl, if_pos rfl,
      hdistance]

/-! ### The ends of a window -/

theorem windowCounterDelta_eq (first last : UInt64) (resetDeclared : Bool) :
    windowCounterDelta first last resetDeclared =
      if resetDeclared = false ∧ (first ≤ last ∨ ForwardStep first last) then last - first else 0 := by
  rw [windowCounterDelta]
  cases resetDeclared with
  | true => simp
  | false =>
    rw [if_neg Bool.false_ne_true]
    dsimp only
    rw [delta_resolveCounter]
    by_cases husable : (resolveCounter first last false).usable = true
    · have hstep := usable_resolveCounter.mp husable
      rw [if_pos husable, if_pos husable, if_pos ⟨rfl, hstep⟩]
    · have hstep := mt usable_resolveCounter.mpr husable
      rw [if_neg husable, if_neg fun h => hstep h.2]

namespace EvidenceWindow

/-- A counter's increment over the window, read off its two ends. -/
def deltaOf (w : EvidenceWindow) (counter : Sample → UInt64) : UInt64 :=
  if w.size = 0 then 0
  else windowCounterDelta (counter w.oldest) (counter w.newest)
    (hasFlag w.newest.flags SampleFlag.counterReset)

/-- The four counter metrics are one definition. -/
theorem metrics_deltas (w : EvidenceWindow) (policy : DetectionPolicy) :
    (w.metrics policy).dropDelta = w.deltaOf Sample.dropTotal ∧
      (w.metrics policy).markDelta = w.deltaOf Sample.markTotal ∧
      (w.metrics policy).ingressDelta = w.deltaOf Sample.ingressTotal ∧
      (w.metrics policy).egressDelta = w.deltaOf Sample.egressTotal := by
  simp only [metrics, deltaOf]
  split_ifs <;> exact ⟨rfl, rfl, rfl, rfl⟩

/-! ### Declared resets -/

/-- A sample after the oldest retained one declares that the counters restarted. -/
def DeclaresReset (w : EvidenceWindow) : Prop :=
  ∃ s ∈ w.retained.tail, hasFlag s.flags SampleFlag.counterReset = true

instance (w : EvidenceWindow) : Decidable w.DeclaresReset :=
  inferInstanceAs (Decidable (∃ s ∈ w.retained.tail, _))

/-- What an increment over the window has to be: none across a declared reset, else the way the
    counter went from sample to sample. -/
structure CountsAcross (w : EvidenceWindow) (counter : Sample → UInt64) (delta : UInt64) :
    Prop where
  reset : w.DeclaresReset → delta = 0
  sum : ¬ w.DeclaresReset →
    (w.retained.IsChain fun a b => ForwardStep (counter a) (counter b)) →
    Odometer.travel counter w.retained < 2 ^ 63 →
    delta.toNat = Odometer.travel counter w.retained

/-- The four increments of the metrics are what they have to be. -/
structure CountsLawfully (w : EvidenceWindow) (policy : DetectionPolicy) : Prop where
  drops : w.CountsAcross Sample.dropTotal (w.metrics policy).dropDelta
  marks : w.CountsAcross Sample.markTotal (w.metrics policy).markDelta
  ingress : w.CountsAcross Sample.ingressTotal (w.metrics policy).ingressDelta
  egress : w.CountsAcross Sample.egressTotal (w.metrics policy).egressDelta

/-- A reset is declared inside the window and the newest sample does not declare one. -/
def HidesReset (w : EvidenceWindow) : Prop :=
  w.DeclaresReset ∧ hasFlag w.newest.flags SampleFlag.counterReset = false

instance (w : EvidenceWindow) : Decidable w.HidesReset := inferInstanceAs (Decidable (_ ∧ _))

/-- The two ends of the window show no increment: they agree, or the counter regressed. -/
def QuietEnds (w : EvidenceWindow) (counter : Sample → UInt64) : Prop :=
  counter w.newest = counter w.oldest ∨
    (counter w.newest < counter w.oldest ∧ ¬ ForwardStep (counter w.oldest) (counter w.newest))

instance (w : EvidenceWindow) (counter : Sample → UInt64) : Decidable (w.QuietEnds counter) :=
  inferInstanceAs (Decidable (_ ∨ _))

/-- Without a reset the two ends tell the way of the counter, as long as it is short. -/
theorem deltaOf_of_travel {w : EvidenceWindow} (hsize : w.size ≠ 0)
    (hflag : hasFlag w.newest.flags SampleFlag.counterReset = false) {counter : Sample → UInt64}
    (htravel : Odometer.travel counter w.retained < 2 ^ 63) :
    (w.deltaOf counter).toNat = Odometer.travel counter w.retained := by
  obtain ⟨rest, hretained, hlast⟩ := retained_cons hsize
  have hends := @Odometer.toNat_ends_of_lt _ counter w.oldest rest (by rw [← hretained]; omega)
  rw [hlast, ← hretained] at hends
  have hforward : ForwardStep (counter w.oldest) (counter w.newest) := by
    rw [ForwardStep, hends]
    exact htravel
  rw [deltaOf, if_neg hsize, windowCounterDelta_eq, if_pos ⟨hflag, Or.inr hforward⟩, hends]

theorem deltaOf_eq_zero_iff {w : EvidenceWindow} (hsize : w.size ≠ 0)
    (hflag : hasFlag w.newest.flags SampleFlag.counterReset = false) {counter : Sample → UInt64} :
    w.deltaOf counter = 0 ↔ w.QuietEnds counter := by
  rw [deltaOf, if_neg hsize, windowCounterDelta_eq, hflag, QuietEnds]
  have hsub : counter w.newest - counter w.oldest = 0 ↔ counter w.newest = counter w.oldest := by
    constructor
    · intro h
      grind
    · intro h
      rw [h]
      exact UInt64.sub_self _
  have hlt : counter w.newest < counter w.oldest ↔ ¬ counter w.oldest ≤ counter w.newest :=
    UInt64.not_le.symm
  split_ifs with hstep
  · have hstep' := hstep.2
    rw [hsub, hlt]
    tauto
  · have hstep' : ¬ (counter w.oldest ≤ counter w.newest ∨
        ForwardStep (counter w.oldest) (counter w.newest)) := fun h => hstep ⟨rfl, h⟩
    rw [hlt]
    tauto

/-- COUNTER: its increment is what it has to be unless a reset is hidden and the ends show one. -/
theorem countsAcross_iff (w : EvidenceWindow) (counter : Sample → UInt64) :
    w.CountsAcross counter (w.deltaOf counter) ↔ ¬ w.HidesReset ∨ w.QuietEnds counter := by
  by_cases hsize : w.size = 0
  · have hnone : ¬ w.DeclaresReset := by
      rintro ⟨s, hs, -⟩
      rw [retained_of_empty hsize] at hs
      cases hs
    have hzero : w.deltaOf counter = 0 := by rw [deltaOf, if_pos hsize]
    refine iff_of_true ⟨fun h => (hnone h).elim, fun _ _ _ => ?_⟩ (Or.inl fun h => hnone h.1)
    rw [hzero, retained_of_empty hsize]
    rfl
  · cases hflag : hasFlag w.newest.flags SampleFlag.counterReset with
    | true =>
      have hzero : w.deltaOf counter = 0 := by
        rw [deltaOf, if_neg hsize, hflag, windowCounterDelta]
        rfl
      refine iff_of_true ⟨fun _ => hzero, fun hnone _ _ => ?_⟩ (Or.inl fun h => ?_)
      · -- the newest sample declares a reset, so it is the oldest as well
        obtain ⟨rest, hretained, hlast⟩ := retained_cons hsize
        rw [hzero, hretained]
        cases rest with
        | nil => rfl
        | cons b rest =>
          refine (hnone ⟨w.newest, ?_, hflag⟩).elim
          rw [hretained, ← hlast, List.getLast_cons (List.cons_ne_nil b rest)]
          exact List.getLast_mem _
      · rw [h.2] at hflag
        cases hflag
    | false =>
      by_cases hreset : w.DeclaresReset
      · have hhides : w.HidesReset := ⟨hreset, hflag⟩
        rw [← deltaOf_eq_zero_iff hsize hflag]
        constructor
        · intro h
          exact Or.inr (h.reset hreset)
        · rintro (hnot | hzero)
          · exact (hnot hhides).elim
          · exact ⟨fun _ => hzero, fun hnone => (hnone hreset).elim⟩
      · refine iff_of_true ⟨fun h => (hreset h).elim, fun _ _ htravel => ?_⟩
          (Or.inl fun h => hreset h.1)
        exact deltaOf_of_travel hsize hflag htravel

/-- The counters a window derives increments of. -/
def counters : List (Sample → UInt64) :=
  [Sample.dropTotal, Sample.markTotal, Sample.ingressTotal, Sample.egressTotal]

/-- INCREMENTS: a window counts lawfully exactly when it hides no reset, or every counter's ends show
    no increment. -/
theorem countsLawfully_iff (w : EvidenceWindow) (policy : DetectionPolicy) :
    w.CountsLawfully policy ↔ ¬ w.HidesReset ∨ ∀ counter ∈ counters, w.QuietEnds counter := by
  obtain ⟨hdrops, hmarks, hingress, hegress⟩ := w.metrics_deltas policy
  have heach : w.CountsLawfully policy ↔
      ∀ counter ∈ counters, w.CountsAcross counter (w.deltaOf counter) := by
    simp only [counters, List.forall_mem_cons, List.not_mem_nil, false_imp_iff, implies_true,
      and_true]
    constructor
    · rintro ⟨h₁, h₂, h₃, h₄⟩
      exact ⟨hdrops ▸ h₁, hmarks ▸ h₂, hingress ▸ h₃, hegress ▸ h₄⟩
    · rintro ⟨h₁, h₂, h₃, h₄⟩
      exact ⟨hdrops ▸ h₁, hmarks ▸ h₂, hingress ▸ h₃, hegress ▸ h₄⟩
  rw [heach]
  constructor
  · intro h
    by_cases hhides : w.HidesReset
    · refine Or.inr fun counter hcounter => ?_
      exact ((w.countsAcross_iff counter).mp (h counter hcounter)).resolve_left (not_not.mpr hhides)
    · exact Or.inl hhides
  · intro h counter hcounter
    rw [countsAcross_iff]
    exact h.imp id fun hquiet => hquiet counter hcounter

/-- A reset in the middle of three samples: the ends show 13 drops. -/
theorem countsLawfully_violated :
    ¬ ∀ capacity offers policy, (after capacity offers).CountsLawfully policy := by
  intro h
  have hreset := (h 4 [({ tick := ⟨1⟩, dropTotal := 10 }, 0),
    ({ tick := ⟨2⟩, dropTotal := 3, flags := SampleFlag.counterReset }, 0),
    ({ tick := ⟨3⟩, dropTotal := 23 }, 0)] {}).drops.reset (by decide +kernel)
  revert hreset
  decide +kernel

/-! ### A counter that went back -/

/-- A window whose drop counter went back, from here to there, adds no drops to what an episode is
    graded by. -/
def NoPhantomDrops (previous current : UInt64) : Prop := WentBack previous current →
  ∀ capacity offers policy (episode : BurstMetrics) (now : Tick),
    (after capacity offers).size ≠ 0 → (after capacity offers).oldest.dropTotal = previous →
    (after capacity offers).newest.dropTotal = current →
    (Detector.raiseMetrics episode ((after capacity offers).metrics policy) now).dropDelta =
      episode.dropDelta

theorem uint64_max_zero (a : UInt64) : max a 0 = a := by
  have hle : max a 0 ≤ a := uint64_max_le.mpr ⟨UInt64.le_refl a, UInt64.zero_le⟩
  exact UInt64.le_antisymm hle (uint64_max_le.mp (UInt64.le_refl (max a 0))).1

/-- The window of two samples with these drop counters. -/
def dropWindow (previous current : UInt64) : EvidenceWindow :=
  after 2 [({ dropTotal := previous }, 0), ({ tick := ⟨1⟩, dropTotal := current }, 0)]

theorem retained_dropWindow (previous current : UInt64) :
    (dropWindow previous current).retained =
      [{ dropTotal := previous }, { tick := ⟨1⟩, dropTotal := current }] := by
  have hfirst := (offer_offered (tracked_reset 2) { dropTotal := previous } 0).admitted
    (Or.inl rfl)
  have htracked := (offer_offered (tracked_reset 2) { dropTotal := previous } 0).tracked
  have hcapacity := (offer_offered (tracked_reset 2) { dropTotal := previous } 0).capacity
  rw [dropWindow, after, Runs.run_cons, Runs.run_cons, Runs.run_nil, step, step]
  generalize ((reset 2).offer { dropTotal := previous } 0).1 = w at *
  have hone : w.retained = [{ dropTotal := previous }] := by
    rw [hfirst.2, if_neg (by decide), retained_of_empty rfl]
    rfl
  have hsize : w.size = 1 := by rw [← length_retained, hone, List.length_singleton]
  have hnewest : w.newest = { dropTotal := previous } := by
    have hlast := getLast?_retained (w := w) (by omega)
    rw [hone] at hlast
    exact (Option.some.inj hlast).symm
  have hadmits : w.Admits { tick := ⟨1⟩, dropTotal := current } 0 := by
    refine Or.inr (Or.inl ?_)
    rw [hnewest]
    change tickAfter {} ⟨1⟩ = true
    decide
  have hroom : w.size ≠ w.capacity := by
    rw [hsize, hcapacity]
    decide
  rw [((offer_offered htracked _ 0).admitted hadmits).2, if_neg hroom, hone]
  rfl

theorem dropWindow_ends (previous current : UInt64) :
    (dropWindow previous current).size ≠ 0 ∧
      (dropWindow previous current).oldest.dropTotal = previous ∧
      (dropWindow previous current).newest.dropTotal = current ∧
      hasFlag (dropWindow previous current).newest.flags SampleFlag.counterReset = false := by
  have hretained := retained_dropWindow previous current
  have hsize : (dropWindow previous current).size ≠ 0 := by
    rw [← length_retained, hretained]
    exact Nat.two_pos.ne'
  obtain ⟨rest, hcons, hlast⟩ := retained_cons hsize
  rw [hretained, List.cons.injEq] at hcons
  obtain ⟨holdest, rfl⟩ := hcons
  rw [← holdest, ← hlast]
  refine ⟨hsize, rfl, rfl, ?_⟩
  change hasFlag 0 SampleFlag.counterReset = false
  decide

theorem noPhantomDrops_iff {previous current : UInt64} :
    NoPhantomDrops previous current ↔ ForwardStep previous current ∨ current < previous := by
  constructor
  · intro h
    by_contra hnot
    obtain ⟨hstep, hlt⟩ := not_or.mp hnot
    have hle : previous ≤ current := UInt64.not_lt.mp hlt
    have hback := forwardStep_or_wentBack.mp hstep
    obtain ⟨hsize, hfirst, hlast, hflag⟩ := dropWindow_ends previous current
    have hraised := h hback 2 _ {} {} {} hsize hfirst hlast
    rw [Detector.raiseMetrics] at hraised
    dsimp only at hraised
    have hdelta : (dropWindow previous current).deltaOf Sample.dropTotal = 0 := by
      rw [← ((dropWindow previous current).metrics_deltas {}).1]
      exact UInt64.le_antisymm ((uint64_max_le.mp (UInt64.le_of_eq hraised)).2) UInt64.zero_le
    rw [deltaOf_eq_zero_iff hsize hflag, QuietEnds, hfirst, hlast] at hdelta
    rcases hdelta with heq | ⟨hless, -⟩
    · rw [heq, WentBack, UInt64.sub_self] at hback
      exact absurd hback.1 (by decide)
    · exact hlt hless
  · intro h hback capacity offers policy episode now hsize hfirst hlast
    have hstep := forwardStep_or_wentBack.mpr hback
    have hless := h.resolve_left hstep
    have hquiet : (after capacity offers).QuietEnds Sample.dropTotal := by
      rw [QuietEnds, hfirst, hlast]
      exact Or.inr ⟨hless, hstep⟩
    have hzero : ((after capacity offers).metrics policy).dropDelta = 0 := by
      rw [((after capacity offers).metrics_deltas policy).1]
      cases hflag : hasFlag (after capacity offers).newest.flags SampleFlag.counterReset with
      | false => exact (deltaOf_eq_zero_iff hsize hflag).mpr hquiet
      | true =>
        rw [deltaOf, if_neg hsize, hflag, windowCounterDelta]
        rfl
    rw [Detector.raiseMetrics, hzero]
    exact uint64_max_zero _

/-- COUNTER STEPS: a step resolves by its modular distance, wherever it is taken, and adds no drops
    when it is one back, exactly when it goes forward by less than half the range. Resolving this one
    step and grading its drops goes wrong exactly where it is a long plain step forward. -/
theorem counter_resolution_iff (previous current : UInt64) :
    (ResolvesDistance previous current ∧ ResolvesAnywhere previous current ∧
        NoPhantomDrops previous current ↔ ForwardStep previous current) ∧
      (ResolvesDistance previous current ↔
        ForwardStep previous current ∨ current < previous) ∧
      (NoPhantomDrops previous current ↔
        ForwardStep previous current ∨ current < previous) := by
  refine ⟨⟨fun h => resolvesAnywhere_iff.mp h.2.1, fun h => ?_⟩, resolvesDistance_iff,
    noPhantomDrops_iff⟩
  exact ⟨resolvesDistance_iff.mpr (Or.inl h), resolvesAnywhere_iff.mpr h,
    noPhantomDrops_iff.mpr (Or.inl h)⟩

/-- One step back across zero resolves to a step forward by nearly the whole range. -/
theorem counter_resolution_violated : ¬ ∀ previous current, ResolvesDistance previous current ∧
    ResolvesAnywhere previous current ∧ NoPhantomDrops previous current := by
  intro h
  have hforward := (h 0 (~~~0)).1.usable.mp (by decide)
  revert hforward
  decide

end EvidenceWindow

end Mbg
