import MicroburstGovernor.Detect.Evidence
import MicroburstGovernor.Detect.Grades
import MicroburstGovernor.Detect.Timeline

/-! The severity of an episode over runs of one detector: from one updating decision to the next
    nothing it measures decreases, and at one capacity and one authority no grade does.

    An update raises running maxima and measures a longer duration, and what it reports are the
    grades of the metrics it leaves. Repeated ticks repeat the last decision, which no update of the
    episode came after. -/

namespace Mbg

/-! ### Measures -/

theorem uint64_le_max (a b : UInt64) : a ≤ max a b :=
  (EvidenceWindow.uint64_max_le.mp (UInt64.le_refl (max a b))).1

theorem int64_le_max (a b : Int64) : a ≤ max a b := by
  rw [show max a b = if a ≤ b then b else a from rfl]
  split_ifs with h
  · exact h
  · exact Int64.le_refl a

/-- No peak, no delta and no duration lies above that of later metrics of the episode. -/
structure BurstMetrics.Below (m m' : BurstMetrics) : Prop where
  depth : m.peakDepth ≤ m'.peakDepth
  occupancy : m.peakOccupancyBytes ≤ m'.peakOccupancyBytes
  slope : m.peakSlopeQ16 ≤ m'.peakSlopeQ16
  imbalance : m.peakImbalanceQ16 ≤ m'.peakImbalanceQ16
  drops : m.dropDelta ≤ m'.dropDelta
  marks : m.markDelta ≤ m'.markDelta
  duration : m.durationTicks ≤ m'.durationTicks

namespace BurstMetrics.Below

variable {m m' m'' : BurstMetrics}

theorem refl (m : BurstMetrics) : m.Below m :=
  ⟨UInt64.le_refl _, UInt64.le_refl _, Int64.le_refl _, Int64.le_refl _, UInt64.le_refl _,
    UInt64.le_refl _, UInt64.le_refl _⟩

theorem trans (h : m.Below m') (h' : m'.Below m'') : m.Below m'' where
  depth := UInt64.le_trans h.depth h'.depth
  occupancy := UInt64.le_trans h.occupancy h'.occupancy
  slope := Int64.le_trans h.slope h'.slope
  imbalance := Int64.le_trans h.imbalance h'.imbalance
  drops := UInt64.le_trans h.drops h'.drops
  marks := UInt64.le_trans h.marks h'.marks
  duration := UInt64.le_trans h.duration h'.duration

/-- At one capacity nothing the classifier grades decreases. -/
theorem within (h : m.Below m') (hcapacity : m.capacityBytes = m'.capacityBytes) : m.Within m' :=
  ⟨h.occupancy, hcapacity, h.depth, h.slope, h.duration, h.drops⟩

end BurstMetrics.Below

namespace Detector

/-- An update raises everything an episode measures, its duration when it comes later. -/
theorem below_raise {s : Standing} {m : EvidenceWindow.Metrics} {now : Tick}
    (hduration : s.metrics.durationTicks ≤ (s.raise m now).metrics.durationTicks) :
    s.metrics.Below (s.raise m now).metrics where
  depth := uint64_le_max _ _
  occupancy := uint64_le_max _ _
  slope := int64_le_max _ _
  imbalance := int64_le_max _ _
  drops := uint64_le_max _ _
  marks := uint64_le_max _ _
  duration := hduration

/-- An update of an episode that was open raises its metrics. -/
theorem Progress.below {m : EvidenceWindow.Metrics} {now onset : Tick} {s s' : Standing}
    {opened updated : Bool} (h : Progress m now onset s s' opened updated)
    (hupdated : updated = true) (hopened : opened = false)
    (hduration : s.isOpen = true → s.metrics.durationTicks ≤ s'.metrics.durationTicks) :
    s.isOpen = true ∧ s.metrics.Below s'.metrics := by
  cases h with
  | kept _ _ updates => rw [updates] at hupdated; cases hupdated
  | opened _ _ opens => rw [opens] at hopened; cases hopened
  | openedClosed _ _ opens => rw [opens] at hopened; cases hopened
  | raised wasOpen now =>
    subst now
    exact ⟨wasOpen, below_raise (hduration wasOpen)⟩
  | raisedClosed wasOpen now =>
    subst now
    exact ⟨wasOpen, below_raise (hduration wasOpen)⟩
  | fenced _ _ _ updates => rw [updates] at hupdated; cases hupdated

/-- What does not update an episode opens none, and leaves it alone or closes it. -/
theorem Progress.of_not_updated {m : EvidenceWindow.Metrics} {now onset : Tick} {s s' : Standing}
    {opened updated : Bool} (h : Progress m now onset s s' opened updated)
    (hupdated : updated = false) : opened = false ∧ (s' = s ∨ s'.isOpen = false) := by
  cases h with
  | kept same opens => exact ⟨opens, Or.inl same⟩
  | opened _ _ _ updates => rw [updates] at hupdated; cases hupdated
  | openedClosed _ _ _ updates => rw [updates] at hupdated; cases hupdated
  | raised _ _ _ updates => rw [updates] at hupdated; cases hupdated
  | raisedClosed _ _ _ updates => rw [updates] at hupdated; cases hupdated
  | fenced _ now opens => exact ⟨opens, Or.inr (by rw [now]; rfl)⟩

/-! ### Decisions -/

/-- The grades of a decision are those of its metrics, capped for its authority. -/
def Graded (dp : DetectionPolicy) (r : DetectionDecision) : Prop :=
  ∃ evidence tick explanation,
    evidence.capacityKnown = decide (r.metrics.capacityBytes ≠ 0) ∧
    r.grades = { (classify r.metrics evidence dp tick explanation).1 with overall := r.severity } ∧
    r.severity = cappedFor dp r.authority (classify r.metrics evidence dp tick explanation).1.overall

theorem Reports.isGraded {dp : DetectionPolicy} {e : BurstEvent} {r : DetectionDecision}
    (h : Reports dp e r) : Graded dp r := by
  rw [Graded, h.metrics]
  exact h.graded

theorem cappedFor_mono (dp : DetectionPolicy) (authority : EvidenceAuthority)
    {severity severity' : SeverityClass} (h : severity.raw ≤ severity'.raw) :
    (cappedFor dp authority severity).raw ≤ (cappedFor dp authority severity').raw := by
  rw [cappedFor, cappedFor]
  split_ifs
  · exact severityMin_mono h _
  · exact h

/-- What does not decrease from one updating decision about an episode to a later one. -/
structure NoDecrease (r r' : DetectionDecision) : Prop where
  metrics : r.metrics.Below r'.metrics
  grades : r.metrics.capacityBytes = r'.metrics.capacityBytes → r.authority = r'.authority →
    r.grades.Within r'.grades ∧ r.severity.raw ≤ r'.severity.raw

/-- Decisions that measure more grade no lower. -/
theorem noDecrease_of_below {dp : DetectionPolicy} {r r' : DetectionDecision} (h : Graded dp r)
    (h' : Graded dp r') (hbelow : r.metrics.Below r'.metrics) : NoDecrease r r' := by
  refine ⟨hbelow, fun hcapacity hauthority => ?_⟩
  obtain ⟨evidence, tick, x, hknown, hgrades, hseverity⟩ := h
  obtain ⟨evidence', tick', x', hknown', hgrades', hseverity'⟩ := h'
  have hevidence : evidence.capacityKnown = evidence'.capacityKnown := by
    rw [hknown, hknown', hcapacity]
  have hwithin := classify_mono (hbelow.within hcapacity) hevidence dp tick tick' x x'
  have hle : r.severity.raw ≤ r'.severity.raw := by
    rw [hseverity, hseverity', hauthority]
    exact cappedFor_mono dp r'.authority hwithin.overall
  rw [hgrades, hgrades']
  exact ⟨⟨hwithin.occupancy, hwithin.depth, hwithin.slope, hwithin.duration, hwithin.drops, hle⟩,
    hle⟩

/-! ### Calls -/

/-- Only an opening names another episode. -/
theorem Announces.id_of_not_opened {c c' : Current} {v : DetectionDecision.Verdict}
    (h : Announces c c' v) (ho : v.opened = false) : c'.id = c.id := by
  cases h with
  | kept same => rw [same]
  | opened _ _ opened => rw [ho] at opened; cases opened
  | openedClosed _ _ opened => rw [ho] at opened; cases opened
  | updated _ same => rw [same]
  | closed _ now => rw [now]

/-- What fences an episode updates nothing and leaves the cached decision alone. -/
theorem call_of_fencing {d : Detector} {c : Call} (h : d.fencing c = true) :
    (d.call c).1.lastDecision = d.lastDecision ∧ ∀ r ∈ (d.call c).2, r.updated = false := by
  cases c with
  | ingest sample =>
    simp only [fencing, Bool.and_eq_true, decide_eq_true_eq] at h
    obtain ⟨⟨⟨hkey, hvalid⟩, hchanges⟩, hopen⟩ := h
    have hf := d.fenced_fenceDecision CloseReason.capacityChanged sample.tick
    have hcall : d.call (.ingest sample) =
        ((d.fenceGeneration sample).1, some (d.fenceGeneration sample).2) := by
      rw [call, ingest_eq hkey (Status.eq_ok_of_isOk hvalid), if_pos (by simp [hchanges, hopen])]
    rw [hcall]
    refine ⟨hf.cached, fun r hr => ?_⟩
    rw [← Option.some.inj hr]
    exact hf.updated
  | advance now => cases h
  | fence reason now =>
    have hopen : d.hasOpenEpisode = true := h
    have hf := d.fenced_fenceDecision reason now
    simp only [call, fence, hopen, Bool.not_true, Bool.false_eq_true, if_false]
    refine ⟨hf.cached, fun r hr => ?_⟩
    rw [← Option.some.inj hr]
    exact hf.updated

/-! ### Runs -/

/-- A detector and the updating decisions it answered about the episode opened last, the newest
    last. -/
structure UpdateLog where
  detector : Detector
  updates : List DetectionDecision := []

namespace UpdateLog

/-- A call opens an episode. -/
def opens (d : Detector) (c : Call) : Bool :=
  match d.evaluating c with
  | some (e, now) => (e.evaluateFresh now).2.opened
  | none => false

def step (s : UpdateLog) (c : Call) : UpdateLog where
  detector := (s.detector.call c).1
  updates := (if opens s.detector c then [] else s.updates) ++
    ((s.detector.call c).2.filter fun r => r.updated).toList

/-- The invariant: the log is about the current episode, nothing in it decreases, and neither the
    episode nor the decision that would be repeated lies below any of it. -/
structure Rising (s : UpdateLog) : Prop where
  ticking : s.detector.Ticking
  graded : ∀ r ∈ s.updates, Graded s.detector.policy.detection r ∧ r.event = s.detector.episode.id
  sorted : s.updates.Pairwise NoDecrease
  open_ : s.detector.hasOpenEpisode = true →
    ∀ r ∈ s.updates, r.metrics.Below s.detector.episode.metrics
  cached : s.detector.lastDecision.updated = true →
    (Graded s.detector.policy.detection s.detector.lastDecision ∧
      s.detector.lastDecision.event = s.detector.episode.id) ∧
    (∀ r ∈ s.updates, r.metrics.Below s.detector.lastDecision.metrics) ∧
    (s.detector.hasOpenEpisode = true →
      s.detector.lastDecision.metrics.Below s.detector.episode.metrics)

theorem rising_configure (d : Detector) (key : StreamKey) (policy : Policy)
    (generation : PolicyGeneration) : Rising ⟨configure d key policy generation, []⟩ := by
  refine ⟨d.ticking_configure key policy generation, ?_, .nil, ?_, ?_⟩
  · exact fun r hr => by cases hr
  · exact fun _ r hr => by cases hr
  · exact fun h => by cases h

/-- The log of an episode that an updating decision is added to, from its opening or from a log that
    lies below it. -/
theorem rising_concat {d : Detector} {updates : List DetectionDecision} {r' : DetectionDecision}
    (hticking : d.Ticking)
    (hgraded : ∀ r ∈ updates, Graded d.policy.detection r ∧ r.event = d.episode.id)
    (hsorted : updates.Pairwise NoDecrease) (hbelow : ∀ r ∈ updates, r.metrics.Below r'.metrics)
    (hgraded' : Graded d.policy.detection r' ∧ r'.event = d.episode.id)
    (hopen : d.hasOpenEpisode = true → r'.metrics.Below d.episode.metrics)
    (hcached : d.lastDecision = r') : Rising ⟨d, updates ++ [r']⟩ := by
  have hall : ∀ r ∈ updates ++ [r'], r.metrics.Below r'.metrics := by
    intro r hr
    rcases List.mem_append.mp hr with hold | hnew
    · exact hbelow r hold
    · rw [List.mem_singleton.mp hnew]
      exact .refl _
  refine ⟨hticking, fun r hr => ?_, ?_, fun ho r hr => (hall r hr).trans (hopen ho), fun _ => ?_⟩
  · rcases List.mem_append.mp hr with hold | hnew
    · exact hgraded r hold
    · rw [List.mem_singleton.mp hnew]
      exact hgraded'
  · refine List.pairwise_append.mpr ⟨hsorted, List.pairwise_singleton _ _, fun r hr t ht => ?_⟩
    rw [List.mem_singleton.mp ht]
    exact noDecrease_of_below (hgraded r hr).1 hgraded'.1 (hbelow r hr)
  · rw [hcached]
    exact ⟨hgraded', hall, hopen⟩

/-- A log nothing is added to, of an episode that stays or is closed. -/
theorem Rising.still {s : UpdateLog} {d : Detector} (h : Rising s) (hticking : d.Ticking)
    (hpolicy : d.policy = s.detector.policy) (hid : d.episode.id = s.detector.episode.id)
    (hopen : d.standing = s.detector.standing ∨ d.hasOpenEpisode = false)
    (hcached : d.lastDecision = s.detector.lastDecision ∨ d.lastDecision.updated = false) :
    Rising ⟨d, s.updates⟩ := by
  have hstays : d.hasOpenEpisode = true →
      s.detector.hasOpenEpisode = true ∧ d.episode.metrics = s.detector.episode.metrics := by
    intro ho
    rcases hopen with hsame | hclosed
    · exact ⟨(congrArg Standing.isOpen hsame).symm.trans ho, congrArg Standing.metrics hsame⟩
    · rw [ho] at hclosed
      cases hclosed
  refine ⟨hticking, ?_, h.sorted, fun ho r hr => ?_, fun hupdated => ?_⟩
  · dsimp only
    rw [hpolicy, hid]
    exact h.graded
  · obtain ⟨hwas, hmetrics⟩ := hstays ho
    rw [hmetrics]
    exact h.open_ hwas r hr
  · dsimp only at hupdated ⊢
    rcases hcached with hsame | hnot
    · rw [hsame] at hupdated ⊢
      obtain ⟨hgraded, hbelow, hmetrics⟩ := h.cached hupdated
      rw [hpolicy, hid]
      refine ⟨hgraded, hbelow, fun ho => ?_⟩
      obtain ⟨hwas, hkept⟩ := hstays ho
      rw [hkept]
      exact hmetrics hwas
    · rw [hnot] at hupdated
      cases hupdated

/-- STEP: a fresh evaluation adds what it updates to the log of its episode. -/
theorem step_evaluating {s : UpdateLog} {c : Call} {e : Detector} {now : Tick} (h : Rising s)
    (hc : c.tick.value.toNat < 2 ^ 63) (he : s.detector.evaluating c = some (e, now)) :
    Rising (s.step c) := by
  have hopens : opens s.detector c = (e.evaluateFresh now).2.opened := by rw [opens, he]
  have hticking := h.ticking.evaluating hc he
  obtain ⟨honset, hupTo⟩ := h.ticking.before hc he
  have hprogress := progress_call he
  have hduration := (hprogress.upTo hupTo honset hc).2
  obtain ⟨hsame, rfl, -⟩ := evaluating_spec he
  have hreports := (e.charted_evaluateFresh c.tick).reports
  have hev := e.evaluated_evaluateFresh c.tick
  have hann := hev.announces
  have hcached := hev.cached
  have hpolicy : (e.evaluateFresh c.tick).1.policy = s.detector.policy :=
    (congrArg Setup.policy hev.setup).trans (cooldown_evaluating he).2
  rw [hsame.current] at hann
  clear hev
  rw [call_evaluating he] at hticking hprogress hduration
  rw [step, hopens, call_evaluating he]
  generalize e.evaluateFresh c.tick = u at *
  dsimp only at hticking hprogress hduration ⊢
  cases hupdated : u.2.updated with
  | false =>
    obtain ⟨hopened, hopen⟩ := hprogress.of_not_updated hupdated
    rw [hopened, if_neg Bool.false_ne_true, Option.filter_some_neg (by simp [hupdated]),
      Option.toList_none, List.append_nil]
    exact h.still hticking hpolicy (hann.id_of_not_opened hopened) hopen
      (Or.inr (hcached ▸ hupdated))
  | true =>
    have hreported := hreports hupdated
    have hgraded : Graded u.1.policy.detection u.2 ∧ u.2.event = u.1.episode.id :=
      ⟨hreported.isGraded, hreported.event⟩
    have hlast : u.1.hasOpenEpisode = true → u.2.metrics.Below u.1.episode.metrics := by
      intro _
      rw [hreported.metrics]
      exact .refl _
    rw [Option.filter_some_pos (by simp [hupdated]), Option.toList_some]
    cases hopened : u.2.opened with
    | true =>
      rw [if_pos rfl]
      refine rising_concat hticking ?_ .nil ?_ hgraded hlast hcached
      · exact fun r hr => by cases hr
      · exact fun r hr => by cases hr
    | false =>
      rw [if_neg Bool.false_ne_true]
      obtain ⟨hwas, hbelow⟩ := hprogress.below hupdated hopened hduration
      refine rising_concat hticking ?_ h.sorted (fun r hr => ?_) hgraded hlast hcached
      · have hid : u.1.episode.id = s.detector.episode.id := hann.id_of_not_opened hopened
        rw [hpolicy, hid]
        exact h.graded
      · rw [hreported.metrics]
        exact (h.open_ hwas r hr).trans hbelow

/-- STEP: a repeated decision lies above the log of its episode, and a fence adds nothing. -/
theorem step_not_evaluating {s : UpdateLog} {c : Call} (h : Rising s)
    (he : s.detector.evaluating c = none) : Rising (s.step c) := by
  have hopens : opens s.detector c = false := by rw [opens, he]
  have hticking := h.ticking.not_evaluating he
  have hpolicy := (cooldown_not_evaluating he).1
  rw [step, hopens, if_neg Bool.false_ne_true]
  rcases standing_of_fencing he with ⟨hfencing, hsame, hstanding⟩ | ⟨hfencing, hclosed, hstanding⟩
  · have hid : (s.detector.call c).1.episode.id = s.detector.episode.id :=
      congrArg Current.id hsame.current
    have hstill := h.still hticking hpolicy hid (Or.inl hstanding) (Or.inl hsame.cached)
    have hmetrics : (s.detector.call c).1.episode.metrics = s.detector.episode.metrics :=
      congrArg Standing.metrics hstanding
    have hisOpen : (s.detector.call c).1.hasOpenEpisode = s.detector.hasOpenEpisode :=
      congrArg Standing.isOpen hstanding
    rcases call_not_evaluating he with ⟨-, hanswer⟩ | hclosed
    · cases hr : (s.detector.call c).2 with
      | none =>
        rw [Option.filter_none, Option.toList_none, List.append_nil]
        exact hstill
      | some r =>
        obtain rfl := hanswer r hr
        cases hupdated : s.detector.lastDecision.updated with
        | false =>
          rw [Option.filter_some_neg (by simp [hupdated]), Option.toList_none, List.append_nil]
          exact hstill
        | true =>
          obtain ⟨hgraded, hbelow, hopen⟩ := h.cached hupdated
          rw [Option.filter_some_pos (by simp [hupdated]), Option.toList_some]
          refine rising_concat hticking ?_ h.sorted hbelow ?_ ?_ hsame.cached
          · rw [hpolicy, hid]
            exact h.graded
          · rw [hpolicy, hid]
            exact hgraded
          · rw [hisOpen, hmetrics]
            exact hopen
    · have hnow : (s.detector.call c).1.hasOpenEpisode = false :=
        congrArg Current.isOpen hclosed.current
      rw [hisOpen, hclosed.wasOpen] at hnow
      cases hnow
  · obtain ⟨hcached, hanswer⟩ := call_of_fencing hfencing
    have hnone : ((s.detector.call c).2.filter fun r => r.updated).toList = [] := by
      cases hr : (s.detector.call c).2 with
      | none => rfl
      | some r => rw [Option.filter_some_neg (by simp [hanswer r hr]), Option.toList_none]
    rw [hnone, List.append_nil]
    exact h.still hticking hpolicy (congrArg Current.id hclosed.current)
      (Or.inr (congrArg Standing.isOpen hstanding)) (Or.inl hcached)

theorem rising_step {s : UpdateLog} {c : Call} (h : Rising s)
    (hc : c.tick.value.toNat < 2 ^ 63) : Rising (s.step c) := by
  cases he : s.detector.evaluating c with
  | none => exact step_not_evaluating h he
  | some e => exact step_evaluating h hc he

/-- SEVERITY IS MONOTONE: after every run of calls at ticks below 2^63 the updating decisions about the
    current episode decrease in nothing they measure, nor, at one capacity and one authority, in any
    grade; and the classifier is monotone in every dimension it grades. -/
theorem severity_run (d : Detector) (key : StreamKey) (policy : Policy)
    (generation : PolicyGeneration) (calls : List Call)
    (hticks : ∀ c ∈ calls, c.tick.value.toNat < 2 ^ 63) :
    ((Runs.run step ⟨configure d key policy generation, []⟩ calls).updates.Pairwise NoDecrease ∧
      ∀ r ∈ (Runs.run step ⟨configure d key policy generation, []⟩ calls).updates, r.event =
        (Runs.run step ⟨configure d key policy generation, []⟩ calls).detector.episode.id) ∧
    ∀ (m m' : BurstMetrics) (evidence : EvidenceSummary) (dp : DetectionPolicy) (tick : Tick)
      (explanation : Explanation), m.Within m' →
      (classify m evidence dp tick explanation).1.Within
        (classify m' evidence dp tick explanation).1 := by
  have hrising : Rising (Runs.run step ⟨configure d key policy generation, []⟩ calls) :=
    Runs.run_invariant (fun _ _ hs hc => rising_step hs hc) (rising_configure d key policy generation)
      (Runs.meets_of_forall_mem hticks)
  refine ⟨⟨hrising.sorted, fun r hr => (hrising.graded r hr).2⟩, ?_⟩
  intro m m' evidence dp tick explanation h
  exact classify_mono h rfl dp tick tick explanation explanation

/-- An episode that is updated, suspended, updated again, and answered once more from the cache; and a
    deeper peak. -/
theorem severity_run_repeated :
    (Runs.run step ⟨configure {} ⟨⟨1⟩, ⟨1⟩, ⟨1⟩⟩ OnsetLog.briskPolicy ⟨1⟩, []⟩
      [OnsetLog.briskSample 1, OnsetLog.briskSample 2, OnsetLog.briskSample 3, .advance ⟨20⟩,
        OnsetLog.briskSample 20, OnsetLog.briskSample 21, OnsetLog.briskSample 22,
        OnsetLog.briskSample 23, OnsetLog.briskSample 24, .advance ⟨24⟩]).updates.Pairwise
      NoDecrease ∧
    (classify { peakDepth := 600 } {} {} {} {}).1.Within
      (classify { peakDepth := 4096 } {} {} {} {}).1 :=
  have h := severity_run {} ⟨⟨1⟩, ⟨1⟩, ⟨1⟩⟩ OnsetLog.briskPolicy ⟨1⟩
    [OnsetLog.briskSample 1, OnsetLog.briskSample 2, OnsetLog.briskSample 3, .advance ⟨20⟩,
      OnsetLog.briskSample 20, OnsetLog.briskSample 21, OnsetLog.briskSample 22,
      OnsetLog.briskSample 23, OnsetLog.briskSample 24, .advance ⟨24⟩] (by decide +kernel)
  ⟨h.1.1, h.2 { peakDepth := 600 } { peakDepth := 4096 } {} {} {} {}
    ⟨UInt64.le_refl _, rfl, by decide, Int64.le_refl _, UInt64.le_refl _, UInt64.le_refl _⟩⟩

end UpdateLog

end Detector

end Mbg
