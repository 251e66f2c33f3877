import MicroburstGovernor.Detect.Answers
import MicroburstGovernor.Detect.Cooldown
import MicroburstGovernor.Detect.Standing

/-! The timeline of an episode over runs of one detector: onset, peak, last update, closing, in that
    order, and a duration that never shrinks.

    An evaluation dates the episode by its own tick, which is after every evaluation before it. A
    change of resource generation closes it at the tick of the sample, whatever that is: the
    timeline breaks exactly when this tick lies before the last update. -/

namespace Mbg

namespace Detector

/-! ### Timelines -/

namespace Standing

/-- The timeline of an open episode, measured up to its last update. -/
structure Running (s : Standing) : Prop where
  lifecycle : s.lifecycle = .opened
  onset : s.metrics.onsetTick.value ≤ s.metrics.peakTick.value
  peak : s.metrics.peakTick.value ≤ s.metrics.lastUpdateTick.value
  bounded : s.metrics.lastUpdateTick.value.toNat < 2 ^ 63
  duration : s.metrics.durationTicks.toNat =
    s.metrics.lastUpdateTick.value.toNat - s.metrics.onsetTick.value.toNat

/-- The timeline of a closed episode, measured up to its closing. -/
structure Ordered (s : Standing) : Prop where
  onset : s.metrics.onsetTick.value ≤ s.metrics.peakTick.value
  peak : s.metrics.peakTick.value ≤ s.metrics.lastUpdateTick.value
  update : s.metrics.lastUpdateTick.value ≤ s.closedTick.value
  ended : s.metrics.endTick = s.closedTick
  duration : s.metrics.durationTicks.toNat =
    s.closedTick.value.toNat - s.metrics.onsetTick.value.toNat

variable {s : Standing} {now : Tick}

/-- The duration measured at a later tick. -/
theorem Running.duration_le (h : s.Running) (hle : s.metrics.lastUpdateTick.value ≤ now.value)
    (hnow : now.value.toNat < 2 ^ 63) :
    s.metrics.durationTicks ≤ forwardGap s.metrics.onsetTick now ∧
      (forwardGap s.metrics.onsetTick now).toNat =
        now.value.toNat - s.metrics.onsetTick.value.toNat := by
  have honset := h.onset
  have hpeak := h.peak
  have hbounded := h.bounded
  rw [UInt64.le_iff_toNat_le] at hle honset hpeak
  have hgap := @toNat_forwardGap s.metrics.onsetTick now (by omega) hnow
  refine ⟨?_, hgap⟩
  rw [UInt64.le_iff_toNat_le, hgap, h.duration]
  omega

theorem running_opening {onset : Tick} (honset : onset.value ≤ now.value)
    (hnow : now.value.toNat < 2 ^ 63) (m : EvidenceWindow.Metrics) :
    ((opening onset now).raise m now).Running := by
  have hle := UInt64.le_iff_toNat_le.mp honset
  have hlow : onset.value.toNat < 2 ^ 63 := by omega
  refine ⟨rfl, ?_, ?_, hnow, toNat_forwardGap hlow hnow⟩
  · dsimp only [raise, opening, raiseMetrics]
    split <;> exact honset
  · dsimp only [raise, opening, raiseMetrics]
    split <;> exact UInt64.le_refl _

theorem Running.raise (h : s.Running) (hle : s.metrics.lastUpdateTick.value ≤ now.value)
    (hnow : now.value.toNat < 2 ^ 63) (m : EvidenceWindow.Metrics) : (s.raise m now).Running := by
  have hpeak := UInt64.le_trans h.peak hle
  refine ⟨h.lifecycle, ?_, ?_, hnow, (h.duration_le hle hnow).2⟩
  · dsimp only [Standing.raise, raiseMetrics]
    split
    · exact UInt64.le_trans h.onset hpeak
    · exact h.onset
  · dsimp only [Standing.raise, raiseMetrics]
    split
    · exact UInt64.le_refl _
    · exact hpeak

/-- Closing at or after the last update keeps the order. -/
theorem Running.close (h : s.Running) (hle : s.metrics.lastUpdateTick.value ≤ now.value)
    (hnow : now.value.toNat < 2 ^ 63) (lifecycle : EventLifecycle) :
    (s.close now lifecycle).Ordered :=
  ⟨h.onset, h.peak, hle, rfl, (h.duration_le hle hnow).2⟩

/-- An open episode runs up to a tick at most. -/
def UpTo (s : Standing) (now : Tick) : Prop :=
  s.isOpen = true → s.Running ∧ s.metrics.lastUpdateTick.value ≤ now.value

/-- A closed episode is in order. -/
def OrderedIfClosed (s : Standing) : Prop :=
  s.lifecycle = .closed ∨ s.lifecycle = .fenced → s.Ordered

theorem upTo_of_closed (h : s.isOpen = false) : s.UpTo now := by
  intro hopen
  rw [h] at hopen
  cases hopen

theorem orderedIfClosed_of_opened (h : s.lifecycle = .opened) : s.OrderedIfClosed := by
  rintro (hclosed | hclosed) <;> rw [h] at hclosed <;> cases hclosed

end Standing

/-- An evaluation dates what it leaves open by its own tick, and no open episode gets shorter. -/
theorem Progress.upTo {m : EvidenceWindow.Metrics} {now onset : Tick} {s s' : Standing}
    {opened updated : Bool} (h : Progress m now onset s s' opened updated) (hs : s.UpTo now)
    (honset : onset.value ≤ now.value) (hnow : now.value.toNat < 2 ^ 63) :
    s'.UpTo now ∧ (s.isOpen = true → s.metrics.durationTicks ≤ s'.metrics.durationTicks) := by
  have hnot : s.isOpen = false → s.isOpen = true →
      s.metrics.durationTicks ≤ s'.metrics.durationTicks :=
    fun hclosed hopen => absurd (hclosed.symm.trans hopen) Bool.false_ne_true
  cases h with
  | kept same =>
    rw [same]
    exact ⟨hs, fun _ => UInt64.le_refl _⟩
  | opened wasOpen now =>
    refine ⟨?_, hnot wasOpen⟩
    subst now
    exact fun _ => ⟨Standing.running_opening honset hnow m, UInt64.le_refl _⟩
  | openedClosed wasOpen now =>
    refine ⟨?_, hnot wasOpen⟩
    subst now
    exact Standing.upTo_of_closed rfl
  | raised wasOpen now =>
    subst now
    obtain ⟨hrunning, hle⟩ := hs wasOpen
    exact ⟨fun _ => ⟨hrunning.raise hle hnow m, UInt64.le_refl _⟩,
      fun _ => (hrunning.duration_le hle hnow).1⟩
  | raisedClosed wasOpen now =>
    subst now
    obtain ⟨hrunning, hle⟩ := hs wasOpen
    exact ⟨Standing.upTo_of_closed rfl, fun _ => (hrunning.duration_le hle hnow).1⟩
  | fenced wasOpen now =>
    subst now
    obtain ⟨hrunning, hle⟩ := hs wasOpen
    exact ⟨Standing.upTo_of_closed rfl, fun _ => (hrunning.duration_le hle hnow).1⟩

/-- What an evaluation closes it leaves in order. -/
theorem Progress.orderedIfClosed {m : EvidenceWindow.Metrics} {now onset : Tick} {s s' : Standing}
    {opened updated : Bool} (h : Progress m now onset s s' opened updated) (hs : s.UpTo now)
    (hordered : s.OrderedIfClosed) (honset : onset.value ≤ now.value) (hnow : now.value.toNat < 2 ^ 63) :
    s'.OrderedIfClosed := by
  cases h with
  | kept same =>
    rw [same]
    exact hordered
  | opened wasOpen now =>
    rw [now]
    exact Standing.orderedIfClosed_of_opened rfl
  | openedClosed wasOpen now =>
    subst now
    exact fun _ => (Standing.running_opening honset hnow m).close (UInt64.le_refl _) hnow .closed
  | raised wasOpen now =>
    subst now
    exact Standing.orderedIfClosed_of_opened (hs wasOpen).1.lifecycle
  | raisedClosed wasOpen now =>
    subst now
    obtain ⟨hrunning, hle⟩ := hs wasOpen
    exact fun _ => (hrunning.raise hle hnow m).close (UInt64.le_refl _) hnow .closed
  | fenced wasOpen now =>
    subst now
    obtain ⟨hrunning, hle⟩ := hs wasOpen
    exact fun _ => hrunning.close hle hnow .fenced

/-! ### Clocks -/

/-- The invariant of every run: an open episode runs up to the last evaluation, and the onset run
    started at an evaluation. -/
structure Ticking (d : Detector) : Prop where
  clock : d.hasEvaluated = true → d.lastEvaluated.value.toNat < 2 ^ 63
  run : ∀ start ∈ d.onsetRun, d.hasEvaluated = true ∧ start.value ≤ d.lastEvaluated.value
  evaluated : d.hasOpenEpisode = true → d.hasEvaluated = true
  running : d.standing.UpTo d.lastEvaluated

theorem ticking_configure (d : Detector) (key : StreamKey) (policy : Policy)
    (generation : PolicyGeneration) : (configure d key policy generation).Ticking := by
  refine ⟨?_, ?_, ?_, Standing.upTo_of_closed rfl⟩
  · exact fun h => by cases h
  · exact fun start h => by cases h
  · exact fun h => by cases h

/-- A call evaluates afresh only at a tick after the last evaluation. -/
theorem Ticking.lt_of_evaluating {d e : Detector} {c : Call} {now : Tick} (h : d.Ticking)
    (hc : c.tick.value.toNat < 2 ^ 63) (he : d.evaluating c = some (e, now))
    (hevaluated : d.hasEvaluated = true) : d.lastEvaluated.value < c.tick.value := by
  obtain ⟨hsame, rfl, hfresh⟩ := evaluating_spec he
  rw [freshAt, hsame.hasEvaluated, hsame.lastEvaluated, hevaluated, Bool.not_true,
    Bool.false_or] at hfresh
  exact (tickAfter_iff_lt (h.clock hevaluated) hc).mp hfresh

/-- What an evaluation reads of the clocks: it comes after the onset run and the last update. -/
theorem Ticking.before {d e : Detector} {c : Call} {now : Tick} (h : d.Ticking)
    (hc : c.tick.value.toNat < 2 ^ 63) (he : d.evaluating c = some (e, now)) :
    (d.onsetRun.getD c.tick).value ≤ c.tick.value ∧ d.standing.UpTo c.tick := by
  have hlt := h.lt_of_evaluating hc he
  constructor
  · cases hstart : d.onsetRun with
    | none => exact UInt64.le_refl _
    | some start =>
      obtain ⟨hd, hle⟩ := h.run start hstart
      exact UInt64.le_of_lt (UInt64.lt_of_le_of_lt hle (hlt hd))
  · intro hopen
    obtain ⟨hrunning, hle⟩ := h.running hopen
    exact ⟨hrunning, UInt64.le_of_lt (UInt64.lt_of_le_of_lt hle (hlt (h.evaluated hopen)))⟩

/-- The progress a call that evaluates makes, in the terms of the detector it is made on. -/
theorem progress_call {d e : Detector} {c : Call} {now : Tick}
    (he : d.evaluating c = some (e, now)) :
    Progress e.readMetrics c.tick (d.onsetRun.getD c.tick) d.standing (d.call c).1.standing
      (e.evaluateFresh c.tick).2.opened (e.evaluateFresh c.tick).2.updated := by
  obtain ⟨hsame, rfl, -⟩ := evaluating_spec he
  rw [call_evaluating he, ← standing_evaluating he, ← hsame.run]
  exact (e.charted_evaluateFresh c.tick).progress

theorem Ticking.evaluating {d e : Detector} {c : Call} {now : Tick} (h : d.Ticking)
    (hc : c.tick.value.toNat < 2 ^ 63) (he : d.evaluating c = some (e, now)) :
    (d.call c).1.Ticking := by
  obtain ⟨honset, hupTo⟩ := h.before hc he
  obtain ⟨hupTo', -⟩ := (progress_call he).upTo hupTo honset hc
  obtain ⟨hsame, rfl, -⟩ := evaluating_spec he
  have hruns := (e.runEvaluated_evaluateFresh c.tick).run
  have hset := (e.evaluated_evaluateFresh c.tick).setup
  have hevaluated : (e.evaluateFresh c.tick).1.hasEvaluated = true :=
    congrArg Setup.hasEvaluated hset
  have hlast : (e.evaluateFresh c.tick).1.lastEvaluated = c.tick :=
    congrArg Setup.lastEvaluated hset
  rw [hsame.run] at hruns
  rw [call_evaluating he] at hupTo' ⊢
  clear hset
  dsimp only at hupTo' ⊢
  generalize (e.evaluateFresh c.tick).1 = u at *
  refine ⟨fun _ => hlast ▸ hc, ?_, fun _ => hevaluated, hlast ▸ hupTo'⟩
  intro start hstart
  rw [hlast]
  refine ⟨hevaluated, ?_⟩
  rcases hruns with hnone | hkept | hnew
  · rw [hnone] at hstart
    cases hstart
  · rw [hkept] at hstart
    rw [hstart] at honset
    exact honset
  · rw [hnew, Option.mem_some_iff] at hstart
    rw [hstart]
    exact UInt64.le_refl _

/-- What fences the episode of a call is no evaluation, and closes it at the tick of the call. -/
theorem standing_of_fencing {d : Detector} {c : Call} (h : d.evaluating c = none) :
    (d.fencing c = false ∧ SameClock d (d.call c).1 ∧ (d.call c).1.standing = d.standing) ∨
      (d.fencing c = true ∧ ClosedBetween d (d.call c).1 (d.call c).2 ∧
        (d.call c).1.standing = d.standing.close c.tick .fenced) := by
  rcases (cooldown_not_evaluating h).2 with ⟨hfencing, -, hsame⟩ | ⟨hfencing, -, hclosed⟩
  · refine Or.inl ⟨hfencing, hsame, ?_⟩
    rcases standing_not_evaluating h with hstanding | ⟨hopen, hstanding⟩
    · exact hstanding
    · have hstill : (d.call c).1.hasOpenEpisode = true :=
        (congrArg Current.isOpen hsame.current).trans hopen
      rw [show (d.call c).1.hasOpenEpisode = false from congrArg Standing.isOpen hstanding] at hstill
      cases hstill
  · refine Or.inr ⟨hfencing, hclosed, ?_⟩
    rcases standing_not_evaluating h with hstanding | ⟨-, hstanding⟩
    · have hstill : (d.call c).1.hasOpenEpisode = true :=
        (congrArg Standing.isOpen hstanding).trans hclosed.wasOpen
      rw [show (d.call c).1.hasOpenEpisode = false from
        congrArg Current.isOpen hclosed.current] at hstill
      cases hstill
    · exact hstanding

theorem Ticking.not_evaluating {d : Detector} {c : Call} (h : d.Ticking)
    (he : d.evaluating c = none) : (d.call c).1.Ticking := by
  rcases standing_of_fencing he with ⟨-, hsame, hstanding⟩ | ⟨-, hclosed, hstanding⟩
  · refine ⟨?_, ?_, ?_, ?_⟩
    · rw [hsame.hasEvaluated, hsame.lastEvaluated]
      exact h.clock
    · rw [hsame.run, hsame.hasEvaluated, hsame.lastEvaluated]
      exact h.run
    · rw [show (d.call c).1.hasOpenEpisode = d.hasOpenEpisode from
        congrArg Current.isOpen hsame.current, hsame.hasEvaluated]
      exact h.evaluated
    · rw [hstanding, hsame.lastEvaluated]
      exact h.running
  · refine ⟨?_, ?_, ?_, ?_⟩
    · rw [hclosed.hasEvaluated, hclosed.lastEvaluated]
      exact h.clock
    · rw [hclosed.run]
      exact fun start hstart => by cases hstart
    · intro hstill
      rw [show (d.call c).1.hasOpenEpisode = false from congrArg Standing.isOpen hstanding] at hstill
      cases hstill
    · rw [hstanding]
      exact Standing.upTo_of_closed rfl

/-- STEP: every call below 2^63 keeps the clocks. -/
theorem Ticking.call {d : Detector} {c : Call} (h : d.Ticking) (hc : c.tick.value.toNat < 2 ^ 63) :
    (d.call c).1.Ticking := by
  cases he : d.evaluating c with
  | none => exact h.not_evaluating he
  | some e => exact h.evaluating hc he

/-! ### Runs -/

/-- The operations of a run: samples, ticks and rearms below 2^63, no rearm before the last
    evaluation. -/
def InOrder (d : Detector) : Op → Prop
  | .call (.fence _ _) => False
  | .call c => c.tick.value.toNat < 2 ^ 63
  | .rearm _ _ now => now.value.toNat < 2 ^ 63 ∧
    (d.hasEvaluated = true → d.lastEvaluated.value ≤ now.value)

instance (d : Detector) : ∀ o, Decidable (d.InOrder o)
  | .call (.ingest sample) => inferInstanceAs (Decidable (sample.tick.value.toNat < 2 ^ 63))
  | .call (.advance now) => inferInstanceAs (Decidable (now.value.toNat < 2 ^ 63))
  | .call (.fence _ _) => inferInstanceAs (Decidable False)
  | .rearm _ _ now => inferInstanceAs (Decidable (now.value.toNat < 2 ^ 63 ∧
    (d.hasEvaluated = true → d.lastEvaluated.value ≤ now.value)))

/-- The contract of an operation: a closed or fenced episode has its timeline in order, and an open
    one gets no shorter. -/
structure KeepsTimeline (d : Detector) (o : Op) : Prop where
  ordered : (d.nextOp o).episode.lifecycle = .closed ∨ (d.nextOp o).episode.lifecycle = .fenced →
    (d.nextOp o).standing.Ordered
  lasting : d.hasOpenEpisode = true →
    d.episode.metrics.durationTicks ≤ (d.nextOp o).episode.metrics.durationTicks

/-- The condition on an operation: a sample that fences an open episode for another resource
    generation is no older than the last update of the episode. -/
def FencesAfterUpdate (d : Detector) : Op → Prop
  | .call c => d.fencing c = true → d.episode.metrics.lastUpdateTick.value ≤ c.tick.value
  | .rearm _ _ _ => True

instance (d : Detector) : ∀ o, Decidable (d.FencesAfterUpdate o)
  | .call c => inferInstanceAs (Decidable (d.fencing c = true →
    d.episode.metrics.lastUpdateTick.value ≤ c.tick.value))
  | .rearm _ _ _ => inferInstanceAs (Decidable True)

/-- The invariant: the clocks of the run, and every closed episode in order. -/
structure Timely (d : Detector) : Prop extends d.Ticking where
  ordered : d.standing.OrderedIfClosed

theorem fencing_of_evaluating {d : Detector} {c : Call} {e : Detector × Tick}
    (h : d.evaluating c = some e) : d.fencing c = false := by
  obtain ⟨e, now⟩ := e
  cases evaluates_of_evaluating h with
  | ingest _ _ keeps _ =>
    rw [Bool.and_eq_false_iff] at keeps
    rw [fencing]
    rcases keeps with hkeep | hkeep <;> simp [hkeep]
  | advance _ => rfl

/-- STEP: a fresh evaluation keeps the timeline and the invariant. -/
theorem timeline_evaluating {d e : Detector} {c : Call} {now : Tick} (h : d.Timely)
    (hc : c.tick.value.toNat < 2 ^ 63) (he : d.evaluating c = some (e, now)) :
    d.KeepsTimeline (.call c) ∧ (d.nextOp (.call c)).Timely := by
  obtain ⟨honset, hupTo⟩ := h.before hc he
  have hprogress := progress_call he
  have hordered := hprogress.orderedIfClosed hupTo h.ordered honset hc
  exact ⟨⟨hordered, (hprogress.upTo hupTo honset hc).2⟩, h.toTicking.evaluating hc he, hordered⟩

/-- STEP: a call that evaluates nothing keeps the timeline exactly when it does not fence an episode
    before its last update. -/
theorem timeline_not_evaluating {d : Detector} {c : Call} (h : d.Timely)
    (hc : c.tick.value.toNat < 2 ^ 63) (he : d.evaluating c = none) :
    (d.KeepsTimeline (.call c) ↔ d.FencesAfterUpdate (.call c)) ∧
      (d.KeepsTimeline (.call c) → (d.nextOp (.call c)).Timely) := by
  have hticking := h.toTicking.not_evaluating he
  refine ⟨?_, fun hkeeps => ⟨hticking, hkeeps.ordered⟩⟩
  rcases standing_of_fencing he with ⟨hfencing, -, hstanding⟩ | ⟨hfencing, hclosed, hstanding⟩
  · refine ⟨fun _ hfences => ?_, fun _ => ⟨?_, fun _ => ?_⟩⟩
    · rw [hfencing] at hfences
      cases hfences
    · intro hlife
      rw [show (d.nextOp (.call c)).standing = d.standing from hstanding]
      exact h.ordered (congrArg Standing.lifecycle hstanding ▸ hlife)
    · exact UInt64.le_of_eq (congrArg (fun s => s.metrics.durationTicks) hstanding).symm
  · have hrunning := (h.running hclosed.wasOpen).1
    have hnow : (d.nextOp (.call c)).standing = d.standing.close c.tick .fenced := hstanding
    constructor
    · intro hkeeps _
      have hordered := hkeeps.ordered (Or.inr (congrArg Standing.lifecycle hstanding))
      rw [hnow] at hordered
      exact hordered.update
    · intro hafter
      have hle := hafter hfencing
      refine ⟨fun _ => ?_, fun _ => ?_⟩
      · rw [hnow]
        exact hrunning.close hle hc .fenced
      · have hduration : (d.nextOp (.call c)).episode.metrics.durationTicks =
            forwardGap d.episode.metrics.onsetTick c.tick :=
          congrArg (fun s => s.metrics.durationTicks) hstanding
        rw [hduration]
        exact (hrunning.duration_le hle hc).1

/-- A rearm closes an open episode at its own tick. -/
theorem standing_rearm (d : Detector) (policy : Policy) (generation : PolicyGeneration)
    (now : Tick) : (d.rearm policy generation now).1.standing =
      if d.hasOpenEpisode then d.standing.close now .fenced else d.standing := by
  rw [rearm]
  cases hopen : d.hasOpenEpisode with
  | false =>
    simp only [Bool.false_eq_true, if_false, standing, hopen]
    rfl
  | true => rfl

/-- STEP: a rearm at or after the last evaluation closes an open episode in order. -/
theorem timeline_rearm {d : Detector} (h : d.Timely) (policy : Policy)
    (generation : PolicyGeneration) {now : Tick} (hnow : now.value.toNat < 2 ^ 63)
    (hlast : d.hasEvaluated = true → d.lastEvaluated.value ≤ now.value) :
    d.KeepsTimeline (.rearm policy generation now) ∧
      (d.nextOp (.rearm policy generation now)).Timely := by
  have hr := d.rearmed_rearm policy generation now
  have hstanding := d.standing_rearm policy generation now
  have hclosed : (d.rearm policy generation now).1.hasOpenEpisode = false :=
    congrArg Current.isOpen hr.current
  have hrestarted := hr.restarted
  have hrun := hr.run
  have hnext : d.nextOp (.rearm policy generation now) = (d.rearm policy generation now).1 := rfl
  have hafter : (d.rearm policy generation now).1.standing.OrderedIfClosed ∧
      (d.hasOpenEpisode = true → d.episode.metrics.durationTicks ≤
        (d.rearm policy generation now).1.standing.metrics.durationTicks) := by
    rw [hstanding]
    cases hopen : d.hasOpenEpisode with
    | false => exact ⟨h.ordered, fun hstill => absurd hstill Bool.false_ne_true⟩
    | true =>
      obtain ⟨hrunning, hle⟩ := h.running hopen
      have hle' := UInt64.le_trans hle (hlast (h.evaluated hopen))
      exact ⟨fun _ => hrunning.close hle' hnow .fenced,
        fun _ => (hrunning.duration_le hle' hnow).1⟩
  clear hr hstanding
  refine ⟨⟨?_, ?_⟩, ?_⟩
  · rw [hnext]
    exact hafter.1
  · rw [hnext]
    exact hafter.2
  · rw [hnext]
    generalize (d.rearm policy generation now).1 = u at *
    refine ⟨⟨fun heval => ?_, fun start hstart => ?_, fun hstill => ?_,
      Standing.upTo_of_closed hclosed⟩, hafter.1⟩
    · rw [hrestarted] at heval
      cases heval
    · rw [hrun] at hstart
      cases hstart
    · rw [hclosed] at hstill
      cases hstill

/-- STEP: an operation in order keeps the timeline exactly when it fences after the last update. -/
theorem timeline_step {d : Detector} (h : d.Timely) {o : Op} (ho : d.InOrder o) :
    (d.KeepsTimeline o ↔ d.FencesAfterUpdate o) ∧ (d.KeepsTimeline o → (d.nextOp o).Timely) := by
  cases o with
  | call c =>
    have hc : c.tick.value.toNat < 2 ^ 63 := by
      cases c with
      | ingest sample => exact ho
      | advance now => exact ho
      | fence reason now => exact ho.elim
    cases he : d.evaluating c with
    | none => exact timeline_not_evaluating h hc he
    | some e =>
      obtain ⟨hkeeps, htimely⟩ := timeline_evaluating h hc he
      refine ⟨⟨fun _ hfencing => ?_, fun _ => hkeeps⟩, fun _ => htimely⟩
      rw [fencing_of_evaluating he] at hfencing
      cases hfencing
  | rearm policy generation now =>
    obtain ⟨hkeeps, htimely⟩ := timeline_rearm h policy generation ho.1 ho.2
    exact ⟨⟨fun _ => trivial, fun _ => hkeeps⟩, fun _ => htimely⟩

/-- THE TIMELINE: a run of operations in order keeps every timeline exactly when no sample of another
    resource generation fences an episode at a tick before its last update. -/
theorem timeline_run (d : Detector) (key : StreamKey) (policy : Policy)
    (generation : PolicyGeneration) (ops : List Op)
    (hin : Runs.Meets nextOp InOrder (configure d key policy generation) ops) :
    Runs.Meets nextOp KeepsTimeline (configure d key policy generation) ops ↔
      Runs.Meets nextOp FencesAfterUpdate (configure d key policy generation) ops :=
  Runs.meets_iff_of_admitted (I := Timely) (fun _ _ hs ho => timeline_step hs ho)
    ⟨d.ticking_configure key policy generation, Standing.orderedIfClosed_of_opened rfl⟩ hin

/-- A deep sample that declares a resource generation. -/
def declaredSample (tick : UInt64) (generation : UInt32) : Op :=
  .call (.ingest
    { stream := ⟨⟨1⟩, ⟨1⟩, ⟨1⟩⟩, tick := ⟨tick⟩, depth := 2048, resourceGeneration := ⟨generation⟩ })

/-- An episode fenced by a later sample of another generation, one fenced by a rearm. -/
theorem timeline_run_fenced :
    Runs.Meets nextOp KeepsTimeline
      (configure {} ⟨⟨1⟩, ⟨1⟩, ⟨1⟩⟩ OnsetLog.briskPolicy ⟨1⟩)
      [declaredSample 1 1, declaredSample 2 1, declaredSample 3 1, declaredSample 4 2,
        declaredSample 5 2, declaredSample 6 2, .rearm OnsetLog.briskPolicy ⟨2⟩ ⟨6⟩] ↔
    Runs.Meets nextOp FencesAfterUpdate
      (configure {} ⟨⟨1⟩, ⟨1⟩, ⟨1⟩⟩ OnsetLog.briskPolicy ⟨1⟩)
      [declaredSample 1 1, declaredSample 2 1, declaredSample 3 1, declaredSample 4 2,
        declaredSample 5 2, declaredSample 6 2, .rearm OnsetLog.briskPolicy ⟨2⟩ ⟨6⟩] :=
  timeline_run _ _ _ _ _ (by decide +kernel)

/-- A late sample of another generation closes the episode before its own last update. -/
theorem timeline_violated : ¬ ∀ (key : StreamKey) (policy : Policy) (generation : PolicyGeneration)
    (ops : List Op), Runs.Meets nextOp InOrder (configure {} key policy generation) ops →
      Runs.Meets nextOp KeepsTimeline (configure {} key policy generation) ops := by
  intro hall
  have h := hall ⟨⟨1⟩, ⟨1⟩, ⟨1⟩⟩ OnsetLog.briskPolicy ⟨1⟩
    [declaredSample 1 1, declaredSample 2 1, declaredSample 3 1, declaredSample 1 2]
    (by decide +kernel)
  have hordered := h.2.2.2.1.ordered (Or.inr (by decide +kernel))
  exact absurd hordered.update (by decide +kernel)

end Detector

end Mbg
