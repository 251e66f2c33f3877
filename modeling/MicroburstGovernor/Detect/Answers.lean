import MicroburstGovernor.Detect.Identity

/-! Positive answers: a decision that claims a microburst names the episode its detector has open.

    A fresh evaluation always does. A repeated tick is answered from the cache, and the cache outlives
    the episode it names when a fence closes that episode without an evaluation. -/

namespace Mbg

namespace Detector

/-- An operation on a configured detector: a call, or the installation of a new policy. -/
inductive Op where
  | call (c : Call)
  | rearm (policy : Policy) (generation : PolicyGeneration) (now : Tick)

/-- One operation: the detector after it and the decision it returned, if any. -/
def op (d : Detector) : Op → Detector × Option DetectionDecision
  | .call c => d.call c
  | .rearm policy generation now => d.rearm policy generation now

def nextOp (d : Detector) (o : Op) : Detector := (d.op o).1

/-- Every positive decision an operation returns names the episode open after it. -/
def NamesOpen (d : Detector) (o : Op) : Prop :=
  ∀ r ∈ (d.op o).2, r.classification.isPositive = true →
    (d.op o).1.hasOpenEpisode = true ∧ r.event = (d.op o).1.episode.id

instance (d : Detector) (o : Op) : Decidable (NamesOpen d o) :=
  match h : (d.op o).2 with
  | none => isTrue fun r hr => by rw [h] at hr; cases hr
  | some r => decidable_of_iff (r.classification.isPositive = true →
      (d.op o).1.hasOpenEpisode = true ∧ r.event = (d.op o).1.episode.id) (by simp [NamesOpen, h])

/-- A call that is answered with the decision of an earlier tick. -/
def repeats (d : Detector) : Call → Bool
  | .ingest sample =>
    sample.stream = d.key && (validateSample sample).isOk &&
      !(d.changesGeneration sample && d.hasOpenEpisode) && !d.freshAt sample.tick
  | .advance now => !d.freshAt now
  | .fence _ _ => false

/-- The condition on an operation: a repeated tick does not ask for the positive decision about an
    episode that was fenced since. -/
def NotRevoked (d : Detector) : Op → Prop
  | .call c => d.repeats c = true → d.lastDecision.classification.isPositive = true →
    d.hasOpenEpisode = true
  | .rearm _ _ _ => True

instance (d : Detector) (o : Op) : Decidable (NotRevoked d o) := by
  cases o <;> unfold NotRevoked <;> infer_instance

/-- The invariant: while an episode is open, a positive decision in the cache is about it. -/
def CachesOpen (d : Detector) : Prop :=
  d.hasOpenEpisode = true → d.lastDecision.classification.isPositive = true →
    d.lastDecision.event = d.episode.id

theorem cachesOpen_of_idle {d : Detector} (h : d.hasOpenEpisode = false) : CachesOpen d := by
  intro hopen
  rw [h] at hopen
  cases hopen

theorem cachesOpen_of_sameClock {d d' : Detector} (h : CachesOpen d) (hs : SameClock d d') :
    CachesOpen d' := by
  intro hopen hpositive
  have hopen' : d'.hasOpenEpisode = d.hasOpenEpisode := congrArg Current.isOpen hs.current
  have hid : d'.episode.id = d.episode.id := congrArg Current.id hs.current
  rw [hs.cached] at hpositive
  rw [hs.cached, hid]
  exact h (hopen' ▸ hopen) hpositive

/-- A fresh evaluation names what it leaves open, in its answer and in its cache. -/
theorem names_evaluateFresh (d : Detector) (now : Tick) :
    ((d.evaluateFresh now).2.classification.isPositive = true →
      (d.evaluateFresh now).1.hasOpenEpisode = true ∧
        (d.evaluateFresh now).2.event = (d.evaluateFresh now).1.episode.id) ∧
    CachesOpen (d.evaluateFresh now).1 := by
  have h := d.evaluated_evaluateFresh now
  have hann := h.announces
  have hcached := h.cached
  clear h
  generalize d.evaluateFresh now = u at *
  refine ⟨fun hpositive => hann.event_of_positive hpositive, ?_⟩
  intro _ hpositive
  rw [hcached] at hpositive ⊢
  exact (hann.event_of_positive hpositive).2

/-- What a call that repeats an earlier decision does: it returns it and keeps the episode. -/
theorem call_of_repeats {d : Detector} {c : Call} (h : d.repeats c = true) :
    SameClock d (d.call c).1 ∧ (d.call c).2 = some d.lastDecision := by
  cases c with
  | ingest sample =>
    simp only [repeats, Bool.and_eq_true, decide_eq_true_eq, Bool.not_eq_true'] at h
    obtain ⟨⟨⟨hkey, hvalid⟩, hkeep⟩, hstale⟩ := h
    have hvalid' : validateSample sample = .ok () := Status.eq_ok_of_isOk hvalid
    have hs := d.sameClock_offerSample sample
    have hstale' : (d.offerSample sample).freshAt sample.tick = false := by
      rw [freshAt, hs.hasEvaluated, hs.lastEvaluated]
      exact hstale
    have hcall : d.call (.ingest sample) =
        (d.offerSample sample, some (d.offerSample sample).lastDecision) := by
      rw [call, ingest_eq hkey hvalid', if_neg (by simp [hkeep]), evaluate_cached hstale']
    rw [hcall]
    exact ⟨hs, congrArg some hs.cached⟩
  | advance now =>
    simp only [repeats, Bool.not_eq_true'] at h
    simp only [call, advance, evaluate_cached h, and_true]
    exact ⟨rfl, rfl, rfl, rfl, rfl⟩
  | fence reason now => cases h

/-- An evaluation is not a repetition. -/
theorem repeats_of_evaluating {d : Detector} {c : Call} {e : Detector × Tick}
    (h : d.evaluating c = some e) : d.repeats c = false := by
  obtain ⟨e, now⟩ := e
  cases evaluates_of_evaluating h with
  | @ingest sample _ _ _ fresh =>
    have hs := d.sameClock_offerSample sample
    have hfresh : d.freshAt sample.tick = true := by
      rw [freshAt, ← hs.hasEvaluated, ← hs.lastEvaluated]
      exact fresh
    simp [repeats, hfresh]
  | advance fresh => simp [repeats, fresh]

/-- What a rearm says of the episode it fences is not positive. -/
theorem classification_rearm {d : Detector} {policy : Policy} {generation : PolicyGeneration}
    {now : Tick} {r : DetectionDecision} (h : r ∈ (d.rearm policy generation now).2) :
    r.classification = .fenced := by
  rw [rearm] at h
  cases hopen : d.hasOpenEpisode with
  | false => simp [hopen] at h
  | true =>
    have hf := (d.fenced_fenceDecision CloseReason.policyChanged now).classification
    simp only [hopen, if_true, Option.mem_some_iff] at h
    rw [← h, hf]

/-- A call that neither evaluates nor repeats answers nothing positive and keeps the cache sound. -/
theorem call_of_not_repeats {d : Detector} {c : Call} (he : d.evaluating c = none)
    (h : d.repeats c = false) : ∀ r ∈ (d.call c).2, r.classification.isPositive = false := by
  cases c with
  | ingest sample =>
    intro r hr
    cases hres : d.ingest sample with
    | error failure => simp [call, hres] at hr
    | ok result =>
      obtain ⟨hkey, hvalid⟩ := ingest_ok hres
      simp only [call, hres, Option.mem_some_iff] at hr
      rw [ingest_eq hkey hvalid, Except.ok.injEq] at hres
      rw [← hr, ← hres]
      by_cases hfence : (d.changesGeneration sample && d.hasOpenEpisode) = true
      · rw [if_pos hfence]
        exact congrArg Classification.isPositive
          (d.fenced_fenceDecision CloseReason.capacityChanged sample.tick).classification
      · -- an offered sample is evaluated or repeats the last decision
        have hs := d.sameClock_offerSample sample
        simp only [evaluating, hkey, hvalid, hfence, freshAt, hs.hasEvaluated, hs.lastEvaluated,
          true_and, Bool.not_false, ite_eq_right_iff, reduceCtorEq, imp_false] at he
        simp only [repeats, hkey, hvalid, Except.isOk, Except.toBool, hfence, freshAt] at h
        simp_all
  | advance now =>
    simp only [repeats, Bool.not_eq_false'] at h
    simp [evaluating, h] at he
  | fence reason now =>
    intro r hr
    cases hopen : d.hasOpenEpisode with
    | false => simp [call, fence, hopen] at hr
    | true =>
      have hf := (d.fenced_fenceDecision reason now).classification
      simp only [call, fence, hopen, Bool.not_true, Bool.false_eq_true, if_false,
        Option.mem_some_iff] at hr
      rw [← hr, show ({ (d.fenceDecision reason now).2 with
        evidence := d.lastDecision.evidence } : DetectionDecision).classification =
          (d.fenceDecision reason now).2.classification from rfl, hf]
      rfl

/-- STEP: an operation names the open episode exactly when it does not ask for a revoked decision. -/
theorem namesOpen_iff {d : Detector} {o : Op} (h : CachesOpen d) :
    (NamesOpen d o ↔ NotRevoked d o) ∧ CachesOpen (nextOp d o) := by
  cases o with
  | call c =>
    cases he : d.evaluating c with
    | some e =>
      obtain ⟨hnames, hcaches⟩ := e.1.names_evaluateFresh e.2
      have hcall := call_evaluating he
      have hop : d.op (.call c) = ((e.1.evaluateFresh e.2).1, some (e.1.evaluateFresh e.2).2) := hcall
      refine ⟨⟨fun _ hrep => ?_, fun _ => ?_⟩, by rw [nextOp, hop]; exact hcaches⟩
      · rw [repeats_of_evaluating he] at hrep
        cases hrep
      · rw [NamesOpen, hop]
        intro r hr hpositive
        obtain rfl := Option.some.inj hr
        exact hnames hpositive
    | none =>
      cases hrep : d.repeats c with
      | true =>
        obtain ⟨hs, hr⟩ := call_of_repeats hrep
        have hopen : (d.call c).1.hasOpenEpisode = d.hasOpenEpisode :=
          congrArg Current.isOpen hs.current
        have hid : (d.call c).1.episode.id = d.episode.id := congrArg Current.id hs.current
        refine ⟨⟨fun hnames _ hpositive => ?_, fun hkept r hmem hpositive => ?_⟩,
          cachesOpen_of_sameClock h hs⟩
        · rw [← hopen]
          exact (hnames _ hr hpositive).1
        · obtain rfl : d.lastDecision = r := Option.some.inj (hr.symm.trans hmem)
          have hd := hkept hrep hpositive
          exact ⟨hopen.trans hd, (h hd hpositive).trans hid.symm⟩
      | false =>
        have hneg := call_of_not_repeats he hrep
        refine ⟨⟨fun _ hr => absurd (hrep.symm.trans hr) Bool.false_ne_true,
          fun _ r hr hpositive => ?_⟩, ?_⟩
        · exact absurd ((hneg r hr).symm.trans hpositive) Bool.false_ne_true
        · rcases call_not_evaluating he with ⟨hs, -⟩ | hclosed
          · exact cachesOpen_of_sameClock h hs
          · exact cachesOpen_of_idle (congrArg Current.isOpen hclosed.current)
  | rearm policy generation now =>
    have hr := d.rearmed_rearm policy generation now
    refine ⟨iff_of_true ?_ trivial, cachesOpen_of_idle (congrArg Current.isOpen hr.current)⟩
    intro r hmem hpositive
    rw [classification_rearm hmem] at hpositive
    cases hpositive

/-- ANSWERS NAME THE OPEN EPISODE: in every run of operations, exactly while no repeated tick asks
    for the positive decision about an episode fenced since. -/
theorem namesOpen_run (d : Detector) (key : StreamKey) (policy : Policy)
    (generation : PolicyGeneration) (ops : List Op) :
    Runs.Meets nextOp NamesOpen (configure d key policy generation) ops ↔
      Runs.Meets nextOp NotRevoked (configure d key policy generation) ops :=
  Runs.meets_iff_of_invariant (I := CachesOpen) (fun _ _ => namesOpen_iff)
    (cachesOpen_of_idle rfl)

/-- A microburst opened at tick 3 and fenced there is claimed once more at tick 3. -/
theorem namesOpen_fenced : ¬ ∀ key policy generation ops, PolicySet.validate policy = .ok () →
    Runs.Meets nextOp NamesOpen (configure {} key policy generation) ops := by
  intro h
  have hrun := h ⟨⟨1⟩, ⟨1⟩, ⟨1⟩⟩ OnsetLog.briskPolicy ⟨1⟩
    [.call (OnsetLog.briskSample 1), .call (OnsetLog.briskSample 2), .call (OnsetLog.briskSample 3),
      .call (.fence CloseReason.authorityLost ⟨3⟩), .call (.advance ⟨3⟩)] (by decide +kernel)
  exact absurd hrun (by decide +kernel)

end Detector

end Mbg
