import MicroburstGovernor.Detect.Answers
import MicroburstGovernor.Detect.Retained

/-! Resource generations in the window of one detector: whatever the order in which samples of old, new
    and unspecified generations arrive, a window holds declared samples of one generation only.

    A sample of another generation empties the window before it is offered, or is dropped with the
    episode it fences. The first declared generation empties nothing: the samples before it declare
    none. -/

namespace Mbg

namespace Detector

/-- Every sample the window derives its metrics from that declares a generation declares the
    detector's, so that no two of them tell of a reconfiguration between them. -/
structure WithinGeneration (d : Detector) : Prop where
  current : ∀ s ∈ d.window.retained, s.resourceGeneration.valid = true →
    s.resourceGeneration = d.resourceGeneration
  single : ∀ s ∈ d.window.retained, ∀ t ∈ d.window.retained,
    identityChanged s.resourceGeneration t.resourceGeneration = false

/-- The invariant: the window's tracker follows it, and what it retains declares the detector's
    generation or none. -/
structure Unmixed (d : Detector) : Prop where
  tracked : d.window.Tracked
  current : ∀ s ∈ d.window.retained, s.resourceGeneration.valid = true →
    s.resourceGeneration = d.resourceGeneration

theorem Unmixed.withinGeneration {d : Detector} (h : Unmixed d) : WithinGeneration d := by
  refine ⟨h.current, ?_⟩
  intro s hs t ht
  by_contra hchanged
  simp only [identityChanged, Bool.not_eq_false, Bool.and_eq_true, decide_eq_true_eq] at hchanged
  obtain ⟨⟨hsv, htv⟩, hne⟩ := hchanged
  exact hne ((h.current s hs hsv).trans (h.current t ht htv).symm)

theorem retained_resetWindow (policy : Policy) : (resetWindow policy).retained = [] :=
  EvidenceWindow.retained_of_empty rfl

/-- An emptied window mixes nothing, whatever its generation. -/
theorem unmixed_of_reset {d : Detector} (policy : Policy) (h : d.window = resetWindow policy) :
    Unmixed d := by
  refine ⟨?_, ?_⟩
  · rw [h]
    exact EvidenceWindow.tracked_reset _
  · intro s hs
    rw [h, retained_resetWindow] at hs
    cases hs

/-- Only the window and the generation of a detector matter. -/
theorem Unmixed.congr {d d' : Detector} (h : Unmixed d) (hwindow : d'.window = d.window)
    (hgeneration : d'.resourceGeneration = d.resourceGeneration) : Unmixed d' := by
  refine ⟨hwindow ▸ h.tracked, ?_⟩
  rw [hwindow, hgeneration]
  exact h.current

theorem Unmixed.evaluateFresh {d : Detector} (h : Unmixed d) (now : Tick) :
    Unmixed (d.evaluateFresh now).1 := by
  have hset := (d.evaluated_evaluateFresh now).setup
  exact h.congr (congrArg Setup.window hset) (congrArg Setup.resourceGeneration hset)

theorem Unmixed.evaluate {d : Detector} (h : Unmixed d) (now : Tick) :
    Unmixed (d.evaluate now).1 := by
  cases hfresh : d.freshAt now with
  | true => rw [evaluate_fresh hfresh]; exact h.evaluateFresh now
  | false => rw [evaluate_cached hfresh]; exact h

theorem Unmixed.fenceDecision {d : Detector} (h : Unmixed d) (reason : CloseReason) (now : Tick) :
    Unmixed (d.fenceDecision reason now).1 := by
  have hset := (d.fenced_fenceDecision reason now).setup
  exact h.congr (congrArg Setup.window hset) (congrArg Setup.resourceGeneration hset)

/-- OFFER: a window that mixes no generations is offered a sample of its generation, or is emptied
    first. -/
theorem Unmixed.offerSample {d : Detector} (h : Unmixed d) (sample : Sample) :
    Unmixed (d.offerSample sample) := by
  unfold Detector.offerSample
  extract_lets d₁
  have hd₁ : Unmixed d₁ ∧
      (sample.resourceGeneration.valid = true →
        sample.resourceGeneration = d₁.resourceGeneration) := by
    dsimp only [d₁]
    split_ifs with hchanges hvalid
    · exact ⟨unmixed_of_reset d.policy rfl, fun _ => rfl⟩
    · refine ⟨⟨h.tracked, ?_⟩, fun _ => rfl⟩
      -- the generation is the one in force, or the window holds no declared sample yet
      intro s hs hsv
      have hsame := h.current s hs hsv
      by_contra hne
      apply hchanges
      rw [changesGeneration, identityChanged, hvalid, ← hsame, hsv]
      simpa using Ne.symm hne
    · exact ⟨h, fun hv => absurd hv hvalid⟩
  clear_value d₁
  obtain ⟨⟨htracked, hcurrent⟩, hsample⟩ := hd₁
  refine ⟨(EvidenceWindow.offer_offered htracked sample _).tracked, ?_⟩
  intro s hs hsv
  rcases EvidenceWindow.mem_retained_offer htracked hs with hold | ⟨rfl, -⟩
  · exact hcurrent s hold hsv
  · exact hsample hsv

theorem Unmixed.call {d : Detector} (h : Unmixed d) (c : Call) : Unmixed (d.call c).1 := by
  cases c with
  | ingest sample =>
    simp only [Detector.call]
    cases hres : d.ingest sample with
    | error failure => exact h
    | ok result =>
      obtain ⟨hkey, hvalid⟩ := ingest_ok hres
      rw [ingest_eq hkey hvalid] at hres
      obtain rfl := Except.ok.inj hres
      split_ifs with hfence
      · exact unmixed_of_reset d.policy rfl
      · exact (h.offerSample sample).evaluate sample.tick
  | advance now => exact h.evaluate now
  | fence reason now =>
    simp only [Detector.call, fence]
    cases d.hasOpenEpisode with
    | false => exact h
    | true => exact h.fenceDecision reason now

/-- STEP: no operation mixes generations. -/
theorem Unmixed.nextOp {d : Detector} (h : Unmixed d) (o : Op) : Unmixed (d.nextOp o) := by
  cases o with
  | call c => exact h.call c
  | rearm policy generation now => exact unmixed_of_reset policy rfl

/-- The detector an operation evaluates is as unmixed as the one it is called on. -/
theorem Unmixed.of_evaluating {d e : Detector} (h : Unmixed d) {c : Call} {now : Tick}
    (he : d.evaluating c = some (e, now)) : Unmixed e := by
  cases evaluates_of_evaluating he with
  | ingest _ _ _ _ => exact h.offerSample _
  | advance _ => exact h

/-- NO DERIVATIVE MIXES GENERATIONS: after every run of operations the window retains declared
    samples of the detector's generation only, and so does the window of every evaluation a further
    call makes. -/
theorem withinGeneration_run (d : Detector) (key : StreamKey) (policy : Policy)
    (generation : PolicyGeneration) (ops : List Op) :
    WithinGeneration (Runs.run nextOp (configure d key policy generation) ops) ∧
      ∀ c e now, (Runs.run nextOp (configure d key policy generation) ops).evaluating c =
        some (e, now) → WithinGeneration e := by
  have hall : Runs.Meets nextOp (fun _ _ => True) (configure d key policy generation) ops :=
    Runs.meets_of_forall_mem fun _ _ => trivial
  have h : Unmixed (Runs.run nextOp (configure d key policy generation) ops) :=
    Runs.run_invariant (fun s o hs _ => hs.nextOp o) (unmixed_of_reset policy rfl) hall
  exact ⟨h.withinGeneration, fun c e now he => (h.of_evaluating he).withinGeneration⟩

end Detector

end Mbg
