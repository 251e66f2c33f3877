import MicroburstGovernor.Detect.Evaluation
import MicroburstGovernor.Lib.Runs
import Mathlib.Data.List.Chain

/-! The evidence a positive decision was made on, over runs of one detector. -/

namespace Mbg

/-! ### Evidence rules, on the samples of the window -/

/-- No two adjacent retained samples lie further apart than this. -/
def EvidenceWindow.GapsWithin (w : EvidenceWindow) (maximum : UInt64) : Prop :=
  w.retained.IsChain fun a b => forwardGap a.tick b.tick ≤ maximum

instance (w : EvidenceWindow) (maximum : UInt64) : Decidable (w.GapsWithin maximum) :=
  inferInstanceAs (Decidable (List.IsChain _ _))

/-- No capacity change was declared, and the capacities the retained samples know agree. -/
def EvidenceWindow.CapacityStable (w : EvidenceWindow) : Prop :=
  w.capacityChanges = 0 ∧ ∀ s ∈ w.retained, ∀ t ∈ w.retained, s.capacityBytes ≠ 0 →
    t.capacityBytes ≠ 0 → s.capacityBytes = t.capacityBytes

/-- The rules no evidence may break, degraded or not. -/
structure AdmissibleEvidence (w : EvidenceWindow) (dp : DetectionPolicy) (now : Tick) : Prop where
  nonempty : w.retained ≠ []
  fresh : forwardGap w.newest.tick now ≤ dp.stalenessLimitTicks
  gaps : w.GapsWithin dp.maxSampleGapTicks
  stable : dp.allowCapacityChangeWithinWindow ∨ w.CapacityStable

/-- The floors that only authoritative evidence has to meet. -/
structure MeetsFloors (w : EvidenceWindow) (dp : DetectionPolicy) : Prop where
  samples : dp.minSamplesForClassification.toNat ≤ w.retained.length
  completeness : dp.minCompletenessPermille ≤ (w.metrics dp).completenessPermille

/-- What a positive classification says about its evidence. -/
structure PositiveLaw (w : EvidenceWindow) (dp : DetectionPolicy) (now : Tick)
    (decision : DetectionDecision) : Prop where
  evidence : decision.classification = .microburst ∨
    decision.classification = .degradedMicroburst → AdmissibleEvidence w dp now
  microburst : decision.classification = .microburst →
    MeetsFloors w dp ∧ decision.authority = .authoritative
  degraded : decision.classification = .degradedMicroburst →
    dp.allowDegradedClassification ∧ decision.authority = .degraded ∧
      decision.severity.raw ≤ dp.degradedSeverityCap.raw

/-! ### What the metrics measure -/

namespace EvidenceWindow

theorem uint64_max_le {a b m : UInt64} : max a b ≤ m ↔ a ≤ m ∧ b ≤ m := by
  rw [UInt64.le_iff_toNat_le, UInt64.le_iff_toNat_le, UInt64.le_iff_toNat_le]
  rw [show max a b = if a ≤ b then b else a from rfl]
  split
  · rename_i h; rw [UInt64.le_iff_toNat_le] at h; omega
  · rename_i h; rw [UInt64.le_iff_toNat_le] at h; omega

theorem maxGap_le_iff {maximum : UInt64} : ∀ {samples : List Sample}, maxGap samples ≤ maximum ↔
    samples.IsChain fun a b => forwardGap a.tick b.tick ≤ maximum
  | [] => by simp [maxGap, UInt64.le_iff_toNat_le]
  | [a] => by simp [maxGap, UInt64.le_iff_toNat_le]
  | a :: b :: rest => by
    rw [List.isChain_cons_cons, ← maxGap_le_iff, maxGap, forwardGap]
    by_cases h : tickDelta a.tick b.tick > 0
    · simp only [h, if_true, Int64.not_le.mpr h, if_false, uint64_max_le]
    · have hle : tickDelta a.tick b.tick ≤ 0 := Int64.not_lt.mp h
      simp [h, hle, UInt64.le_iff_toNat_le]

theorem variantStep_count (seen : UInt64 × ℕ) (s : Sample) : (variantStep seen s).2 =
    seen.2 + if s.capacityBytes ≠ 0 ∧ seen.1 ≠ 0 ∧ s.capacityBytes ≠ seen.1 then 1 else 0 := by
  rw [variantStep]
  split_ifs <;> simp_all

/-- No sample counts as a variant exactly when the known capacities agree with the one seen. -/
theorem foldl_variantStep_eq_zero : ∀ {samples : List Sample} (seen : UInt64 × ℕ),
    (samples.foldl variantStep seen).2 = 0 → seen.2 = 0 ∧ (∀ s ∈ samples, ∀ t ∈ samples,
      s.capacityBytes ≠ 0 → t.capacityBytes ≠ 0 → s.capacityBytes = t.capacityBytes) ∧
      (seen.1 ≠ 0 → ∀ s ∈ samples, s.capacityBytes ≠ 0 → s.capacityBytes = seen.1)
  | [], seen, h => ⟨h, by simp, by simp⟩
  | a :: samples, seen, h => by
    rw [List.foldl_cons] at h
    obtain ⟨hzero, hagree, hseen⟩ := foldl_variantStep_eq_zero _ h
    rw [variantStep_count] at hzero
    by_cases ha : a.capacityBytes = 0
    · have hstep : variantStep seen a = seen := by rw [variantStep, if_pos ha]
      rw [hstep] at hseen
      refine ⟨by omega, ?_, ?_⟩
      · intro s hs t ht hs0 ht0
        have hs' := (List.mem_cons.mp hs).resolve_left (fun h => hs0 (h ▸ ha))
        have ht' := (List.mem_cons.mp ht).resolve_left (fun h => ht0 (h ▸ ha))
        exact hagree s hs' t ht' hs0 ht0
      · intro h0 s hs hs0
        exact hseen h0 s ((List.mem_cons.mp hs).resolve_left (fun h => hs0 (h ▸ ha))) hs0
    · -- the capacity in force after `a` is that of `a`
      have hfirst : (variantStep seen a).1 = a.capacityBytes := by
        by_cases h0 : seen.1 = 0
        · rw [variantStep, if_neg ha, if_pos h0]
        · have heq : a.capacityBytes = seen.1 := by
            by_contra hne
            rw [if_pos ⟨ha, h0, hne⟩] at hzero
            omega
          rw [variantStep, if_neg ha, if_neg h0, if_neg (by simp [heq]), heq]
      rw [hfirst] at hseen
      have hall : ∀ s ∈ a :: samples, s.capacityBytes ≠ 0 → s.capacityBytes = a.capacityBytes := by
        intro s hs hs0
        rcases List.mem_cons.mp hs with rfl | hs
        · rfl
        · exact hseen ha s hs hs0
      refine ⟨by omega, fun s hs t ht hs0 ht0 => (hall s hs hs0).trans (hall t ht ht0).symm, ?_⟩
      intro h0 s hs hs0
      have heq : a.capacityBytes = seen.1 := by
        by_contra hne
        rw [if_pos ⟨ha, h0, hne⟩] at hzero
        omega
      exact (hall s hs hs0).trans heq

theorem metrics_of_pos {w : EvidenceWindow} (dp : DetectionPolicy) (h : w.size ≠ 0) :
    (w.metrics dp).samples = w.size.toUInt64 ∧ (w.metrics dp).maxGapTicks = maxGap w.retained ∧
      (w.metrics dp).capacityChanged =
        ((capacityVariants w.retained).2 > 0 || w.capacityChanges > 0) := by
  rw [metrics, if_neg h]
  exact ⟨rfl, rfl, rfl⟩

@[simp] theorem length_retained (w : EvidenceWindow) : w.retained.length = w.size := by
  rw [retained, List.length_map, List.length_range]

theorem capacityStable_of_not_changed {w : EvidenceWindow} {dp : DetectionPolicy}
    (h : w.size ≠ 0) (hc : (w.metrics dp).capacityChanged = false) : w.CapacityStable := by
  rw [(metrics_of_pos dp h).2.2, Bool.or_eq_false_iff] at hc
  obtain ⟨hvariants, hchanges⟩ := hc
  refine ⟨?_, (foldl_variantStep_eq_zero (0, 0) ?_).2.1⟩
  · have := of_decide_eq_false hchanges
    rw [gt_iff_lt, UInt64.lt_iff_toNat_lt, UInt64.toNat_zero] at this
    exact UInt64.toNat_inj.mp (by rw [UInt64.toNat_zero]; omega)
  · have := of_decide_eq_false hvariants
    rw [capacityVariants] at this
    omega

end EvidenceWindow

/-! ### Positive decisions -/

namespace Detector

theorem admissibleEvidence_of {d : Detector} {now : Tick}
    (ha : (d.admissibilityAt now).admissible = true)
    (hg : (d.admissibilityAt now).degradedAllowed = true →
      d.window.GapsWithin d.policy.detection.maxSampleGapTicks) :
    AdmissibleEvidence d.window d.policy.detection now := by
  -- both ways of admitting evidence test these three
  have hboth : (d.admissibilityAt now).hasSamples = true ∧ (d.admissibilityAt now).fresh = true ∧
      (d.admissibilityAt now).stable = true := by
    simp only [Admissibility.admissible, Admissibility.authoritative,
      Admissibility.degradedAllowed, Bool.or_eq_true, Bool.and_eq_true] at ha
    tauto
  obtain ⟨hsamples, hfresh, hstable⟩ := hboth
  have hsize : d.window.size ≠ 0 := by
    intro h0
    simp only [admissibilityAt, admissibility, EvidenceWindow.metrics, h0, if_true] at hsamples
    exact absurd hsamples (by decide)
  refine ⟨?_, ?_, ?_, ?_⟩
  · intro h
    have := congrArg List.length h
    rw [EvidenceWindow.length_retained] at this
    exact hsize this
  · simp only [admissibilityAt, admissibility, EvidenceWindow.stalenessTicks, hsize,
      if_false, Bool.and_eq_true, decide_eq_true_eq] at hfresh
    exact hfresh.2
  · cases hd : (d.admissibilityAt now).degradedAllowed with
    | true => exact hg hd
    | false =>
      rw [Admissibility.admissible, hd, Bool.or_false] at ha
      simp only [Admissibility.authoritative, Bool.and_eq_true] at ha
      have hgaps := of_decide_eq_true ha.1.2
      rw [(EvidenceWindow.metrics_of_pos _ hsize).2.1] at hgaps
      exact EvidenceWindow.maxGap_le_iff.mp hgaps
  · simp only [admissibilityAt, admissibility, Bool.or_eq_true] at hstable
    refine hstable.imp id fun h => ?_
    exact EvidenceWindow.capacityStable_of_not_changed hsize (by simpa using h)

theorem meetsFloors_of {d : Detector} {now : Tick}
    (ha : (d.admissibilityAt now).authoritative = true) :
    MeetsFloors d.window d.policy.detection := by
  simp only [Admissibility.authoritative, Bool.and_eq_true] at ha
  obtain ⟨⟨⟨⟨⟨hsamples, henough⟩, hcomplete⟩, -⟩, -⟩, -⟩ := ha
  have hsize : d.window.size ≠ 0 := by
    intro h0
    simp only [admissibilityAt, admissibility, EvidenceWindow.metrics, h0, if_true] at hsamples
    exact absurd hsamples (by decide)
  refine ⟨?_, of_decide_eq_true hcomplete⟩
  have henough := of_decide_eq_true henough
  rw [(EvidenceWindow.metrics_of_pos _ hsize).1, ge_iff_le, UInt64.le_iff_toNat_le, Nat.toUInt64,
    UInt64.toNat_ofNat'] at henough
  rw [EvidenceWindow.length_retained]
  exact Nat.le_trans henough (Nat.mod_le _ _)

/-- A fresh evaluation is positive on admissible evidence, unless the degraded path let a gap
    through. -/
theorem positiveLaw_evaluateFresh {d : Detector} {now : Tick}
    (hg : (d.admissibilityAt now).degradedAllowed = true →
      d.window.GapsWithin d.policy.detection.maxSampleGapTicks) :
    PositiveLaw d.window d.policy.detection now (d.evaluateFresh now).2 := by
  have h := d.evaluated_evaluateFresh now
  have hpos : (d.evaluateFresh now).2.classification.isPositive = true →
      (d.admissibilityAt now).admissible = true := h.admissible
  refine ⟨fun hc => ?_, fun hc => ?_, fun hc => ?_⟩
  · refine admissibleEvidence_of (hpos ?_) hg
    rcases hc with hc | hc <;> rw [hc] <;> rfl
  · obtain ⟨hnot, hauth⟩ := h.claims.microburst hc
    have ha := hpos (by rw [hc]; rfl)
    rw [Admissibility.admissible, hnot, Bool.or_false] at ha
    exact ⟨meetsFloors_of ha, hauth⟩
  · obtain ⟨hdegraded, hauth, hsev⟩ := h.claims.degraded hc
    simp only [Admissibility.degradedAllowed, admissibilityAt, admissibility, Bool.and_eq_true]
      at hdegraded
    exact ⟨hdegraded.1.1.1.2.1.1, hauth, hsev⟩

/-- What a call decides afresh obeys the law of positive decisions. -/
def LawfulCall (d : Detector) (c : Call) : Prop :=
  ∀ e now, d.evaluating c = some (e, now) → ∃ r, (d.call c).2 = some r ∧
    PositiveLaw e.window e.policy.detection now r

/-- The condition on a call: where it evaluates afresh on the degraded path, no gap of the window
    exceeds the policy's bound. -/
def GapsRespected (d : Detector) (c : Call) : Prop :=
  ∀ e now, d.evaluating c = some (e, now) → (e.admissibilityAt now).degradedAllowed = true →
    e.window.GapsWithin e.policy.detection.maxSampleGapTicks

instance (d : Detector) (c : Call) : Decidable (GapsRespected d c) :=
  match h : d.evaluating c with
  | none => isTrue fun e now he => by rw [h] at he; cases he
  | some (e, now) => decidable_of_iff ((e.admissibilityAt now).degradedAllowed = true →
      e.window.GapsWithin e.policy.detection.maxSampleGapTicks) ⟨fun hg e' now' he => by
        rw [h] at he; cases he; exact hg, fun hg => hg e now h⟩

theorem lawfulCall_of_gapsRespected {d : Detector} {c : Call} (h : GapsRespected d c) :
    LawfulCall d c := by
  intro e now he
  exact ⟨_, congrArg Prod.snd (call_evaluating he), positiveLaw_evaluateFresh (h e now he)⟩

def next (d : Detector) (c : Call) : Detector := (d.call c).1

/-- POSITIVE ON ADMISSIBLE EVIDENCE: in a run whose degraded evaluations respect the gap bound,
    every call obeys the law. -/
theorem lawful_run (key : StreamKey) (policy : Policy) (generation : PolicyGeneration)
    (calls : List Call) (h : Runs.Meets next GapsRespected
      (configure {} key policy generation) calls) :
    Runs.Meets next LawfulCall (configure {} key policy generation) calls :=
  Runs.meets_mono (fun _ _ => lawfulCall_of_gapsRespected) h

/-- A policy that allows degraded classification and no gap above one tick. -/
def gapPolicy : Policy where
  detection :=
    { windowCapacity := 4, maxSampleGapTicks := 1, minSamplesForClassification := 2
      onsetMinSlopeQ16 := 0, releaseSlopeQ16 := 0, onsetSustainTicks := 1
      allowDegradedClassification := true, degradedMinCompletenessPermille := 0 }

def gapKey : StreamKey := ⟨⟨1⟩, ⟨1⟩, ⟨1⟩⟩

/-- A deep queue, observed at a tick. -/
def deepSample (tick : UInt64) : Call := .ingest { stream := gapKey, tick := ⟨tick⟩, depth := 2048 }

theorem lawful_run_steady : Runs.Meets next LawfulCall (configure {} gapKey gapPolicy ⟨1⟩)
    [deepSample 1, deepSample 2, deepSample 3, .advance ⟨9⟩] :=
  lawful_run gapKey gapPolicy ⟨1⟩ _ (by decide +kernel)

/-- Ticks 1, 10 and 11: the third evaluation is positive across a gap of nine ticks. -/
theorem gap_classified : ¬ ∀ key policy generation calls, PolicySet.validate policy = .ok () →
    Runs.Meets next LawfulCall (configure {} key policy generation) calls := by
  intro h
  obtain ⟨-, -, hlaw, -⟩ := h gapKey gapPolicy ⟨1⟩ [deepSample 1, deepSample 10, deepSample 11]
    (by decide +kernel)
  generalize hd : next (next _ (deepSample 1)) (deepSample 10) = d at hlaw
  cases he : d.evaluating (deepSample 11) with
  | none => rw [← hd] at he; exact absurd he (by decide +kernel)
  | some e =>
    obtain ⟨r, hr, law⟩ := hlaw e.1 e.2 he
    have hclass : (d.call (deepSample 11)).2.map DetectionDecision.classification =
        some .degradedMicroburst := by rw [← hd]; decide +kernel
    rw [hr, Option.map_some, Option.some.injEq] at hclass
    have hgaps := (law.evidence (Or.inr hclass)).gaps
    have hbad : (d.evaluating (deepSample 11)).all (fun e =>
        !decide (e.1.window.GapsWithin e.1.policy.detection.maxSampleGapTicks)) = true := by
      rw [← hd]; decide +kernel
    rw [he, Option.all_some, decide_eq_true hgaps] at hbad
    cases hbad

end Detector

end Mbg
