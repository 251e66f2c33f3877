import MicroburstGovernor.Core.Hashing
import MicroburstGovernor.Model.Explanation
import MicroburstGovernor.Model.Policy

/-! What a digest covers: each digested text lists its content without loss, and no change of one field
    of it leaves the digest as it is.

        policy        the fields in document order
        policy set    generation, fallback digest, then resource and digest of each override
        explanation   size, then code, operands and tick of each reason, then the truncation mark -/

namespace Mbg

open Mixing

/-! ### Policies -/

namespace Policy

theorem flag_inj {a b : Bool} : flag a = flag b ↔ a = b := by
  cases a <;> cases b <;> simp [flag]

theorem toUInt64_inj_of_rate {a b : RateQ16} : a.toUInt64 = b.toUInt64 ↔ a = b :=
  ⟨fun h => Int64.toBitVec_inj.mp (congrArg UInt64.toBitVec h), fun h => by rw [h]⟩

/-- The fields that the digest of a policy folds. -/
def digested (p : Policy) : List UInt64 :=
  let d := p.detection
  let ip := p.intervention
  [p.id.raw, d.windowCapacity, d.nominalSampleIntervalTicks, d.maxSampleGapTicks,
    d.minSamplesForClassification, d.minCompletenessPermille.toUInt64, d.stalenessLimitTicks,
    d.reorderToleranceTicks, d.onsetMinDepth, d.onsetMinSlopeQ16.toUInt64, d.onsetSustainTicks,
    d.onsetSlopeWindowTicks, d.releaseDepth, d.releaseSlopeQ16.toUInt64, d.releaseSustainTicks] ++
  d.occupancyPermilleLadder.thresholds ++ d.depthLadder.thresholds ++ d.slopeLadder.thresholds ++
  d.durationLadder.thresholds ++ d.dropLadder.thresholds ++
  [d.onsetMergeTicks, d.cooldownTicks, d.maxEpisodeTicks, d.evidenceGraceTicks,
    flag d.allowDegradedClassification, d.degradedMinCompletenessPermille.toUInt64,
    d.degradedSeverityCap.raw.toUInt64, flag d.allowCapacityChangeWithinWindow] ++
  (InterventionKind.all.flatMap fun kind =>
    let limit := ip.kinds kind
    [flag limit.enabled, limit.magnitudePermille.toUInt64, limit.ttlTicks,
      limit.minSeverity.raw.toUInt64]) ++
  [ip.maxConcurrentPerStream.toUInt64, ip.maxConcurrentTotal.toUInt64,
    flag ip.requireAuthoritativeEvidence]

theorem digest_eq (p : Policy) : p.digest = hashFields 0x5143F00D1234ABCD p.digested := rfl

/-- The list of the fields says everything that the policy says. -/
theorem digested_injective : Function.Injective digested := by
  intro p q h
  simp only [digested, GradeLadder.thresholds, InterventionKind.all, InterventionPolicy.kinds,
    List.flatMap_cons, List.flatMap_nil, List.cons_append, List.nil_append, List.append_nil,
    List.cons.injEq, and_true, UInt32.toUInt64_inj, UInt8.toUInt64_inj, flag_inj,
    toUInt64_inj_of_rate] at h
  simp only [Policy.ext_iff, DetectionPolicy.ext_iff, InterventionPolicy.ext_iff,
    InterventionKindLimit.ext_iff, GradeLadder.ext_iff, SeverityClass.ext_iff, StrongId.ext_iff,
    and_assoc]
  exact h

end Policy

/-! ### Policy sets -/

namespace PolicySet

/-- The fields that the digest of a policy set folds. -/
def digested (generation : PolicyGeneration) (fallback : Policy) (overrides : List PolicyOverride) :
    List UInt64 :=
  [generation.raw.toUInt64, fallback.digest] ++
    overrides.flatMap fun entry => [entry.resource.raw, entry.policy.digest]

theorem digestOf_eq (generation : PolicyGeneration) (fallback : Policy)
    (overrides : List PolicyOverride) : digestOf generation fallback overrides =
      hashFields 0xB16B00B5DEADC0DE (digested generation fallback overrides) := by
  rw [digested, hashFields, List.foldl_append, List.foldl_flatMap]
  rfl

/-- A change of one field of the policy of one override is a change of one field of the set. -/
theorem digested_override (generation : PolicyGeneration) (fallback : Policy)
    (before after : List PolicyOverride) (entry : PolicyOverride) {policy : Policy}
    (h : OneChange entry.policy.digested policy.digested) :
    OneChange (digested generation fallback (before ++ entry :: after))
      (digested generation fallback (before ++ { entry with policy } :: after)) := by
  have hdigest : entry.policy.digest ≠ policy.digest := hashFields_ne h _
  refine ⟨digested generation fallback before ++ [entry.resource.raw], entry.policy.digest,
    policy.digest, after.flatMap fun entry => [entry.resource.raw, entry.policy.digest], ?_, ?_,
    hdigest⟩
  · simp [digested]
  · simp [digested]

end PolicySet

/-! ### Explanations -/

namespace Explanation

/-- The fields that the digest of an explanation folds. -/
def digested (x : Explanation) : List UInt64 :=
  [x.size.toUInt64] ++
    (x.reasons.flatMap fun r =>
      [r.code.raw.toUInt64, r.observed.toUInt64, r.threshold.toUInt64, r.tick.value]) ++
    [if x.truncated then 1 else 0]

theorem digest_eq (x : Explanation) : x.digest = hashFields 0xC0FFEE123456789 x.digested := by
  rw [digested, hashFields, List.foldl_append, List.foldl_append, List.foldl_flatMap]
  rfl

end Explanation

/-- DIGESTS: the digested list of a policy determines the policy, and two policies, policy sets or
    explanations whose digested lists differ in one place have different digests; a change of one
    field of any policy of a set changes the digest of the set. -/
theorem digests_separate :
    Function.Injective Policy.digested ∧
    (∀ p q : Policy, OneChange p.digested q.digested → p.digest ≠ q.digest) ∧
    (∀ generation fallback overrides generation' fallback' overrides',
      OneChange (PolicySet.digested generation fallback overrides)
        (PolicySet.digested generation' fallback' overrides') →
      PolicySet.digestOf generation fallback overrides ≠
        PolicySet.digestOf generation' fallback' overrides') ∧
    (∀ generation fallback policy overrides, OneChange fallback.digested policy.digested →
      PolicySet.digestOf generation fallback overrides ≠
        PolicySet.digestOf generation policy overrides) ∧
    (∀ generation fallback before (entry : PolicyOverride) policy after,
      OneChange entry.policy.digested policy.digested →
      PolicySet.digestOf generation fallback (before ++ entry :: after) ≠
        PolicySet.digestOf generation fallback (before ++ { entry with policy } :: after)) ∧
    (∀ x y : Explanation, OneChange x.digested y.digested → x.digest ≠ y.digest) := by
  have hset : ∀ generation fallback overrides generation' fallback' overrides',
      OneChange (PolicySet.digested generation fallback overrides)
        (PolicySet.digested generation' fallback' overrides') →
      PolicySet.digestOf generation fallback overrides ≠
        PolicySet.digestOf generation' fallback' overrides' := by
    intro generation fallback overrides generation' fallback' overrides' h
    rw [PolicySet.digestOf_eq, PolicySet.digestOf_eq]
    exact hashFields_ne h _
  refine ⟨Policy.digested_injective, fun p q h => hashFields_ne h _, hset, ?_, ?_, ?_⟩
  · intro generation fallback policy overrides h
    refine hset _ _ _ _ _ _ ⟨[generation.raw.toUInt64], fallback.digest, policy.digest, _, rfl, rfl, ?_⟩
    exact hashFields_ne h _
  · intro generation fallback before entry policy after h
    exact hset _ _ _ _ _ _ (PolicySet.digested_override generation fallback before after entry h)
  · intro x y h
    rw [Explanation.digest_eq, Explanation.digest_eq]
    exact hashFields_ne h _

end Mbg
