import MicroburstGovernor.Lib.UnorderedMap
import MicroburstGovernor.Model.Intervention

/-! Detection and intervention policy, its digest, its validation and the installed policy set. -/

namespace Mbg

/-! ### Policy documents -/

/-- Ascending grade ladder: the thresholds of minor, moderate, severe and critical. -/
@[ext] structure GradeLadder where
  minor : UInt64
  moderate : UInt64
  severe : UInt64
  critical : UInt64
  deriving DecidableEq, Repr, Inhabited

namespace GradeLadder

def thresholds (l : GradeLadder) : List UInt64 := [l.minor, l.moderate, l.severe, l.critical]

/-- A step at the largest value is disabled. -/
def disabledStep : UInt64 := ~~~0

def grade (l : GradeLadder) (value : UInt64) : SeverityClass :=
  l.thresholds.zipIdx.foldl (fun result step =>
    if step.1 = disabledStep then result
    else if value ≥ step.1 then ⟨step.2.toUInt8 + 1⟩
    else result) SeverityClass.none

def gradeRate (l : GradeLadder) (value : RateQ16) : SeverityClass :=
  if value ≤ 0 then SeverityClass.none else l.grade value.toUInt64

def monotonic (l : GradeLadder) : Bool :=
  l.minor ≤ l.moderate && l.moderate ≤ l.severe && l.severe ≤ l.critical

end GradeLadder

/-- Deterministic detection rules; every threshold is explicit. -/
@[ext] structure DetectionPolicy where
  windowCapacity : UInt64 := 64
  nominalSampleIntervalTicks : UInt64 := 1
  maxSampleGapTicks : UInt64 := 4
  minSamplesForClassification : UInt64 := 8
  minCompletenessPermille : UInt32 := 900
  stalenessLimitTicks : UInt64 := 16
  reorderToleranceTicks : UInt64 := 0
  onsetMinDepth : UInt64 := 1024
  onsetMinSlopeQ16 : RateQ16 := rateFromWhole 8
  onsetSustainTicks : UInt64 := 2
  onsetSlopeWindowTicks : UInt64 := 4
  releaseDepth : UInt64 := 256
  releaseSlopeQ16 : RateQ16 := rateFromWhole 2
  releaseSustainTicks : UInt64 := 3
  occupancyPermilleLadder : GradeLadder := ⟨700, 850, 950, 990⟩
  depthLadder : GradeLadder := ⟨512, 2048, 8192, 32768⟩
  slopeLadder : GradeLadder :=
    ⟨(rateFromWhole 4).toUInt64, (rateFromWhole 16).toUInt64, (rateFromWhole 64).toUInt64,
      (rateFromWhole 256).toUInt64⟩
  durationLadder : GradeLadder := ⟨2, 8, 32, 128⟩
  dropLadder : GradeLadder := ⟨1, 16, 256, 4096⟩
  onsetMergeTicks : UInt64 := 8
  cooldownTicks : UInt64 := 32
  maxEpisodeTicks : UInt64 := 4096
  evidenceGraceTicks : UInt64 := 8
  allowDegradedClassification : Bool := false
  degradedMinCompletenessPermille : UInt32 := 500
  degradedSeverityCap : SeverityClass := SeverityClass.minor
  allowCapacityChangeWithinWindow : Bool := false
  deriving DecidableEq, Repr, Inhabited

/-- Bounds of one kind of corrective intent; a kind that is not enabled is never requested. -/
@[ext] structure InterventionKindLimit where
  enabled : Bool := false
  magnitudePermille : UInt32 := 0
  ttlTicks : UInt64 := 0
  minSeverity : SeverityClass := SeverityClass.moderate
  deriving DecidableEq, Repr, Inhabited

/-- The limits of the four kinds, by index. -/
@[ext] structure InterventionPolicy where
  requestPacing : InterventionKindLimit := {}
  temporaryAdmissionReduction : InterventionKindLimit := {}
  temporaryHeadroomIncrease : InterventionKindLimit := {}
  escalateToCongestionFabric : InterventionKindLimit := {}
  maxConcurrentPerStream : UInt32 := 2
  maxConcurrentTotal : UInt32 := 64
  requireAuthoritativeEvidence : Bool := true
  deriving DecidableEq, Repr, Inhabited

def InterventionPolicy.kinds (p : InterventionPolicy) : InterventionKind → InterventionKindLimit
  | .requestPacing => p.requestPacing
  | .temporaryAdmissionReduction => p.temporaryAdmissionReduction
  | .temporaryHeadroomIncrease => p.temporaryHeadroomIncrease
  | .escalateToCongestionFabric => p.escalateToCongestionFabric

/-- A named, versioned policy document. -/
@[ext] structure Policy where
  id : PolicyId := default
  detection : DetectionPolicy := {}
  intervention : InterventionPolicy := {}
  deriving DecidableEq, Repr, Inhabited

namespace Policy

def flag (b : Bool) : UInt64 := if b then 1 else 0

/-- Canonical digest of the semantic content: the fields in document order. -/
def digest (p : Policy) : UInt64 :=
  let d := p.detection
  let ip := p.intervention
  hashFields 0x5143F00D1234ABCD <|
    [p.id.raw, d.windowCapacity, d.nominalSampleIntervalTicks, d.maxSampleGapTicks,
      d.minSamplesForClassification, d.minCompletenessPermille.toUInt64, d.stalenessLimitTicks,
      d.reorderToleranceTicks, d.onsetMinDepth, d.onsetMinSlopeQ16.toUInt64, d.onsetSustainTicks,
      d.onsetSlopeWindowTicks, d.releaseDepth, d.releaseSlopeQ16.toUInt64, d.releaseSustainTicks] ++
    d.occupancyPermilleLadder.thresholds ++ d.depthLadder.thresholds ++ d.slopeLadder.thresholds ++
    d.durationLadder.thresholds ++ d.dropLadder.thresholds ++
    [d.onsetMergeTicks, d.cooldownTicks, d.maxEpisodeTicks, d.evidenceGraceTicks,
      flag d.allowDegradedClassification, d.degradedMinCompletenessPermille.toUInt64,
      d.degradedSeverityCap.raw.toUInt64, flag d.allowCapacityChangeWithinWindow] ++
    (InterventionKind.all.flatMap fun kind =>
      let limit := ip.kinds kind
      [flag limit.enabled, limit.magnitudePermille.toUInt64, limit.ttlTicks,
        limit.minSeverity.raw.toUInt64]) ++
    [ip.maxConcurrentPerStream.toUInt64, ip.maxConcurrentTotal.toUInt64,
      flag ip.requireAuthoritativeEvidence]

end Policy

def makePolicyId (name : String) : PolicyId := ⟨fnv1a64 name.toUTF8.data.toList⟩

/-- The conservative default policy. -/
def makeDefaultPolicy : Policy where
  id := makePolicyId "mbg.default.v1"
  intervention :=
    { requestPacing := ⟨true, 250, 64, SeverityClass.moderate⟩
      temporaryAdmissionReduction := ⟨true, 125, 32, SeverityClass.severe⟩
      temporaryHeadroomIncrease := ⟨false, 0, 0, SeverityClass.severe⟩
      escalateToCongestionFabric := ⟨true, 1000, 128, SeverityClass.severe⟩ }

/-! ### Validation -/

namespace PolicySet

/-- Refuses with a code and a text unless the condition holds. -/
def require (holds : Bool) (code : StatusCode) (detail : String) : Status :=
  if holds then .ok () else Status.failure code detail

@[simp] theorem require_eq_ok {holds : Bool} {code : StatusCode} {detail : String} {u : Unit} :
    require holds code detail = .ok u ↔ holds = true := by
  cases holds <;> simp [require]

def validateKind (limit : InterventionKindLimit) : Status :=
  if !limit.enabled then .ok ()
  else do
    require (limit.magnitudePermille ≠ 0 && limit.magnitudePermille ≤ Limits.maxMagnitudePermille)
      .outOfRange "intervention magnitude out of range"
    require (limit.ttlTicks ≠ 0 && limit.ttlTicks ≤ Limits.maxInterventionTtlTicks)
      .outOfRange "intervention ttl out of range"
    require (limit.minSeverity.raw ≥ SeverityClass.minor.raw &&
        isValidSeverity limit.minSeverity.raw)
      .outOfRange "intervention severity floor out of range"

/-- The checks of a policy document, in order: the first that fails is reported. -/
def validate (policy : Policy) : Status := do
  let d := policy.detection
  require (d.windowCapacity.toNat ≥ Limits.minWindowCapacity &&
      d.windowCapacity.toNat ≤ Limits.maxWindowCapacity)
    .outOfRange "window capacity outside supported bounds"
  require (d.nominalSampleIntervalTicks ≠ 0)
    .invalidArgument "nominal sample interval must be positive"
  require (d.minSamplesForClassification ≥ 2) .invalidArgument "at least two samples are required"
  require (d.minSamplesForClassification ≤ d.windowCapacity)
    .invalidArgument "minimum samples exceed the window capacity"
  require (d.minCompletenessPermille ≤ 1000)
    .outOfRange "completeness threshold above 1000 per-mille"
  require (d.maxSampleGapTicks ≥ d.nominalSampleIntervalTicks)
    .invalidArgument "max sample gap below the nominal sample interval"
  require (d.stalenessLimitTicks ≥ d.nominalSampleIntervalTicks)
    .invalidArgument "staleness limit below the nominal sample interval"
  require (d.stalenessLimitTicks ≤ Limits.maxWindowSpanTicks)
    .outOfRange "staleness limit above the supported span"
  require (d.onsetSustainTicks ≠ 0 && d.onsetSustainTicks ≤ Limits.maxSustainTicks)
    .outOfRange "onset sustain ticks outside supported bounds"
  require (d.releaseSustainTicks ≠ 0 && d.releaseSustainTicks ≤ Limits.maxSustainTicks)
    .outOfRange "release sustain ticks outside supported bounds"
  require (d.onsetSlopeWindowTicks ≥ d.onsetSustainTicks &&
      d.onsetSlopeWindowTicks ≤ Limits.maxWindowSpanTicks)
    .outOfRange "onset slope window must cover the sustain interval and stay bounded"
  require (d.onsetMinDepth ≠ 0) .invalidArgument "onset depth threshold must be positive"
  require (d.releaseDepth < d.onsetMinDepth)
    .invalidArgument "release depth must be strictly below onset depth (hysteresis)"
  require (d.onsetMinSlopeQ16 ≥ 0 && d.releaseSlopeQ16 ≥ 0)
    .invalidArgument "slope thresholds cannot be negative"
  require (d.releaseSlopeQ16 ≤ d.onsetMinSlopeQ16)
    .invalidArgument "release slope must not exceed the onset slope (hysteresis)"
  require ([d.occupancyPermilleLadder, d.depthLadder, d.slopeLadder, d.durationLadder,
      d.dropLadder].all GradeLadder.monotonic)
    .invalidArgument "severity ladder is not monotonic"
  require (d.occupancyPermilleLadder.thresholds.all (· ≤ 1000))
    .outOfRange "occupancy ladder threshold above 1000 per-mille"
  require (d.onsetMergeTicks ≤ Limits.maxWindowSpanTicks)
    .outOfRange "onset merge window above the supported span"
  require (d.cooldownTicks ≤ Limits.maxCooldownTicks)
    .outOfRange "cooldown above the supported span"
  require (d.maxEpisodeTicks ≠ 0 && d.maxEpisodeTicks ≤ Limits.maxEpisodeTicks)
    .outOfRange "episode ceiling outside supported bounds"
  require (d.evidenceGraceTicks ≠ 0 && d.evidenceGraceTicks ≤ Limits.maxWindowSpanTicks)
    .outOfRange "evidence grace outside supported bounds"
  require (!d.allowDegradedClassification ||
      d.degradedMinCompletenessPermille ≤ d.minCompletenessPermille)
    .invalidArgument "degraded completeness floor above the authoritative floor"
  require (!d.allowDegradedClassification ||
      !severityAtLeast d.degradedSeverityCap SeverityClass.severe)
    .invalidArgument "degraded severity cap must stay below severe"
  let ip := policy.intervention
  InterventionKind.all.forM fun kind => validateKind (ip.kinds kind)
  require (ip.maxConcurrentPerStream ≠ 0 && ip.maxConcurrentTotal ≠ 0)
    .invalidArgument "concurrency limits must be positive"
  require (ip.maxConcurrentPerStream.toNat ≤ Limits.maxInterventions &&
      ip.maxConcurrentTotal.toNat ≤ Limits.maxInterventions)
    .outOfRange "concurrency limits above supported bounds"
  require (ip.maxConcurrentPerStream ≤ ip.maxConcurrentTotal)
    .invalidArgument "per-stream concurrency limit above the global limit"

end PolicySet

/-! ### The installed set -/

/-- A per-resource policy override. -/
@[ext] structure PolicyOverride where
  resource : ResourceId
  policy : Policy
  deriving DecidableEq, Repr, Inhabited

/-- One fallback policy and a bounded list of per-resource overrides, found through an index. -/
@[ext] structure PolicySet where
  fallback : Policy
  overrides : List PolicyOverride
  index : UnorderedMap ResourceId ℕ
  generation : PolicyGeneration
  digest : UInt64

namespace PolicySet

/-- `recompute_digest`: the digest folds the generation in before the policies. -/
def digestOf (generation : PolicyGeneration) (fallback : Policy) (overrides : List PolicyOverride) :
    UInt64 :=
  let h := hashFields 0xB16B00B5DEADC0DE [generation.raw.toUInt64, fallback.digest]
  overrides.foldl (fun h entry => hashFields h [entry.resource.raw, entry.policy.digest]) h

def recomputeDigest (s : PolicySet) : PolicySet :=
  { s with digest := digestOf s.generation s.fallback s.overrides }

/-- The set a governor starts with: the default policy at generation 1. -/
def initial : PolicySet :=
  recomputeDigest ⟨makeDefaultPolicy, [], UnorderedMap.empty, ⟨1⟩, 0⟩

instance : Inhabited PolicySet := ⟨initial⟩

/-- Each override's position, under its resource. -/
def indexOf (overrides : List PolicyOverride) : UnorderedMap ResourceId ℕ :=
  overrides.zipIdx.foldl (fun index entry => index.emplace (.back _) entry.1.resource entry.2)
    UnorderedMap.empty

def bumpGeneration (s : PolicySet) : Except Failure PolicySet :=
  match addChecked s.generation.raw 1 with
  | none => Status.failure .overflow "policy generation exhausted"
  | some next => .ok { s with generation := ⟨next⟩ }

def setFallback (s : PolicySet) (policy : Policy) : Except Failure PolicySet := do
  validate policy
  let s ← s.bumpGeneration
  return recomputeDigest { s with fallback := policy }

def hasOverride (s : PolicySet) (resource : ResourceId) : Bool := s.index.contains resource

def setOverride (s : PolicySet) (resource : ResourceId) (policy : Policy) :
    Except Failure PolicySet := do
  require resource.valid .invalidArgument "override resource identity is invalid"
  validate policy
  let existing := s.index.find? resource
  require (existing.isSome || s.overrides.length < Limits.maxPolicyOverrides)
    .capacityExceeded "policy override capacity exhausted"
  let s ← s.bumpGeneration
  return recomputeDigest <| match existing with
    | some i => { s with overrides := s.overrides.modify i fun entry => { entry with policy } }
    | none =>
      { s with
        index := s.index.emplace (.back _) resource s.overrides.length
        overrides := s.overrides ++ [⟨resource, policy⟩] }

def removeOverride (s : PolicySet) (resource : ResourceId) : Except Failure PolicySet := do
  let some existing := s.index.find? resource
    | Status.failure .notFound "no override for the supplied resource"
  let s ← s.bumpGeneration
  let overrides := s.overrides.eraseIdx existing
  return recomputeDigest { s with overrides, index := indexOf overrides }

/-- The policy in force for a resource: its override, else the fallback. -/
def resolve (s : PolicySet) (resource : ResourceId) : Policy :=
  match s.index.find? resource with
  | none => s.fallback
  | some i => (s.overrides[i]?.map PolicyOverride.policy).getD s.fallback

/-- Admits the overrides of a restored set one after another, in order. -/
def admitOverrides : List PolicyOverride → UnorderedMap ResourceId ℕ → ℕ →
    Except Failure (UnorderedMap ResourceId ℕ)
  | [], index, _ => .ok index
  | entry :: rest, index, i => do
    require entry.resource.valid .corrupt "restored override resource is invalid"
    require (!index.contains entry.resource) .corrupt "restored override set contains a duplicate"
    validate entry.policy
    admitOverrides rest (index.emplace (.back _) entry.resource i) (i + 1)

/-- Installs a fully specified set; its digest is recomputed, its generation is the caller's. -/
def restore (fallback : Policy) (overrides : List PolicyOverride) (generation : PolicyGeneration) :
    Except Failure PolicySet := do
  require (generation.raw ≠ 0) .invalidArgument "restored policy generation is zero"
  require (overrides.length ≤ Limits.maxPolicyOverrides)
    .capacityExceeded "restored override count above bounds"
  validate fallback
  let index ← admitOverrides overrides UnorderedMap.empty 0
  return recomputeDigest ⟨fallback, overrides, index, generation, 0⟩

end PolicySet

/-! ### Durable form -/

open ByteWriter in
def encodeLadder (l : GradeLadder) : Bytes :=
  [u64 l.minor, u64 l.moderate, u64 l.severe, u64 l.critical].flatten

open ByteReader in
def decodeLadder : ReaderM GradeLadder := do
  return { minor := ← u64, moderate := ← u64, severe := ← u64, critical := ← u64 }

open ByteWriter in
def encodeKindLimit (l : InterventionKindLimit) : Bytes :=
  [bool l.enabled, u32 l.magnitudePermille, u64 l.ttlTicks, u8 l.minSeverity.raw].flatten

open ByteReader in
def decodeKindLimit : ReaderM InterventionKindLimit := do
  return { enabled := ← bool, magnitudePermille := ← u32, ttlTicks := ← u64, minSeverity := ⟨← u8⟩ }

open ByteWriter in
/-- The thresholds and ladders of the detection rules. -/
def encodeRules (d : DetectionPolicy) : Bytes :=
  [u64 d.windowCapacity, u64 d.nominalSampleIntervalTicks, u64 d.maxSampleGapTicks,
    u64 d.minSamplesForClassification, u32 d.minCompletenessPermille, u64 d.stalenessLimitTicks,
    u64 d.reorderToleranceTicks, u64 d.onsetMinDepth, i64 d.onsetMinSlopeQ16,
    u64 d.onsetSustainTicks, u64 d.onsetSlopeWindowTicks, u64 d.releaseDepth,
    i64 d.releaseSlopeQ16, u64 d.releaseSustainTicks, encodeLadder d.occupancyPermilleLadder,
    encodeLadder d.depthLadder, encodeLadder d.slopeLadder, encodeLadder d.durationLadder,
    encodeLadder d.dropLadder].flatten

open ByteReader in
def decodeRules : ReaderM DetectionPolicy := do
  return {
    windowCapacity := ← u64, nominalSampleIntervalTicks := ← u64, maxSampleGapTicks := ← u64,
    minSamplesForClassification := ← u64, minCompletenessPermille := ← u32,
    stalenessLimitTicks := ← u64, reorderToleranceTicks := ← u64, onsetMinDepth := ← u64,
    onsetMinSlopeQ16 := ← i64, onsetSustainTicks := ← u64, onsetSlopeWindowTicks := ← u64,
    releaseDepth := ← u64, releaseSlopeQ16 := ← i64, releaseSustainTicks := ← u64,
    occupancyPermilleLadder := ← decodeLadder, depthLadder := ← decodeLadder,
    slopeLadder := ← decodeLadder, durationLadder := ← decodeLadder, dropLadder := ← decodeLadder }

open ByteWriter in
/-- Episode shaping, degraded operation and generation semantics of the detection rules. -/
def encodeShaping (d : DetectionPolicy) : Bytes :=
  [u64 d.onsetMergeTicks, u64 d.cooldownTicks, u64 d.maxEpisodeTicks, u64 d.evidenceGraceTicks,
    bool d.allowDegradedClassification, u32 d.degradedMinCompletenessPermille,
    u8 d.degradedSeverityCap.raw, bool d.allowCapacityChangeWithinWindow].flatten

open ByteReader in
def decodeShaping (d : DetectionPolicy) : ReaderM DetectionPolicy := do
  return { d with
    onsetMergeTicks := ← u64, cooldownTicks := ← u64, maxEpisodeTicks := ← u64,
    evidenceGraceTicks := ← u64, allowDegradedClassification := ← bool,
    degradedMinCompletenessPermille := ← u32, degradedSeverityCap := ⟨← u8⟩,
    allowCapacityChangeWithinWindow := ← bool }

open ByteWriter in
def encodeKinds (ip : InterventionPolicy) : Bytes :=
  [encodeKindLimit ip.requestPacing, encodeKindLimit ip.temporaryAdmissionReduction,
    encodeKindLimit ip.temporaryHeadroomIncrease,
    encodeKindLimit ip.escalateToCongestionFabric].flatten

open ByteReader in
def decodeKinds : ReaderM InterventionPolicy := do
  return {
    requestPacing := ← decodeKindLimit, temporaryAdmissionReduction := ← decodeKindLimit,
    temporaryHeadroomIncrease := ← decodeKindLimit,
    escalateToCongestionFabric := ← decodeKindLimit }

open ByteWriter in
def encodePolicy (p : Policy) : Bytes :=
  [u64 p.id.raw, encodeRules p.detection, encodeShaping p.detection, encodeKinds p.intervention,
    u32 p.intervention.maxConcurrentPerStream, u32 p.intervention.maxConcurrentTotal,
    bool p.intervention.requireAuthoritativeEvidence].flatten

open ByteReader in
def decodePolicy : ReaderM (Except Failure Policy) := do
  let id ← u64
  let rules ← decodeRules
  if !(← isOk) then return Status.failure .truncated "policy ladder payload is truncated"
  let detection ← decodeShaping rules
  let kinds ← decodeKinds
  if !(← isOk) then return Status.failure .truncated "policy kind limit payload is truncated"
  let maxConcurrentPerStream ← u32
  let maxConcurrentTotal ← u32
  let requireAuthoritativeEvidence ← bool
  if !(← isOk) then return Status.failure .truncated "policy payload is truncated"
  let policy : Policy :=
    { id := ⟨id⟩, detection
      intervention :=
        { kinds with maxConcurrentPerStream, maxConcurrentTotal, requireAuthoritativeEvidence } }
  return (PolicySet.validate policy).map fun _ => policy

namespace ByteReader

@[simp] theorem decodeLadder_write (l : GradeLadder) (rest : Bytes) :
    decodeLadder (of (encodeLadder l ++ rest)) = (l, of rest) := by
  simp only [decodeLadder, encodeLadder, List.flatten_cons, List.append_assoc, u64_bind,
    List.flatten_nil, List.nil_append, pure_apply]

@[simp] theorem decodeKindLimit_write (l : InterventionKindLimit) (rest : Bytes) :
    decodeKindLimit (of (encodeKindLimit l ++ rest)) = (l, of rest) := by
  simp only [decodeKindLimit, encodeKindLimit, List.flatten_cons, List.append_assoc, u64_bind,
    u32_bind, u8_bind, bool_bind, List.flatten_nil, List.nil_append, pure_apply]

theorem decodeRules_write (d : DetectionPolicy) (rest : Bytes) :
    decodeRules (of (encodeRules d ++ rest)) =
      ({ d with
          onsetMergeTicks := 8, cooldownTicks := 32, maxEpisodeTicks := 4096, evidenceGraceTicks := 8,
          allowDegradedClassification := false, degradedMinCompletenessPermille := 500,
          degradedSeverityCap := SeverityClass.minor,
          allowCapacityChangeWithinWindow := false }, of rest) := by
  simp only [decodeRules, encodeRules, List.flatten_cons, List.append_assoc, u64_bind, u32_bind,
    i64_bind, bind_of_eq (decodeLadder_write _ _), List.flatten_nil, List.nil_append, pure_apply]

theorem decodeShaping_write (rules d : DetectionPolicy) (rest : Bytes) :
    decodeShaping rules (of (encodeShaping d ++ rest)) =
      ({ rules with
          onsetMergeTicks := d.onsetMergeTicks, cooldownTicks := d.cooldownTicks,
          maxEpisodeTicks := d.maxEpisodeTicks, evidenceGraceTicks := d.evidenceGraceTicks,
          allowDegradedClassification := d.allowDegradedClassification,
          degradedMinCompletenessPermille := d.degradedMinCompletenessPermille,
          degradedSeverityCap := d.degradedSeverityCap,
          allowCapacityChangeWithinWindow := d.allowCapacityChangeWithinWindow }, of rest) := by
  simp only [decodeShaping, encodeShaping, List.flatten_cons, List.append_assoc, u64_bind,
    u32_bind, u8_bind, bool_bind, List.flatten_nil, List.nil_append, pure_apply]

theorem decodeKinds_write (ip : InterventionPolicy) (rest : Bytes) :
    decodeKinds (of (encodeKinds ip ++ rest)) =
      ({ ip with maxConcurrentPerStream := 2, maxConcurrentTotal := 64,
                 requireAuthoritativeEvidence := true }, of rest) := by
  simp only [decodeKinds, encodeKinds, List.flatten_cons, List.append_assoc,
    bind_of_eq (decodeKindLimit_write _ _), List.flatten_nil, List.nil_append, pure_apply]

/-- A policy that validates is read back as it was written. -/
theorem decodePolicy_write {p : Policy} (h : PolicySet.validate p = .ok ()) (rest : Bytes) :
    decodePolicy (of (encodePolicy p ++ rest)) = (.ok p, of rest) := by
  simp only [decodePolicy, encodePolicy, List.flatten_cons, List.append_assoc, u64_bind, u32_bind,
    bool_bind, bind_of_eq (decodeRules_write _ _), bind_of_eq (decodeShaping_write _ _ _),
    bind_of_eq (decodeKinds_write _ _), isOk_bind, List.flatten_nil, List.nil_append, Bool.not_true,
    Bool.false_eq_true, if_false, pure_apply]
  rw [h]
  rfl

/-- Whatever bytes it was read from, a decoded policy validates. -/
theorem validate_of_decodePolicy :
    Always (fun x => ∀ p, x = .ok p → PolicySet.validate p = .ok ()) decodePolicy := by
  refine always_bind fun id => always_bind fun rules => always_bind fun ok => ?_
  refine always_ite (fun _ => always_failure) fun _ => ?_
  refine always_bind fun detection => always_bind fun kinds => always_bind fun ok => ?_
  refine always_ite (fun _ => always_failure) fun _ => ?_
  refine always_bind fun perStream => always_bind fun total => always_bind fun require =>
    always_bind fun ok => ?_
  refine always_ite (fun _ => always_failure) fun _ => always_pure fun p h => ?_
  generalize Policy.mk _ _ _ = policy at h
  cases hv : PolicySet.validate policy with
  | error e => simp [hv, Except.map] at h
  | ok u =>
    simp only [hv, Except.map, Except.ok.injEq] at h
    rw [← h, hv]

end ByteReader

end Mbg
