import MicroburstGovernor.Core.Bytes
import MicroburstGovernor.Model.Sample
import MicroburstGovernor.Model.Severity

/-! Burst episodes: lifecycle, metrics, deterministic identity and the durable form. -/

namespace Mbg

/-- Lifecycle of an episode: open, recovering, then closed or fenced exactly once. -/
inductive EventLifecycle where
  | opened | recovering | closed | fenced
  deriving DecidableEq, Repr, Inhabited

namespace EventLifecycle

def raw : EventLifecycle → UInt8
  | opened => 0
  | recovering => 1
  | closed => 2
  | fenced => 3

def ofRaw? : UInt8 → Option EventLifecycle
  | 0 => some opened
  | 1 => some recovering
  | 2 => some closed
  | 3 => some fenced
  | _ => none

@[simp] theorem ofRaw?_raw (l : EventLifecycle) : ofRaw? l.raw = some l := by cases l <;> rfl

end EventLifecycle

/-- Why an episode stopped being authoritative; the byte that is persisted. -/
@[ext] structure CloseReason where
  raw : UInt8
  deriving DecidableEq, Repr, Inhabited

namespace CloseReason

def none : CloseReason := ⟨0⟩
def releaseConfirmed : CloseReason := ⟨1⟩
def episodeTimeout : CloseReason := ⟨2⟩
def evidenceStale : CloseReason := ⟨3⟩
def policyChanged : CloseReason := ⟨4⟩
def authorityLost : CloseReason := ⟨5⟩
def restart : CloseReason := ⟨6⟩
def capacityChanged : CloseReason := ⟨7⟩

end CloseReason

/-- Completeness and quality of the evidence window that justified a decision. -/
@[ext] structure EvidenceSummary where
  windowStart : Tick := {}
  windowEnd : Tick := {}
  samples : UInt64 := 0
  expectedSamples : UInt64 := 0
  completenessPermille : UInt32 := 0
  gaps : UInt64 := 0
  reordered : UInt64 := 0
  duplicates : UInt64 := 0
  counterResets : UInt64 := 0
  counterRollovers : UInt64 := 0
  droppedSamples : UInt64 := 0
  capacityKnown : Bool := false
  capacityBytes : UInt64 := 0
  sparse : Bool := false
  synthetic : Bool := false
  provenance : ProvenanceId := default
  provenanceCount : UInt32 := 0
  deriving DecidableEq, Repr, Inhabited

/-- Peak and aggregate quantities of a burst episode. -/
@[ext] structure BurstMetrics where
  peakDepth : UInt64 := 0
  peakOccupancyBytes : UInt64 := 0
  capacityBytes : UInt64 := 0
  peakSlopeQ16 : RateQ16 := 0
  peakImbalanceQ16 : RateQ16 := 0
  onsetTick : Tick := {}
  peakTick : Tick := {}
  lastUpdateTick : Tick := {}
  endTick : Tick := {}
  durationTicks : UInt64 := 0
  dropDelta : UInt64 := 0
  markDelta : UInt64 := 0
  deriving DecidableEq, Repr, Inhabited

/-- A burst episode. -/
@[ext] structure BurstEvent where
  id : EventId := default
  stream : StreamKey := default
  resourceGeneration : ResourceGeneration := default
  lifecycle : EventLifecycle := .opened
  severity : SeverityClass := SeverityClass.none
  authority : EvidenceAuthority := .unknown
  metrics : BurstMetrics := {}
  evidence : EvidenceSummary := {}
  policyId : PolicyId := default
  policyGeneration : PolicyGeneration := default
  policyDigest : UInt64 := 0
  epoch : Epoch := default
  incarnation : IncarnationId := default
  boot : BootId := default
  closeReason : CloseReason := CloseReason.none
  closedTick : Tick := {}
  openedSeq : DecisionSeq := default
  lastSeq : DecisionSeq := default
  revision : UInt32 := 0
  deriving DecidableEq, Repr, Inhabited

namespace BurstEvent

def isOpen (e : BurstEvent) : Bool := e.lifecycle = .opened || e.lifecycle = .recovering

def positive (e : BurstEvent) : Bool := e.severity ≠ SeverityClass.none

end BurstEvent

/-- Deterministic episode identity of a stream and an onset tick. -/
def makeEventId (stream : StreamKey) (onsetTick : Tick) : EventId :=
  let h := hashFields 0xA5A5A5A5DEADBEEF
    [stream.resource.raw, stream.queue.raw, if stream.path.valid then stream.path.raw else 0,
      onsetTick.value]
  ⟨if h = ~~~0 then h ^^^ 0x5DEECE66D else h⟩

theorem makeEventId_valid (stream : StreamKey) (onsetTick : Tick) :
    (makeEventId stream onsetTick).valid := by
  rw [makeEventId, StrongId.valid, decide_eq_true_eq]
  generalize hashFields _ _ = h
  by_cases hh : h = ~~~0
  · simp only [hh, if_true]; decide
  · rw [if_neg hh]; exact hh

/-! ### Durable form -/

open ByteWriter in
def encodeSummary (s : EvidenceSummary) : Bytes :=
  [u64 s.windowStart.value, u64 s.windowEnd.value, u64 s.samples, u64 s.expectedSamples,
    u32 s.completenessPermille, u64 s.gaps, u64 s.reordered, u64 s.duplicates, u64 s.counterResets,
    u64 s.counterRollovers, u64 s.droppedSamples, bool s.capacityKnown, u64 s.capacityBytes,
    bool s.sparse, bool s.synthetic, u64 s.provenance.raw, u32 s.provenanceCount].flatten

open ByteReader in
def decodeSummary : ReaderM (Except Failure EvidenceSummary) := do
  let windowStart ← u64
  let windowEnd ← u64
  let samples ← u64
  let expectedSamples ← u64
  let completenessPermille ← u32
  let gaps ← u64
  let reordered ← u64
  let duplicates ← u64
  let counterResets ← u64
  let counterRollovers ← u64
  let droppedSamples ← u64
  let capacityKnown ← bool
  let capacityBytes ← u64
  let sparse ← bool
  let synthetic ← bool
  let provenance ← u64
  let provenanceCount ← u32
  if !(← isOk) then return Status.failure .truncated "evidence summary payload is truncated"
  if completenessPermille > 1000 then
    return Status.failure .corrupt "evidence completeness above 1000 per-mille"
  return .ok
    { windowStart := ⟨windowStart⟩, windowEnd := ⟨windowEnd⟩, samples, expectedSamples,
      completenessPermille, gaps, reordered, duplicates, counterResets, counterRollovers,
      droppedSamples, capacityKnown, capacityBytes, sparse, synthetic, provenance := ⟨provenance⟩,
      provenanceCount }

open ByteWriter in
def encodeMetrics (m : BurstMetrics) : Bytes :=
  [u64 m.peakDepth, u64 m.peakOccupancyBytes, u64 m.capacityBytes, i64 m.peakSlopeQ16,
    i64 m.peakImbalanceQ16, u64 m.onsetTick.value, u64 m.peakTick.value,
    u64 m.lastUpdateTick.value, u64 m.endTick.value, u64 m.durationTicks, u64 m.dropDelta,
    u64 m.markDelta].flatten

open ByteReader in
def decodeMetrics : ReaderM BurstMetrics := do
  return {
    peakDepth := ← u64, peakOccupancyBytes := ← u64, capacityBytes := ← u64, peakSlopeQ16 := ← i64,
    peakImbalanceQ16 := ← i64, onsetTick := ⟨← u64⟩, peakTick := ⟨← u64⟩,
    lastUpdateTick := ⟨← u64⟩, endTick := ⟨← u64⟩, durationTicks := ← u64, dropDelta := ← u64,
    markDelta := ← u64 }

open ByteWriter in
/-- The stream fields of a durable record: resource, queue, path. -/
def encodeStream (k : StreamKey) : Bytes :=
  u64 k.resource.raw ++ u64 k.queue.raw ++ u64 (if k.path.valid then k.path.raw else ~~~0)

/-- An unset path is its sentinel: the path is written as it is. -/
theorem encodeStream_eq (k : StreamKey) : encodeStream k =
    ByteWriter.u64 k.resource.raw ++ ByteWriter.u64 k.queue.raw ++ ByteWriter.u64 k.path.raw := by
  have hpath : (if k.path.valid then k.path.raw else ~~~0) = k.path.raw := by
    rw [StrongId.valid]
    by_cases h : k.path.raw = ~~~0
    · rw [h]; rfl
    · rw [if_pos (by simpa using h)]
  rw [encodeStream, hpath]

open ByteReader in
def decodeStream : ReaderM StreamKey := do
  return { resource := ⟨← u64⟩, queue := ⟨← u64⟩, path := ⟨← u64⟩ }

open ByteWriter in
def encodeEvent (e : BurstEvent) : Bytes :=
  [u64 e.id.raw, encodeStream e.stream, u32 e.resourceGeneration.raw, u8 e.lifecycle.raw,
    u8 e.severity.raw, u8 e.authority.raw, encodeMetrics e.metrics, encodeSummary e.evidence,
    u64 e.policyId.raw, u32 e.policyGeneration.raw, u64 e.policyDigest, u32 e.epoch.raw,
    u64 e.incarnation.raw, u64 e.boot.raw, u8 e.closeReason.raw, u64 e.closedTick.value,
    u64 e.openedSeq.raw, u64 e.lastSeq.raw, u32 e.revision].flatten

open ByteReader in
def decodeEvent : ReaderM (Except Failure BurstEvent) := do
  let id ← u64
  let stream ← decodeStream
  let resourceGeneration ← u32
  let lifecycle ← u8
  let severity ← u8
  let authority ← u8
  let metrics ← decodeMetrics
  match ← decodeSummary with
  | .error e => return .error e
  | .ok evidence =>
    let policyId ← u64
    let policyGeneration ← u32
    let policyDigest ← u64
    let epoch ← u32
    let incarnation ← u64
    let boot ← u64
    let closeReason ← u8
    let closedTick ← u64
    let openedSeq ← u64
    let lastSeq ← u64
    let revision ← u32
    if !(← isOk) then return Status.failure .truncated "burst event payload is truncated"
    if !stream.valid then
      return Status.failure .corrupt "burst event stream identity is incomplete"
    let some lifecycle := EventLifecycle.ofRaw? lifecycle
      | return Status.failure .corrupt "burst event lifecycle is out of range"
    if !isValidSeverity severity then
      return Status.failure .corrupt "burst event severity is out of range"
    let some authority := EvidenceAuthority.ofRaw? authority
      | return Status.failure .corrupt "burst event authority is out of range"
    if severity ≠ SeverityClass.none.raw ∧ authority = .unknown then
      return Status.failure .corrupt "positive severity cannot carry unknown evidence authority"
    return .ok
      { id := ⟨id⟩, stream, resourceGeneration := ⟨resourceGeneration⟩, lifecycle,
        severity := ⟨severity⟩, authority, metrics, evidence, policyId := ⟨policyId⟩,
        policyGeneration := ⟨policyGeneration⟩, policyDigest, epoch := ⟨epoch⟩,
        incarnation := ⟨incarnation⟩, boot := ⟨boot⟩, closeReason := ⟨closeReason⟩,
        closedTick := ⟨closedTick⟩, openedSeq := ⟨openedSeq⟩, lastSeq := ⟨lastSeq⟩, revision }

/-- What `decodeEvent` demands of an event beyond its bytes. -/
structure BurstEvent.WellFormed (e : BurstEvent) : Prop where
  stream : e.stream.valid
  severity : isValidSeverity e.severity.raw
  authority : e.positive → e.authority ≠ .unknown
  completeness : e.evidence.completenessPermille ≤ 1000

namespace ByteReader

@[simp] theorem decodeSummary_write {s : EvidenceSummary} (h : s.completenessPermille ≤ 1000)
    (rest : Bytes) : decodeSummary (of (encodeSummary s ++ rest)) = (.ok s, of rest) := by
  have hc : ¬ s.completenessPermille > 1000 := by simpa using h
  simp only [decodeSummary, encodeSummary, List.flatten_cons, List.append_assoc, u64_bind, u32_bind,
    bool_bind, isOk_bind, hc, List.flatten_nil, List.nil_append, if_false]
  rfl

@[simp] theorem decodeMetrics_write (m : BurstMetrics) (rest : Bytes) :
    decodeMetrics (of (encodeMetrics m ++ rest)) = (m, of rest) := by
  simp only [decodeMetrics, encodeMetrics, List.flatten_cons, List.append_assoc, u64_bind, i64_bind,
    List.flatten_nil, List.nil_append, pure_apply]

@[simp] theorem decodeStream_write (k : StreamKey) (rest : Bytes) :
    decodeStream (of (encodeStream k ++ rest)) = (k, of rest) := by
  simp only [decodeStream, encodeStream_eq, List.append_assoc, u64_bind, pure_apply]

/-- A well formed event is read back as it was written. -/
theorem decodeEvent_write {e : BurstEvent} (h : e.WellFormed) (rest : Bytes) :
    decodeEvent (of (encodeEvent e ++ rest)) = (.ok e, of rest) := by
  obtain ⟨hs, hsev, ha, hc⟩ := h
  have hpos : ¬ (e.severity.raw ≠ SeverityClass.none.raw ∧ e.authority = .unknown) := by
    rintro ⟨hne, hu⟩
    exact ha (by simpa [BurstEvent.positive, SeverityClass.ext_iff] using hne) hu
  simp only [decodeEvent, encodeEvent, List.flatten_cons, List.append_assoc, u64_bind, u32_bind, u8_bind,
    bind_of_eq (decodeStream_write _ _), bind_of_eq (decodeMetrics_write _ _),
    bind_of_eq (decodeSummary_write hc _), isOk_bind, List.flatten_nil, List.nil_append]
  simp only [hs, hsev, hpos, EventLifecycle.ofRaw?_raw, EvidenceAuthority.ofRaw?_raw]
  rfl

theorem completeness_of_decodeSummary : Always (fun x : Except Failure EvidenceSummary =>
    ∀ s, x = .ok s → s.completenessPermille ≤ 1000) decodeSummary := by
  rw [decodeSummary]
  iterate 18 refine always_bind fun _ => ?_
  refine always_ite (fun _ => always_failure) fun _ => ?_
  refine always_ite (fun _ => always_failure) fun hle => always_pure ?_
  rintro s hs
  rw [← Except.ok.inj hs]
  simpa using hle

theorem wellFormed_of_decodeEvent : Always (fun x : Except Failure BurstEvent =>
    ∀ e, x = .ok e → e.WellFormed) decodeEvent := by
  rw [decodeEvent]
  refine always_bind fun _ => always_bind fun stream => always_bind fun _ => always_bind fun _ => ?_
  refine always_bind fun severity => always_bind fun authority => always_bind fun _ => ?_
  refine always_bind_of completeness_of_decodeSummary fun evidence hevidence => ?_
  cases evidence with
  | error e => exact always_pure fun a h => by simp at h
  | ok evidence =>
    have hcompleteness := hevidence evidence rfl
    iterate 12 refine always_bind fun _ => ?_
    refine always_ite (fun _ => always_failure) fun _ => ?_
    refine always_ite (fun _ => always_failure) fun hstream => ?_
    cases EventLifecycle.ofRaw? _ with
    | none => exact always_failure
    | some lifecycle =>
    refine always_ite (fun _ => always_failure) fun hseverity => ?_
    cases EvidenceAuthority.ofRaw? authority with
    | none => exact always_failure
    | some authority =>
    refine always_ite (fun _ => always_failure) fun hauthority => always_pure ?_
    rintro e he
    rw [← Except.ok.inj he]
    refine ⟨by simpa using hstream, by simpa using hseverity, fun hpositive hunknown => ?_,
      hcompleteness⟩
    refine hauthority ⟨fun hnone => ?_, hunknown⟩
    simp [BurstEvent.positive, hnone] at hpositive

end ByteReader

end Mbg
