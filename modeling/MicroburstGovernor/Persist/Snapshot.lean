import MicroburstGovernor.Model.Policy

/-! Durable governor state: what a snapshot's payload holds, and how recovery reports on it. -/

namespace Mbg

/-- Everything the governor persists. -/
structure PersistedState where
  boot : BootId := default
  epoch : Epoch := default
  incarnation : IncarnationId := default
  policies : PolicySet := PolicySet.initial
  events : List BurstEvent := []
  interventions : List InterventionIntent := []
  lastDecisionSeq : DecisionSeq := default
  lastRecordSeq : RecordSeq := default
  lastTick : Tick := {}
  decisions : UInt64 := 0
  episodesOpened : UInt64 := 0
  episodesClosed : UInt64 := 0
  episodesFenced : UInt64 := 0
  interventionsRequested : UInt64 := 0
  interventionsRevoked : UInt64 := 0
  deriving Inhabited

/-- Result of recovery, in the recovery vocabulary. -/
structure RestoreReport where
  snapshotPresent : Bool := false
  recordsApplied : ℕ := 0
  configurationItems : ℕ := 0
  historyItems : ℕ := 0
  unfinishedAttempts : ℕ := 0
  ambiguousOutcomes : ℕ := 0
  staleAuthorityItems : ℕ := 0
  evidenceRequiringRevalidation : ℕ := 0
  recoveryOutcome : String := ""
  detail : String := ""
  deriving DecidableEq, Repr, Inhabited

/-! ### Encoding -/

/-- `MBGP`. -/
def persistedMagic : UInt32 := 0x4D424750

open ByteWriter in
def encodeOverride (entry : PolicyOverride) : Bytes :=
  u64 entry.resource.raw ++ encodePolicy entry.policy

open ByteWriter in
def encodePolicySet (set : PolicySet) : Bytes :=
  [u32 set.generation.raw, encodePolicy set.fallback, u32 set.overrides.length.toUInt32,
    set.overrides.flatMap encodeOverride].flatten

open ByteWriter in
/-- The counters at the end of the durable state. -/
def encodeCounters (s : PersistedState) : Bytes :=
  [u64 s.lastDecisionSeq.raw, u64 s.lastRecordSeq.raw, u64 s.lastTick.value, u64 s.decisions,
    u64 s.episodesOpened, u64 s.episodesClosed, u64 s.episodesFenced, u64 s.interventionsRequested,
    u64 s.interventionsRevoked].flatten

open ByteWriter in
def encodeState (s : PersistedState) : Bytes :=
  [u32 persistedMagic, u16 stateFormatVersion, u16 0, u64 s.boot.raw, u32 s.epoch.raw,
    u64 s.incarnation.raw, encodePolicySet s.policies, u32 s.events.length.toUInt32,
    s.events.flatMap encodeEvent, u32 s.interventions.length.toUInt32,
    s.interventions.flatMap encodeIntent, encodeCounters s].flatten

/-! ### Decoding -/

/-- Decodes `count` elements one after another; the first failure is the result. -/
def decodeMany {α : Type} (decode : ReaderM (Except Failure α)) :
    ℕ → ReaderM (Except Failure (List α))
  | 0 => return .ok []
  | count + 1 => do
    match ← decode with
    | .error e => return .error e
    | .ok a => return (← decodeMany decode count).map (a :: ·)

open ByteReader in
def decodeOverride : ReaderM (Except Failure PolicyOverride) := do
  let resource ← u64
  return (← decodePolicy).map fun policy => ⟨⟨resource⟩, policy⟩

open ByteReader in
def decodePolicySet : ReaderM (Except Failure PolicySet) := do
  let generation ← u32
  match ← decodePolicy with
  | .error e => return .error e
  | .ok fallback =>
    let overrideCount ← u32
    if !(← isOk) then return Status.failure .truncated "policy set payload is truncated"
    if overrideCount.toNat > Limits.maxPolicyOverrides then
      return Status.failure .oversized "policy override count exceeds the bound"
    match ← decodeMany decodeOverride overrideCount.toNat with
    | .error e => return .error e
    | .ok overrides => return PolicySet.restore fallback overrides ⟨generation⟩

/-- A counted list of the durable state, within its bound. -/
def decodeCounted {α : Type} (decode : ReaderM (Except Failure α)) (maximum : ℕ)
    (oversized : String) : ReaderM (Except Failure (List α)) := do
  let count ← ByteReader.u32
  if !(← ByteReader.isOk) then
    return Status.failure .truncated "persisted state is truncated"
  if count.toNat > maximum then return Status.failure .oversized oversized
  decodeMany decode count.toNat

open ByteReader in
/-- The counters, into a state that has everything else. -/
def decodeCounters (s : PersistedState) : ReaderM PersistedState := do
  return { s with
    lastDecisionSeq := ⟨← u64⟩, lastRecordSeq := ⟨← u64⟩, lastTick := ⟨← u64⟩, decisions := ← u64,
    episodesOpened := ← u64, episodesClosed := ← u64, episodesFenced := ← u64,
    interventionsRequested := ← u64, interventionsRevoked := ← u64 }

open ByteReader in
def decodeState (bytes : Bytes) : Except Failure PersistedState :=
  if bytes.length > Limits.maxSnapshotBytes then
    Status.failure .oversized "persisted state exceeds the bound"
  else Prod.fst <| (show ReaderM (Except Failure PersistedState) from do
    if (← u32) ≠ persistedMagic then
      return Status.failure .corrupt "persisted state magic mismatch"
    if (← u16) ≠ stateFormatVersion then
      return Status.failure .unsupported "persisted state version is not supported"
    let _ ← u16
    let boot ← u64
    let epoch ← u32
    let incarnation ← u64
    match ← decodePolicySet with
    | .error e => return .error e
    | .ok policies =>
    match ← decodeCounted decodeEvent Limits.maxEventsPersisted
        "persisted event count exceeds the bound" with
    | .error e => return .error e
    | .ok events =>
    match ← decodeCounted decodeIntent Limits.maxInterventions
        "persisted intervention count exceeds the bound" with
    | .error e => return .error e
    | .ok interventions =>
    let state ← decodeCounters
      { boot := ⟨boot⟩, epoch := ⟨epoch⟩, incarnation := ⟨incarnation⟩, policies, events,
        interventions }
    if !(← isOk) then return Status.failure .truncated "persisted state is truncated"
    if !(← get).atEnd then
      return Status.failure .corrupt "persisted state carries trailing bytes"
    return .ok state) (.of bytes)

end Mbg
