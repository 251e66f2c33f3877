import MicroburstGovernor.Model.Event
import MicroburstGovernor.Model.Explanation

/-! Bounded corrective intent and the authority it is bound to. -/

namespace Mbg

/-- The corrective intents the governor may express; requests, never actions. -/
inductive InterventionKind where
  | requestPacing | temporaryAdmissionReduction | temporaryHeadroomIncrease
  | escalateToCongestionFabric
  deriving DecidableEq, Repr, Inhabited

namespace InterventionKind

def raw : InterventionKind → UInt8
  | requestPacing => 0
  | temporaryAdmissionReduction => 1
  | temporaryHeadroomIncrease => 2
  | escalateToCongestionFabric => 3

def ofRaw? : UInt8 → Option InterventionKind
  | 0 => some requestPacing
  | 1 => some temporaryAdmissionReduction
  | 2 => some temporaryHeadroomIncrease
  | 3 => some escalateToCongestionFabric
  | _ => none

@[simp] theorem ofRaw?_raw (k : InterventionKind) : ofRaw? k.raw = some k := by cases k <;> rfl

/-- The kinds in index order, as every loop over them visits them. -/
def all : List InterventionKind :=
  [requestPacing, temporaryAdmissionReduction, temporaryHeadroomIncrease, escalateToCongestionFabric]

end InterventionKind

/-- Lifecycle of an intent; a revoked or expired one is never resurrected. -/
inductive InterventionState where
  | requested | active | expired | revoked | fenced
  deriving DecidableEq, Repr, Inhabited

namespace InterventionState

def raw : InterventionState → UInt8
  | requested => 0
  | active => 1
  | expired => 2
  | revoked => 3
  | fenced => 4

def ofRaw? : UInt8 → Option InterventionState
  | 0 => some requested
  | 1 => some active
  | 2 => some expired
  | 3 => some revoked
  | 4 => some fenced
  | _ => none

@[simp] theorem ofRaw?_raw (s : InterventionState) : ofRaw? s.raw = some s := by cases s <;> rfl

end InterventionState

/-- The authority that must still hold for an intent to remain in force. -/
@[ext] structure AuthorityVector where
  policyGeneration : PolicyGeneration := default
  policyDigest : UInt64 := 0
  evidenceGeneration : EvidenceGeneration := default
  resourceGeneration : ResourceGeneration := default
  epoch : Epoch := default
  incarnation : IncarnationId := default
  boot : BootId := default
  issuedTick : Tick := {}
  expiryTick : Tick := {}
  deriving DecidableEq, Repr, Inhabited

/-- The authority currently observed by the governor. -/
@[ext] structure AuthorityContext where
  policyGeneration : PolicyGeneration := default
  policyDigest : UInt64 := 0
  epoch : Epoch := default
  incarnation : IncarnationId := default
  boot : BootId := default
  deriving DecidableEq, Repr, Inhabited

/-- Why an authority vector stopped being valid; the byte that is persisted. -/
@[ext] structure AuthorityVerdict where
  raw : UInt8
  deriving DecidableEq, Repr, Inhabited

namespace AuthorityVerdict

def valid : AuthorityVerdict := ⟨0⟩
def expired : AuthorityVerdict := ⟨1⟩
def policyChanged : AuthorityVerdict := ⟨2⟩
def epochChanged : AuthorityVerdict := ⟨3⟩
def incarnationChanged : AuthorityVerdict := ⟨4⟩
def bootChanged : AuthorityVerdict := ⟨5⟩
def resourceGenerationChanged : AuthorityVerdict := ⟨6⟩
def notIssued : AuthorityVerdict := ⟨7⟩
def eventClosed : AuthorityVerdict := ⟨8⟩
def interventionsDisabled : AuthorityVerdict := ⟨9⟩
def episodeFenced : AuthorityVerdict := ⟨10⟩
def durabilityLost : AuthorityVerdict := ⟨11⟩

end AuthorityVerdict

/-- Two identities that are both set and differ: an unset one matches anything. -/
def identityChanged {d : IdDomain} {Rep : Type} [DecidableEq Rep] [Complement Rep] [OfNat Rep 0]
    (a b : StrongId d Rep) : Bool :=
  a.valid && b.valid && a ≠ b

/-- Whether an authority vector is still in force at the supplied tick, and if not, why. -/
def evaluateAuthority (vector : AuthorityVector) (context : AuthorityContext)
    (observedResourceGeneration : ResourceGeneration) (now : Tick) : AuthorityVerdict :=
  if vector.policyGeneration.raw = 0 then .notIssued
  -- issued in the future relative to the observation point
  else if tickAfter now vector.issuedTick then .notIssued
  else if identityChanged vector.boot context.boot then .bootChanged
  else if identityChanged vector.incarnation context.incarnation then .incarnationChanged
  else if identityChanged vector.epoch context.epoch then .epochChanged
  else if vector.policyGeneration ≠ context.policyGeneration ∨
      vector.policyDigest ≠ context.policyDigest then .policyChanged
  else if identityChanged observedResourceGeneration vector.resourceGeneration then
    .resourceGenerationChanged
  else if !tickAfter now vector.expiryTick then .expired
  else .valid

/-- An authority vector in force: every check of `evaluateAuthority` passed. -/
theorem evaluateAuthority_eq_valid {v : AuthorityVector} {c : AuthorityContext}
    {g : ResourceGeneration} {now : Tick} : evaluateAuthority v c g now = .valid ↔
      v.policyGeneration.raw ≠ 0 ∧ tickAfter now v.issuedTick = false ∧
      identityChanged v.boot c.boot = false ∧ identityChanged v.incarnation c.incarnation = false ∧
      identityChanged v.epoch c.epoch = false ∧ v.policyGeneration = c.policyGeneration ∧
      v.policyDigest = c.policyDigest ∧ identityChanged g v.resourceGeneration = false ∧
      tickAfter now v.expiryTick = true := by
  rw [evaluateAuthority]
  repeat' split
  all_goals simp_all [AuthorityVerdict.valid, AuthorityVerdict.notIssued,
    AuthorityVerdict.bootChanged, AuthorityVerdict.incarnationChanged,
    AuthorityVerdict.epochChanged, AuthorityVerdict.policyChanged,
    AuthorityVerdict.resourceGenerationChanged, AuthorityVerdict.expired]
  tauto

@[ext] structure InterventionIntent where
  id : InterventionId := default
  event : EventId := default
  stream : StreamKey := default
  kind : InterventionKind := .requestPacing
  state : InterventionState := .requested
  magnitudePermille : UInt32 := 0
  ttlTicks : Tick := {}
  authority : AuthorityVector := {}
  seq : DecisionSeq := default
  justificationSeverity : SeverityClass := SeverityClass.none
  trigger : ReasonCode := ReasonCode.none
  stateChangedTick : Tick := {}
  revocationVerdict : AuthorityVerdict := AuthorityVerdict.valid
  deriving DecidableEq, Repr, Inhabited

def InterventionIntent.live (i : InterventionIntent) : Bool :=
  i.state = .requested || i.state = .active

/-! ### Durable form -/

open ByteWriter in
def encodeAuthority (a : AuthorityVector) : Bytes :=
  [u32 a.policyGeneration.raw, u64 a.policyDigest, u64 a.evidenceGeneration.raw,
    u32 a.resourceGeneration.raw, u32 a.epoch.raw, u64 a.incarnation.raw, u64 a.boot.raw,
    u64 a.issuedTick.value, u64 a.expiryTick.value].flatten

open ByteReader in
def decodeAuthority : ReaderM AuthorityVector := do
  return {
    policyGeneration := ⟨← u32⟩, policyDigest := ← u64, evidenceGeneration := ⟨← u64⟩,
    resourceGeneration := ⟨← u32⟩, epoch := ⟨← u32⟩, incarnation := ⟨← u64⟩, boot := ⟨← u64⟩,
    issuedTick := ⟨← u64⟩, expiryTick := ⟨← u64⟩ }

open ByteWriter in
def encodeIntent (i : InterventionIntent) : Bytes :=
  [u64 i.id.raw, u64 i.event.raw, encodeStream i.stream, u8 i.kind.raw, u8 i.state.raw,
    u32 i.magnitudePermille, u64 i.ttlTicks.value, encodeAuthority i.authority, u64 i.seq.raw,
    u8 i.justificationSeverity.raw, u16 i.trigger.raw, u64 i.stateChangedTick.value,
    u8 i.revocationVerdict.raw].flatten

theorem length_encodeIntent (i : InterventionIntent) : (encodeIntent i).length = 134 := by
  simp [encodeIntent, encodeAuthority, encodeStream]

open ByteReader in
def decodeIntent : ReaderM (Except Failure InterventionIntent) := do
  let id ← u64
  let event ← u64
  let stream ← decodeStream
  let kind ← u8
  let state ← u8
  let magnitudePermille ← u32
  let ttlTicks ← u64
  let authority ← decodeAuthority
  let seq ← u64
  let justificationSeverity ← u8
  let trigger ← u16
  let stateChangedTick ← u64
  let revocationVerdict ← u8
  if !(← isOk) then return Status.failure .truncated "intervention payload is truncated"
  let some kind := InterventionKind.ofRaw? kind
    | return Status.failure .corrupt "intervention kind is out of range"
  let some state := InterventionState.ofRaw? state
    | return Status.failure .corrupt "intervention state is out of range"
  if magnitudePermille > Limits.maxMagnitudePermille then
    return Status.failure .corrupt "intervention magnitude is out of range"
  if !isValidSeverity justificationSeverity then
    return Status.failure .corrupt "intervention severity is out of range"
  if !stream.valid then
    return Status.failure .corrupt "intervention stream identity is incomplete"
  return .ok
    { id := ⟨id⟩, event := ⟨event⟩, stream, kind, state, magnitudePermille, ttlTicks := ⟨ttlTicks⟩,
      authority, seq := ⟨seq⟩, justificationSeverity := ⟨justificationSeverity⟩,
      trigger := ⟨trigger⟩, stateChangedTick := ⟨stateChangedTick⟩,
      revocationVerdict := ⟨revocationVerdict⟩ }

/-- What `decodeIntent` demands of an intent beyond its bytes. -/
structure InterventionIntent.WellFormed (i : InterventionIntent) : Prop where
  magnitude : i.magnitudePermille ≤ Limits.maxMagnitudePermille
  severity : isValidSeverity i.justificationSeverity.raw
  stream : i.stream.valid

namespace ByteReader

@[simp] theorem decodeAuthority_write (a : AuthorityVector) (rest : Bytes) :
    decodeAuthority (of (encodeAuthority a ++ rest)) = (a, of rest) := by
  simp only [decodeAuthority, encodeAuthority, List.flatten_cons, List.append_assoc, u64_bind,
    u32_bind, List.flatten_nil, List.nil_append, pure_apply]

/-- A well formed intent is read back as it was written. -/
theorem decodeIntent_write {i : InterventionIntent} (h : i.WellFormed) (rest : Bytes) :
    decodeIntent (of (encodeIntent i ++ rest)) = (.ok i, of rest) := by
  obtain ⟨hm, hsev, hs⟩ := h
  have hmag : ¬ i.magnitudePermille > Limits.maxMagnitudePermille := by simpa using hm
  simp only [decodeIntent, encodeIntent, List.flatten_cons, List.append_assoc, u64_bind, u32_bind,
    u16_bind, u8_bind, bind_of_eq (decodeStream_write _ _), bind_of_eq (decodeAuthority_write _ _),
    isOk_bind, List.flatten_nil, List.nil_append]
  simp only [hmag, hsev, hs, InterventionKind.ofRaw?_raw, InterventionState.ofRaw?_raw]
  rfl

theorem wellFormed_of_decodeIntent : Always (fun x : Except Failure InterventionIntent =>
    ∀ i, x = .ok i → i.WellFormed) decodeIntent := by
  rw [decodeIntent]
  iterate 14 refine always_bind fun _ => ?_
  refine always_ite (fun _ => always_failure) fun _ => ?_
  cases InterventionKind.ofRaw? _ with
  | none => exact always_failure
  | some kind =>
  cases InterventionState.ofRaw? _ with
  | none => exact always_failure
  | some state =>
  refine always_ite (fun _ => always_failure) fun hmagnitude => ?_
  refine always_ite (fun _ => always_failure) fun hseverity => ?_
  refine always_ite (fun _ => always_failure) fun hstream => always_pure ?_
  rintro i hi
  rw [← Except.ok.inj hi]
  exact ⟨by simpa using hmagnitude, by simpa using hseverity, by simpa using hstream⟩

end ByteReader

end Mbg
