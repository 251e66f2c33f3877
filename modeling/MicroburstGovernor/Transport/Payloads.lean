import MicroburstGovernor.Model.Sample
import MicroburstGovernor.Persist.Snapshot
import MicroburstGovernor.Transport.Frame

/-! The payloads of the wire protocol: what a coordinator decodes, and what it answers. -/

namespace Mbg

/-! ### Requests -/

structure HelloRequest where
  protocol : UInt16 := wireProtocolVersion
  worker : WorkerId := default
  incarnation : IncarnationId := default
  boot : BootId := default
  epoch : Epoch := default
  firstTick : Tick := {}
  deriving DecidableEq, Repr, Inhabited

open ByteReader in
def decodeHello : ReaderM (Except Failure HelloRequest) := do
  let message : HelloRequest :=
    { protocol := ← u16, worker := ⟨← u64⟩, incarnation := ⟨← u64⟩, boot := ⟨← u64⟩,
      epoch := ⟨← u32⟩, firstTick := ⟨← u64⟩ }
  if !(← isOk) then return Status.failure .truncated "hello payload is truncated"
  if !(← get).atEnd then return Status.failure .corrupt "hello payload carries trailing bytes"
  if !message.worker.valid then
    return Status.failure .invalidArgument "hello carries no worker identity"
  return .ok message

structure Heartbeat where
  worker : WorkerId := default
  tick : Tick := {}
  epoch : Epoch := default
  framesSent : UInt64 := 0
  deriving DecidableEq, Repr, Inhabited

open ByteReader in
def decodeHeartbeat : ReaderM (Except Failure Heartbeat) := do
  let message : Heartbeat :=
    { worker := ⟨← u64⟩, tick := ⟨← u64⟩, epoch := ⟨← u32⟩, framesSent := ← u64 }
  if !(← isOk) then return Status.failure .truncated "heartbeat payload is truncated"
  if !(← get).atEnd then return Status.failure .corrupt "heartbeat payload carries trailing bytes"
  return .ok message

/-- The flags a sample may carry. -/
def knownFlags : SampleFlags := 0x1F

/-- The fixed class array over the classes that were read. -/
def fillClasses (classes : List ClassId) : Vector ClassId 4 :=
  Vector.ofFn fun i => classes.getD i default

open ByteReader in
/-- Reads so many identities, one after another. -/
def readClasses : ℕ → ReaderM (List ClassId)
  | 0 => return []
  | count + 1 => do
    let id ← u64
    return ⟨id⟩ :: (← readClasses count)

open ByteReader in
def decodeSample : ReaderM (Except Failure Sample) := do
  let sample : Sample :=
    { stream := ⟨⟨← u64⟩, ⟨← u64⟩, ⟨← u64⟩⟩, tick := ⟨← u64⟩, seq := ⟨← u64⟩,
      resourceGeneration := ⟨← u32⟩, depth := ← u64, occupancyBytes := ← u64,
      capacityBytes := ← u64, ingressRateQ16 := ← i64, egressRateQ16 := ← i64,
      ingressTotal := ← u64, egressTotal := ← u64, dropTotal := ← u64, markTotal := ← u64,
      flags := ← u32, provenance := ⟨← u64⟩, affectedClassCount := ← u8 }
  if !(← isOk) then return Status.failure .truncated "sample payload is truncated"
  if sample.affectedClassCount.toNat > sample.affectedClasses.toList.length then
    return Status.failure .corrupt "sample class count exceeds the fixed capacity"
  if sample.flags &&& ~~~knownFlags ≠ 0 then
    return Status.failure .corrupt "sample carries undefined flag bits"
  let sample :=
    { sample with
      affectedClasses := fillClasses (← readClasses sample.affectedClassCount.toNat) }
  if !(← isOk) then return Status.failure .truncated "sample class list is truncated"
  return (validateSample sample).map fun _ => sample

structure EvidenceBatch where
  worker : WorkerId := default
  epoch : Epoch := default
  sampleCount : UInt32 := 0
  samples : List Sample := []
  deriving DecidableEq, Inhabited

def maxSamplesPerFrame : UInt32 := Limits.maxFramePayloadBytes / 64

open ByteReader in
def decodeBatch : ReaderM (Except Failure EvidenceBatch) := do
  let message : EvidenceBatch :=
    { worker := ⟨← u64⟩, epoch := ⟨← u32⟩, sampleCount := ← u32 }
  if !(← isOk) then return Status.failure .truncated "evidence payload is truncated"
  if message.sampleCount > maxSamplesPerFrame then
    return Status.failure .oversized "evidence batch exceeds the sample bound"
  match ← decodeMany decodeSample message.sampleCount.toNat with
  | .error e => return .error e
  | .ok samples =>
    if !(← get).atEnd then
      return Status.failure .corrupt "evidence payload carries trailing bytes"
    return .ok { message with samples }

/-! ### Answers -/

inductive HandshakeStatus where
  | accepted | staleEpoch | staleIncarnation | versionMismatch | capacityExceeded | malformed
  | fenced | staleBoot
  deriving DecidableEq, Repr, Inhabited

structure HelloResponse where
  status : HandshakeStatus := .malformed
  epoch : Epoch := default
  coordinator : IncarnationId := default
  boot : BootId := default
  maxPayloadBytes : UInt32 := Limits.maxFramePayloadBytes
  deriving DecidableEq, Repr, Inhabited

structure EvidenceAck where
  seq : FrameSeq := default
  accepted : UInt32 := 0
  rejected : UInt32 := 0
  classification : UInt8 := 0
  epoch : Epoch := default
  deriving DecidableEq, Repr, Inhabited

structure FenceNotice where
  epoch : Epoch := default
  coordinator : IncarnationId := default
  attempt : AttemptId := default
  deriving DecidableEq, Repr, Inhabited

/-- A frame a coordinator sends: its sequence and what it says. -/
inductive Reply where
  | helloAck (response : HelloResponse)
  | evidenceAck (seq : FrameSeq) (ack : EvidenceAck)
  | fence (seq : FrameSeq) (notice : FenceNotice)
  | error (code : StatusCode) (detail : String)
  deriving DecidableEq, Repr

end Mbg
