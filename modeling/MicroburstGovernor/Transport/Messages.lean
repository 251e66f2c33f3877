import MicroburstGovernor.Transport.EvidenceCodec

/-! The messages of the wire protocol: their writers, the readers of what a coordinator answers, and
    that each decoder accepts what its encoder writes and nothing else.

        worker       hello     heartbeat   evidence              goodbye
        coordinator  helloAck              evidenceAck   fence             error -/

namespace Mbg

/-! ### Writers -/

open ByteWriter in
def encodeHello (m : HelloRequest) : Bytes :=
  [u16 m.protocol, u64 m.worker.raw, u64 m.incarnation.raw, u64 m.boot.raw, u32 m.epoch.raw,
    u64 m.firstTick.value].flatten

open ByteWriter in
def encodeHeartbeat (m : Heartbeat) : Bytes :=
  [u64 m.worker.raw, u64 m.tick.value, u32 m.epoch.raw, u64 m.framesSent].flatten

namespace HandshakeStatus

def raw : HandshakeStatus → UInt8
  | accepted => 0 | staleEpoch => 1 | staleIncarnation => 2 | versionMismatch => 3
  | capacityExceeded => 4 | malformed => 5 | fenced => 6 | staleBoot => 7

def ofRaw? : UInt8 → Option HandshakeStatus
  | 0 => some accepted | 1 => some staleEpoch | 2 => some staleIncarnation
  | 3 => some versionMismatch | 4 => some capacityExceeded | 5 => some malformed | 6 => some fenced
  | 7 => some staleBoot | _ => none

@[simp] theorem ofRaw?_raw (s : HandshakeStatus) : ofRaw? s.raw = some s := by cases s <;> rfl

theorem raw_of_ofRaw? {v : UInt8} {s : HandshakeStatus} (h : ofRaw? v = some s) : s.raw = v := by
  unfold ofRaw? at h
  split at h <;> cases h <;> rfl

end HandshakeStatus

open ByteWriter in
def encodeHelloResponse (m : HelloResponse) : Bytes :=
  [u8 m.status.raw, u32 m.epoch.raw, u64 m.coordinator.raw, u64 m.boot.raw,
    u32 m.maxPayloadBytes].flatten

open ByteWriter in
def encodeEvidenceAck (m : EvidenceAck) : Bytes :=
  [u64 m.seq.raw, u32 m.accepted, u32 m.rejected, u8 m.classification, u32 m.epoch.raw].flatten

open ByteWriter in
def encodeFenceNotice (m : FenceNotice) : Bytes :=
  [u32 m.epoch.raw, u64 m.coordinator.raw, u64 m.attempt.raw].flatten

/-! ### Readers -/

open ByteReader in
def decodeHelloResponse : ReaderM (Except Failure HelloResponse) := do
  let status ← u8
  let message : HelloResponse :=
    { epoch := ⟨← u32⟩, coordinator := ⟨← u64⟩, boot := ⟨← u64⟩, maxPayloadBytes := ← u32 }
  if !(← isOk) then return Status.failure .truncated "hello response payload is truncated"
  if !(← get).atEnd then
    return Status.failure .corrupt "hello response payload carries trailing bytes"
  match HandshakeStatus.ofRaw? status with
  | none => return Status.failure .corrupt "handshake status is out of range"
  | some status => return .ok { message with status }

open ByteReader in
def decodeEvidenceAck : ReaderM (Except Failure EvidenceAck) := do
  let message : EvidenceAck :=
    { seq := ⟨← u64⟩, accepted := ← u32, rejected := ← u32, classification := ← u8,
      epoch := ⟨← u32⟩ }
  if !(← isOk) then return Status.failure .truncated "evidence ack payload is truncated"
  if !(← get).atEnd then
    return Status.failure .corrupt "evidence ack payload carries trailing bytes"
  return .ok message

open ByteReader in
def decodeFenceNotice : ReaderM (Except Failure FenceNotice) := do
  let message : FenceNotice :=
    { epoch := ⟨← u32⟩, coordinator := ⟨← u64⟩, attempt := ⟨← u64⟩ }
  if !(← isOk) then return Status.failure .truncated "fence payload is truncated"
  if !(← get).atEnd then return Status.failure .corrupt "fence payload carries trailing bytes"
  return .ok message

namespace ByteReader

/-! ### What is accepted was written -/

section

variable {γ : Type} {e : Failure} {x : ReaderM (Except Failure γ)}

theorem atEnd_bind (r : ByteReader) :
    (do if !(← get).atEnd then return .error e else x : ReaderM (Except Failure γ)) r =
      (if !r.atEnd then pure (.error e) else x : ReaderM (Except Failure γ)) r := rfl

/-- The check for trailing bytes, with more checks of the message behind it. -/
theorem consumes_end {Q : Except Failure γ → Bytes → Prop} (hx : Consumes x Q)
    (herror : Q (.error e) []) :
    Consumes (do if !(← get).atEnd then return .error e else x) Q := by
  intro r hok
  rw [atEnd_bind] at hok ⊢
  exact consumes_ite (fun _ => consumes_pure herror) (fun _ => hx) r hok

theorem ends_end (hx : ∀ r, (x r).2 = r) :
    Ends (do if !(← get).atEnd then return .error e else x) := by
  intro r a hok
  rw [atEnd_bind] at hok ⊢
  cases hend : r.atEnd with
  | true =>
    rw [hend] at hok
    exact (congrArg atEnd (hx r)).trans hend
  | false =>
    rw [hend] at hok
    cases hok

end

theorem consumes_decodeHello : Consumes decodeHello fun x w =>
    ∀ m, x = .ok m → m.worker.valid = true ∧ w = encodeHello m := by
  refine consumes_field consumes_u16 fun protocol => consumes_field consumes_u64 fun worker => ?_
  refine consumes_field consumes_u64 fun incarnation => consumes_field consumes_u64 fun boot => ?_
  refine consumes_field consumes_u32 fun epoch => consumes_field consumes_u64 fun firstTick => ?_
  refine consumes_isOk ?_ (consumes_pure trivial)
  refine consumes_ite (fun h => absurd h (by simp)) fun _ => ?_
  refine consumes_end (consumes_ite (fun _ => consumes_pure fun m h => by cases h) fun hvalid => ?_)
    fun m h => by cases h
  refine consumes_pure fun m hm => ?_
  rw [← Except.ok.inj hm]
  exact ⟨by simpa using hvalid, by simp only [encodeHello, List.flatten_cons, List.flatten_nil]⟩

theorem ends_decodeHello : Ends decodeHello := by
  refine ends_bind fun protocol => ends_bind fun worker => ends_bind fun incarnation => ?_
  refine ends_bind fun boot => ends_bind fun epoch => ends_bind fun firstTick => ends_bind fun _ => ?_
  refine ends_ite ends_failure (ends_end fun r => ?_)
  split <;> rfl

theorem consumes_decodeHeartbeat : Consumes decodeHeartbeat fun x w =>
    ∀ m, x = .ok m → True ∧ w = encodeHeartbeat m := by
  refine consumes_field consumes_u64 fun worker => consumes_field consumes_u64 fun tick => ?_
  refine consumes_field consumes_u32 fun epoch => consumes_field consumes_u64 fun framesSent => ?_
  refine consumes_isOk ?_ (consumes_pure trivial)
  refine consumes_ite (fun h => absurd h (by simp)) fun _ => ?_
  refine consumes_atEnd (fun m hm => ?_) fun m h => by cases h
  rw [← Except.ok.inj hm]
  exact ⟨trivial, by simp only [encodeHeartbeat, List.flatten_cons, List.flatten_nil]⟩

theorem ends_decodeHeartbeat : Ends decodeHeartbeat := by
  refine ends_bind fun worker => ends_bind fun tick => ends_bind fun epoch => ?_
  exact ends_bind fun framesSent => ends_bind fun _ => ends_ite ends_failure ends_atEnd

theorem consumes_decodeHelloResponse : Consumes decodeHelloResponse fun x w =>
    ∀ m, x = .ok m → True ∧ w = encodeHelloResponse m := by
  refine consumes_field consumes_u8 fun status => consumes_field consumes_u32 fun epoch => ?_
  refine consumes_field consumes_u64 fun coordinator => consumes_field consumes_u64 fun boot => ?_
  refine consumes_field consumes_u32 fun maxPayloadBytes => ?_
  refine consumes_isOk ?_ (consumes_pure trivial)
  refine consumes_ite (fun h => absurd h (by simp)) fun _ => ?_
  refine consumes_end ?_ fun m h => by cases h
  cases hstatus : HandshakeStatus.ofRaw? status with
  | none => exact consumes_pure fun m h => by cases h
  | some known =>
    refine consumes_pure fun m hm => ?_
    rw [← Except.ok.inj hm, encodeHelloResponse, HandshakeStatus.raw_of_ofRaw? hstatus]
    exact ⟨trivial, by simp only [List.flatten_cons, List.flatten_nil]⟩

theorem ends_decodeHelloResponse : Ends decodeHelloResponse := by
  refine ends_bind fun status => ends_bind fun epoch => ends_bind fun coordinator => ?_
  refine ends_bind fun boot => ends_bind fun maxPayloadBytes => ends_bind fun _ => ?_
  refine ends_ite ends_failure (ends_end fun r => ?_)
  cases HandshakeStatus.ofRaw? status <;> rfl

theorem consumes_decodeEvidenceAck : Consumes decodeEvidenceAck fun x w =>
    ∀ m, x = .ok m → True ∧ w = encodeEvidenceAck m := by
  refine consumes_field consumes_u64 fun seq => consumes_field consumes_u32 fun accepted => ?_
  refine consumes_field consumes_u32 fun rejected => consumes_field consumes_u8 fun classification => ?_
  refine consumes_field consumes_u32 fun epoch => consumes_isOk ?_ (consumes_pure trivial)
  refine consumes_ite (fun h => absurd h (by simp)) fun _ => ?_
  refine consumes_atEnd (fun m hm => ?_) fun m h => by cases h
  rw [← Except.ok.inj hm]
  exact ⟨trivial, by simp only [encodeEvidenceAck, List.flatten_cons, List.flatten_nil]⟩

theorem ends_decodeEvidenceAck : Ends decodeEvidenceAck := by
  refine ends_bind fun seq => ends_bind fun accepted => ends_bind fun rejected => ?_
  refine ends_bind fun classification => ends_bind fun epoch => ends_bind fun _ => ?_
  exact ends_ite ends_failure ends_atEnd

theorem consumes_decodeFenceNotice : Consumes decodeFenceNotice fun x w =>
    ∀ m, x = .ok m → True ∧ w = encodeFenceNotice m := by
  refine consumes_field consumes_u32 fun epoch => consumes_field consumes_u64 fun coordinator => ?_
  refine consumes_field consumes_u64 fun attempt => consumes_isOk ?_ (consumes_pure trivial)
  refine consumes_ite (fun h => absurd h (by simp)) fun _ => ?_
  refine consumes_atEnd (fun m hm => ?_) fun m h => by cases h
  rw [← Except.ok.inj hm]
  exact ⟨trivial, by simp only [encodeFenceNotice, List.flatten_cons, List.flatten_nil]⟩

theorem ends_decodeFenceNotice : Ends decodeFenceNotice := by
  refine ends_bind fun epoch => ends_bind fun coordinator => ends_bind fun attempt => ?_
  exact ends_bind fun _ => ends_ite ends_failure ends_atEnd

/-! ### What was written is read back -/

theorem decodeHello_write {m : HelloRequest} (h : m.worker.valid = true) :
    (decodeHello (of (encodeHello m))).1 = .ok m := by
  rw [encodeHello]
  simp only [List.flatten_cons, List.flatten_nil]
  rw [decodeHello]
  simp only [u16_bind, u64_bind, u32_bind, isOk_bind]
  have hvalid : (⟨m.worker.raw⟩ : WorkerId).valid = true := h
  rw [hvalid]
  rfl

theorem decodeHeartbeat_write (m : Heartbeat) :
    (decodeHeartbeat (of (encodeHeartbeat m))).1 = .ok m := by
  rw [encodeHeartbeat]
  simp only [List.flatten_cons, List.flatten_nil]
  rw [decodeHeartbeat]
  simp only [u64_bind, u32_bind, isOk_bind]
  rfl

theorem decodeHelloResponse_write (m : HelloResponse) :
    (decodeHelloResponse (of (encodeHelloResponse m))).1 = .ok m := by
  rw [encodeHelloResponse]
  simp only [List.flatten_cons, List.flatten_nil]
  rw [decodeHelloResponse]
  simp only [u8_bind, u64_bind, u32_bind, isOk_bind, HandshakeStatus.ofRaw?_raw]
  rfl

theorem decodeEvidenceAck_write (m : EvidenceAck) :
    (decodeEvidenceAck (of (encodeEvidenceAck m))).1 = .ok m := by
  rw [encodeEvidenceAck]
  simp only [List.flatten_cons, List.flatten_nil]
  rw [decodeEvidenceAck]
  simp only [u8_bind, u64_bind, u32_bind, isOk_bind]
  rfl

theorem decodeFenceNotice_write (m : FenceNotice) :
    (decodeFenceNotice (of (encodeFenceNotice m))).1 = .ok m := by
  rw [encodeFenceNotice]
  simp only [List.flatten_cons, List.flatten_nil]
  rw [decodeFenceNotice]
  simp only [u64_bind, u32_bind, isOk_bind]
  rfl

end ByteReader

open ByteReader

end Mbg
