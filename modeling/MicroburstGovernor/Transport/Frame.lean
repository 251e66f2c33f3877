import MicroburstGovernor.Core.Crc

/-! The framed wire format: a fixed header, checksum protected, and its payload.

        magic version type flags seq length │ headerCrc payloadCrc │ payload
          4      2     2     4    8    4    │     4         4      │

    The header checksum covers the 24 bytes before it. -/

namespace Mbg

/-- Message kinds carried by a frame; the wire may hold any value. -/
@[ext] structure MessageType where
  raw : UInt16
  deriving DecidableEq, Repr, Inhabited

namespace MessageType

def hello : MessageType := ⟨1⟩
def helloAck : MessageType := ⟨2⟩
def heartbeat : MessageType := ⟨3⟩
def evidence : MessageType := ⟨4⟩
def evidenceAck : MessageType := ⟨5⟩
def fence : MessageType := ⟨6⟩
def goodbye : MessageType := ⟨7⟩
def error : MessageType := ⟨8⟩

end MessageType

def isValidMessageType (raw : UInt16) : Bool :=
  raw ≥ MessageType.hello.raw && raw ≤ MessageType.error.raw

def frameHeaderBytes : ℕ := 32

/-- `MBGF`. -/
def frameMagic : UInt32 := 0x4D424746

/-- Bytes covered by the header checksum: everything before the two checksum words. -/
def headerCrcCoverage : ℕ := frameHeaderBytes - 8

structure FrameHeader where
  version : UInt16 := wireProtocolVersion
  type : MessageType := MessageType.hello
  flags : UInt32 := 0
  seq : FrameSeq := default
  payloadLength : UInt32 := 0
  deriving DecidableEq, Repr, Inhabited

structure Frame where
  header : FrameHeader := {}
  payload : Bytes := []
  deriving DecidableEq, Repr, Inhabited

/-! ### Encoding -/

open ByteWriter in
/-- The header fields that the header checksum covers. -/
def headerFields (header : FrameHeader) : Bytes :=
  [u32 frameMagic, u16 header.version, u16 header.type.raw, u32 header.flags, u64 header.seq.raw,
    u32 header.payloadLength].flatten

open ByteWriter in
def buildHeader (header : FrameHeader) (payloadCrc : UInt32) : Bytes :=
  [headerFields header, u32 (Crc32c.compute (headerFields header)), u32 payloadCrc].flatten

/-- A frame under the length of its own payload. -/
def Frame.stamped (frame : Frame) : Frame :=
  { frame with
    header := { frame.header with payloadLength := frame.payload.length.toUInt32 } }

/-- Encodes a frame; the declared payload length is stamped from the payload itself. -/
def encodeFrame (frame : Frame) : Except Failure Bytes :=
  if frame.payload.length > Limits.maxFramePayloadBytes.toNat then
    Status.failure .oversized "frame payload exceeds the protocol bound"
  else if !isValidMessageType frame.header.type.raw then
    Status.failure .invalidArgument "frame message type is not defined"
  else if frame.header.version ≠ wireProtocolVersion then
    Status.failure .unsupported "frame protocol version is not supported"
  else .ok (buildHeader frame.stamped.header (Crc32c.compute frame.payload) ++ frame.payload)

/-! ### Decoding -/

open ByteReader in
/-- The reads of `decode_header`, over the whole header image. -/
def readHeader (headerBytes : Bytes) : ReaderM (Except Failure FrameHeader) := do
  let magic ← u32
  if magic ≠ frameMagic then return Status.failure .corrupt "frame magic mismatch"
  let version ← u16
  if version ≠ wireProtocolVersion then
    return Status.failure .unsupported "frame protocol version is not supported"
  let rawType ← u16
  if !isValidMessageType rawType then
    return Status.failure .corrupt "frame message type is not defined"
  let flags ← u32
  let seq ← u64
  let payloadLength ← u32
  let headerCrc ← u32
  let _payloadCrc ← u32
  if !(← isOk) then return Status.failure .truncated "frame header is truncated"
  if Crc32c.compute (headerBytes.take headerCrcCoverage) ≠ headerCrc then
    return Status.failure .corrupt "frame header checksum mismatch"
  if payloadLength > Limits.maxFramePayloadBytes then
    return Status.failure .oversized "frame payload length exceeds the bound"
  return .ok { version, type := ⟨rawType⟩, flags, seq := ⟨seq⟩, payloadLength }

/-- Validates the header image on its own, without the payload present. -/
def decodeHeader (headerBytes : Bytes) : Except Failure FrameHeader :=
  if headerBytes.length ≠ frameHeaderBytes then
    Status.failure .truncated "frame header is not a full header"
  else (readHeader headerBytes (.of headerBytes)).1

/-- The payload checksum word, the last of the header. -/
def payloadCrcWord (bytes : Bytes) : UInt32 :=
  (ByteReader.u32 (.of ((bytes.drop (frameHeaderBytes - 4)).take 4))).1

/-- Validates a complete frame image. -/
def decodeFrame (bytes : Bytes) : Except Failure Frame :=
  if bytes.length < frameHeaderBytes then
    Status.failure .truncated "frame is shorter than its header"
  else do
    let header ← decodeHeader (bytes.take frameHeaderBytes)
    let expected := frameHeaderBytes + header.payloadLength.toNat
    if bytes.length < expected then
      Status.failure .truncated "frame payload is incomplete"
    else if bytes.length > expected then
      Status.failure .corrupt "frame carries trailing bytes"
    else
      let payload := (bytes.drop frameHeaderBytes).take header.payloadLength.toNat
      if Crc32c.compute payload ≠ payloadCrcWord bytes then
        Status.failure .corrupt "frame payload checksum mismatch"
      else .ok { header, payload }

/-! ### What the decoder accepts -/

open ByteWriter

@[simp] theorem length_headerFields (header : FrameHeader) : (headerFields header).length = 24 := rfl

@[simp] theorem length_buildHeader (header : FrameHeader) (crc : UInt32) :
    (buildHeader header crc).length = 32 := rfl

/-- What both codecs demand of a header. -/
structure FrameHeader.WellFormed (header : FrameHeader) : Prop where
  version : header.version = wireProtocolVersion
  type : isValidMessageType header.type.raw = true
  length : header.payloadLength ≤ Limits.maxFramePayloadBytes

/-- The image of a header from the values of its words. -/
def headerImage (magic : UInt32) (h : FrameHeader) (headerCrc payloadCrc : UInt32) : Bytes :=
  [u32 magic, u16 h.version, u16 h.type.raw, u32 h.flags, u64 h.seq.raw, u32 h.payloadLength,
    u32 headerCrc, u32 payloadCrc].flatten

theorem buildHeader_eq (h : FrameHeader) (crc : UInt32) : buildHeader h crc =
    headerImage frameMagic h (Crc32c.compute (headerFields h)) crc := by
  simp only [buildHeader, headerImage, headerFields, List.flatten_cons, List.flatten_nil,
    List.append_assoc, List.append_nil]

theorem readHeader_image (magic : UInt32) (h : FrameHeader) (headerCrc payloadCrc : UInt32)
    (bytes : Bytes) :
    (readHeader bytes (.of (headerImage magic h headerCrc payloadCrc))).1 =
      if magic ≠ frameMagic then Status.failure .corrupt "frame magic mismatch"
      else if h.version ≠ wireProtocolVersion then
        Status.failure .unsupported "frame protocol version is not supported"
      else if !isValidMessageType h.type.raw then
        Status.failure .corrupt "frame message type is not defined"
      else if Crc32c.compute (bytes.take headerCrcCoverage) ≠ headerCrc then
        Status.failure .corrupt "frame header checksum mismatch"
      else if h.payloadLength > Limits.maxFramePayloadBytes then
        Status.failure .oversized "frame payload length exceeds the bound"
      else .ok h := by
  simp only [readHeader, headerImage, List.flatten_cons, List.flatten_nil, ByteReader.u32_bind,
    ByteReader.u16_bind, ByteReader.u64_bind, ByteReader.isOk_bind, ByteReader.ite_run,
    ByteReader.pure_apply, Bool.not_true, Bool.false_eq_true, if_false]
  simp only [apply_ite Prod.fst]

/-- Any 32 bytes are the image of some words. -/
theorem exists_headerImage {bytes : Bytes} (h : bytes.length = 32) :
    ∃ magic header headerCrc payloadCrc, bytes = headerImage magic header headerCrc payloadCrc := by
  obtain ⟨magic, d₁, h₁, rfl⟩ := exists_u32 h
  obtain ⟨version, d₂, h₂, rfl⟩ := exists_u16 h₁
  obtain ⟨type, d₃, h₃, rfl⟩ := exists_u16 h₂
  obtain ⟨flags, d₄, h₄, rfl⟩ := exists_u32 h₃
  obtain ⟨seq, d₅, h₅, rfl⟩ := exists_u64 h₄
  obtain ⟨payloadLength, d₆, h₆, rfl⟩ := exists_u32 h₅
  obtain ⟨headerCrc, d₇, h₇, rfl⟩ := exists_u32 h₆
  obtain ⟨payloadCrc, d₈, h₈, rfl⟩ := exists_u32 h₇
  obtain rfl := List.length_eq_zero_iff.mp h₈
  exact ⟨magic, { version, type := ⟨type⟩, flags, seq := ⟨seq⟩, payloadLength }, headerCrc, payloadCrc, by
    simp only [headerImage, List.flatten_cons, List.flatten_nil]⟩

theorem take_headerImage (h : FrameHeader) (headerCrc payloadCrc : UInt32) :
    (headerImage frameMagic h headerCrc payloadCrc).take headerCrcCoverage = headerFields h := by
  have hsplit : headerImage frameMagic h headerCrc payloadCrc =
      headerFields h ++ (u32 headerCrc ++ u32 payloadCrc) := by
    simp only [headerImage, headerFields, List.flatten_cons, List.flatten_nil, List.append_assoc,
      List.append_nil]
  rw [hsplit]
  exact List.take_left' rfl

/-- HEADER: what is accepted is what was built, for a well formed header. -/
theorem decodeHeader_eq_ok {bytes : Bytes} {h : FrameHeader} :
    decodeHeader bytes = .ok h ↔ h.WellFormed ∧ ∃ crc, bytes = buildHeader h crc := by
  constructor
  · intro hok
    rw [decodeHeader] at hok
    split at hok
    · cases hok
    · rename_i hlength
      obtain ⟨magic, header, headerCrc, payloadCrc, rfl⟩ :=
        exists_headerImage (Decidable.not_not.mp hlength)
      rw [readHeader_image] at hok
      split_ifs at hok with hmagic hversion htype hcrc hbound
      all_goals cases hok
      rw [not_not] at hmagic
      subst hmagic
      rw [take_headerImage, not_not] at hcrc
      refine ⟨⟨not_not.mp hversion, by simpa using htype, by simpa using hbound⟩, payloadCrc, ?_⟩
      rw [buildHeader_eq, hcrc]
  · rintro ⟨⟨hversion, htype, hbound⟩, crc, rfl⟩
    have hlength : (buildHeader h crc).length = frameHeaderBytes := rfl
    have hnot : ¬ h.payloadLength > Limits.maxFramePayloadBytes := by simpa using hbound
    rw [decodeHeader, if_neg (not_not.mpr hlength), buildHeader_eq, readHeader_image, take_headerImage]
    simp [hversion, htype, hnot]

theorem payloadCrcWord_build (h : FrameHeader) (crc : UInt32) (payload : Bytes) :
    payloadCrcWord (buildHeader h crc ++ payload) = crc := by
  have hsplit : buildHeader h crc ++ payload =
      (headerFields h ++ u32 (Crc32c.compute (headerFields h))) ++ (u32 crc ++ payload) := by
    simp only [buildHeader, List.flatten_cons, List.flatten_nil, List.append_assoc, List.append_nil]
  have hword : ((buildHeader h crc ++ payload).drop (frameHeaderBytes - 4)).take 4 = u32 crc := by
    rw [hsplit, List.drop_left' (by rfl), List.take_left' (by rfl)]
  have hread := ByteReader.u32_write crc []
  rw [List.append_nil] at hread
  rw [payloadCrcWord, hword, hread]

/-- What a frame is made of when both codecs agree on it: a well formed header that declares the
    length of its payload. -/
structure Frame.WellFormed (frame : Frame) : Prop where
  header : frame.header.WellFormed
  length : frame.header.payloadLength.toNat = frame.payload.length

/-- The complete image of a frame. -/
def Frame.image (frame : Frame) : Bytes :=
  buildHeader frame.header (Crc32c.compute frame.payload) ++ frame.payload

theorem take_image (frame : Frame) : frame.image.take frameHeaderBytes =
    buildHeader frame.header (Crc32c.compute frame.payload) := List.take_left' rfl

theorem drop_image (frame : Frame) : frame.image.drop frameHeaderBytes = frame.payload :=
  List.drop_left' rfl

theorem length_image (frame : Frame) :
    frame.image.length = frameHeaderBytes + frame.payload.length := by
  rw [Frame.image, List.length_append, length_buildHeader]
  rfl

/-- FRAME: what is accepted is the image of a well formed frame. -/
theorem decodeFrame_eq_ok {bytes : Bytes} {frame : Frame} :
    decodeFrame bytes = .ok frame ↔ frame.WellFormed ∧ bytes = frame.image := by
  constructor
  · intro hok
    rw [decodeFrame] at hok
    split at hok
    · cases hok
    · rename_i hshort
      obtain ⟨header, hheader, hok⟩ := Status.bind_eq_ok.mp hok
      obtain ⟨hwell, crc, htake⟩ := decodeHeader_eq_ok.mp hheader
      dsimp only at hok
      split_ifs at hok with hincomplete htrailing hcrc
      all_goals cases hok
      have hbytes : buildHeader header crc ++ bytes.drop frameHeaderBytes = bytes := by
        rw [← htake, List.take_append_drop]
      have hlength : (bytes.drop frameHeaderBytes).length = header.payloadLength.toNat := by
        rw [List.length_drop]
        omega
      have hpayload : (bytes.drop frameHeaderBytes).take header.payloadLength.toNat =
          bytes.drop frameHeaderBytes := List.take_of_length_le (Nat.le_of_eq hlength)
      rw [hpayload] at hcrc ⊢
      have hword : payloadCrcWord bytes = crc := by
        conv_lhs => rw [← hbytes]
        exact payloadCrcWord_build header crc _
      refine ⟨⟨hwell, hlength.symm⟩, ?_⟩
      rw [Frame.image, not_not.mp hcrc, hword]
      exact hbytes.symm
  · rintro ⟨⟨hwell, hlength⟩, rfl⟩
    have hheader : decodeHeader (frame.image.take frameHeaderBytes) = .ok frame.header :=
      decodeHeader_eq_ok.mpr ⟨hwell, _, take_image frame⟩
    have hword : payloadCrcWord frame.image = Crc32c.compute frame.payload :=
      payloadCrcWord_build _ _ _
    have hpayload : frame.payload.take frame.header.payloadLength.toNat = frame.payload :=
      List.take_of_length_le (Nat.le_of_eq hlength.symm)
    have htotal := length_image frame
    rw [← hlength] at htotal
    simp [decodeFrame, hheader, htotal, drop_image, hpayload, hword, bind, Except.bind]

theorem toNat_length_toUInt32_of_le {n : ℕ} (h : ¬ n > Limits.maxFramePayloadBytes.toNat) :
    n.toUInt32.toNat = n ∧ n.toUInt32 ≤ Limits.maxFramePayloadBytes := by
  have hbound : Limits.maxFramePayloadBytes.toNat = 1048576 := rfl
  have hsame : n.toUInt32.toNat = n := by
    rw [UInt32.toNat_ofNat']
    omega
  exact ⟨hsame, UInt32.le_iff_toNat_le.mpr (by omega)⟩

/-- What is encoded is the image of the frame under the length of its payload. -/
theorem encodeFrame_eq_ok {bytes : Bytes} {frame : Frame} :
    encodeFrame frame = .ok bytes ↔ frame.stamped.WellFormed ∧ bytes = frame.stamped.image := by
  rw [encodeFrame]
  constructor
  · intro hok
    split_ifs at hok with hlength htype hversion
    all_goals cases hok
    obtain ⟨hsame, hbound⟩ := toNat_length_toUInt32_of_le hlength
    have htype' : isValidMessageType frame.header.type.raw = true := by simpa using htype
    exact ⟨⟨⟨not_not.mp hversion, htype', hbound⟩, hsame⟩, rfl⟩
  · rintro ⟨⟨⟨hversion, htype, hbound⟩, hlength⟩, rfl⟩
    have hle : ¬ frame.payload.length > Limits.maxFramePayloadBytes.toNat := by
      have hsame : frame.payload.length.toUInt32.toNat = frame.payload.length := hlength
      have hbound' := UInt32.le_iff_toNat_le.mp hbound
      have hdeclared : frame.stamped.header.payloadLength = frame.payload.length.toUInt32 := rfl
      rw [hdeclared, hsame] at hbound'
      omega
    have hversion' : frame.header.version = wireProtocolVersion := hversion
    have htype' : isValidMessageType frame.header.type.raw = true := htype
    rw [if_neg hle, if_neg (by simp [htype']), if_neg (not_not.mpr hversion')]
    rfl

/-- A well formed frame is already stamped. -/
theorem Frame.WellFormed.stamped_eq {frame : Frame} (h : frame.WellFormed) :
    frame.stamped = frame := by
  have hlength : frame.payload.length.toUInt32 = frame.header.payloadLength := by
    rw [← h.length]
    simp
  rw [Frame.stamped, hlength]

/-- THE DECODER ACCEPTS THE ENCODER'S IMAGE, and nothing else: an encoded frame is read back under
    the length of its payload, and what is read back encodes to the bytes it was read from. -/
theorem decodeFrame_encodeFrame :
    (∀ frame image, encodeFrame frame = .ok image →
      decodeFrame image = .ok { frame with
        header := { frame.header with payloadLength := frame.payload.length.toUInt32 } } ∧
      frame.payload.length.toUInt32.toNat = frame.payload.length) ∧
    ∀ image frame, decodeFrame image = .ok frame → encodeFrame frame = .ok image := by
  refine ⟨fun frame image hencoded => ?_, fun image frame hdecoded => ?_⟩
  · obtain ⟨hwell, himage⟩ := encodeFrame_eq_ok.mp hencoded
    exact ⟨decodeFrame_eq_ok.mpr ⟨hwell, himage⟩, hwell.length⟩
  · obtain ⟨hwell, himage⟩ := decodeFrame_eq_ok.mp hdecoded
    rw [encodeFrame_eq_ok, hwell.stamped_eq]
    exact ⟨hwell, himage⟩

/-! ### Damage -/

open TableChecksum (DiffersWithin)

/-- A run that lies in the second part leaves the first alone. -/
theorem differsWithin_right {i n : ℕ} {a a' b b' : Bytes} (hlen : a.length = a'.length)
    (h : DiffersWithin i n (a ++ b) (a' ++ b')) (hi : a.length ≤ i) :
    a = a' ∧ DiffersWithin (i - a.length) n b b' := by
  have hlen' : b.length = b'.length := by simpa [hlen] using h.length
  have hfront : a = a' := by
    refine List.ext_getElem? fun j => ?_
    by_cases hj : j < a.length
    · have hsame := h.same j (Or.inl (Nat.lt_of_lt_of_le hj hi))
      rwa [List.getElem?_append_left hj, List.getElem?_append_left (hlen ▸ hj)] at hsame
    · rw [List.getElem?_eq_none (by omega), List.getElem?_eq_none (by omega)]
  subst hfront
  refine ⟨rfl, hlen', fun j hj => ?_⟩
  have hsame := h.same (a.length + j) (by omega)
  rwa [List.getElem?_append_right (Nat.le_add_right _ _),
    List.getElem?_append_right (Nat.le_add_right _ _), Nat.add_sub_cancel_left] at hsame

/-- A run that lies in the first part leaves the second alone. -/
theorem differsWithin_left {i n : ℕ} {a a' b b' : Bytes} (hlen : a.length = a'.length)
    (h : DiffersWithin i n (a ++ b) (a' ++ b')) (hi : i + n ≤ a.length) :
    DiffersWithin i n a a' ∧ b = b' := by
  have hback : b = b' := by
    refine List.ext_getElem? fun j => ?_
    have hsame := h.same (a.length + j) (Or.inr (by omega))
    rw [List.getElem?_append_right (by omega), List.getElem?_append_right (by omega)] at hsame
    simpa [hlen] using hsame
  refine ⟨⟨hlen, fun j hj => ?_⟩, hback⟩
  by_cases hin : j < a.length
  · have hsame := h.same j hj
    rwa [List.getElem?_append_left hin, List.getElem?_append_left (hlen ▸ hin)] at hsame
  · rw [List.getElem?_eq_none (by omega), List.getElem?_eq_none (by omega)]

/-- Two images that differ within a short run of the payload, or of the checksummed header bytes,
    are equal. -/
theorem image_eq_of_differsWithin {i n : ℕ} {frame frame' : Frame}
    (h : DiffersWithin i n frame'.image frame.image) (hn : n ≤ 4)
    (hrun : i + n ≤ headerCrcCoverage ∨ frameHeaderBytes ≤ i) : frame'.image = frame.image := by
  have hsplit : ∀ f : Frame, f.image = headerFields f.header ++
      (u32 (Crc32c.compute (headerFields f.header)) ++ (u32 (Crc32c.compute f.payload) ++ f.payload)) := by
    intro f
    simp only [Frame.image, buildHeader, List.flatten_cons, List.flatten_nil, List.append_assoc,
      List.append_nil]
  have hwords : ∀ {v w : UInt32} {x y : Bytes}, u32 v ++ x = u32 w ++ y → v = w := by
    intro v w x y heq
    have hread := congrArg (fun b => (ByteReader.u32 (.of b)).1) heq
    simpa using hread
  rcases hrun with hrun | hrun
  · have hin : i + n ≤ (headerFields frame'.header).length := hrun
    rw [hsplit frame', hsplit frame] at h ⊢
    obtain ⟨hfields, hrest⟩ := differsWithin_left
      (by rw [length_headerFields, length_headerFields]) h hin
    -- the checksum of the header fields stands unchanged behind them
    have hcrc := hwords hrest
    by_cases hne : headerFields frame'.header = headerFields frame.header
    · rw [hrest, hne]
    · exact absurd hcrc (Crc32c.compute_ne hfields hn hne)
  · have hin : (buildHeader frame'.header (Crc32c.compute frame'.payload)).length ≤ i := hrun
    rw [Frame.image, Frame.image] at h ⊢
    obtain ⟨hheader, hpayload⟩ := differsWithin_right
      (by rw [length_buildHeader, length_buildHeader]) h hin
    have hcrc : Crc32c.compute frame'.payload = Crc32c.compute frame.payload := by
      have hword := congrArg (fun b => payloadCrcWord (b ++ [])) hheader
      simpa only [payloadCrcWord_build] using hword
    by_cases hne : frame'.payload = frame.payload
    · rw [hheader, hne]
    · exact absurd hcrc (Crc32c.compute_ne hpayload hn hne)

/-- BURSTS ARE DETECTED: an image damaged within at most four consecutive bytes of the payload, or of
    the checksummed header bytes, is refused; and no such damage keeps a checksum. -/
theorem burst_detected :
    (∀ frame image damaged i n, encodeFrame frame = .ok image →
      DiffersWithin i n damaged image → damaged ≠ image → n ≤ 4 →
      (i + n ≤ headerCrcCoverage ∨ frameHeaderBytes ≤ i) →
      ∃ failure, decodeFrame damaged = .error failure) ∧
    ∀ a b i n, DiffersWithin i n a b → a ≠ b → n ≤ 4 → Crc32c.compute a ≠ Crc32c.compute b := by
  refine ⟨fun frame image damaged i n hencoded hdamage hne hn hrun => ?_,
    fun a b i n h hne hn => Crc32c.compute_ne h hn hne⟩
  obtain ⟨-, rfl⟩ := encodeFrame_eq_ok.mp hencoded
  cases hdecoded : decodeFrame damaged with
  | error failure => exact ⟨failure, rfl⟩
  | ok frame' =>
    obtain ⟨-, rfl⟩ := decodeFrame_eq_ok.mp hdecoded
    exact absurd (image_eq_of_differsWithin hdamage hn hrun) hne

/-- A goodbye with one byte of payload, damaged in it. -/
example : ((encodeFrame { header := { type := .goodbye }, payload := [7] }).toOption.map fun image =>
    (decodeFrame (image.set 32 9)).toOption) = some none := by decide +kernel

end Mbg
