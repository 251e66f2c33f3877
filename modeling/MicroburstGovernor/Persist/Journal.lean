import MicroburstGovernor.Core.Bytes
import MicroburstGovernor.Lib.Framing
import MicroburstGovernor.Model.Tick

/-! The journal and snapshot formats: building a record, scanning an image, dispatching its records.

    A record is a 44-byte header and its payload; a snapshot is a 40-byte header, its payload and a
    4-byte trailer.

        magic version type flags seq tick length headerCrc payloadCrc │ payload
          8      2     2     4    8   8     4        4         4      │

    The header checksum covers the 36 bytes before it. -/

namespace Mbg

/-- Record kinds written to the journal. -/
inductive RecordType where
  | unknown | authorityBound | policyInstalled | episodeOpened | episodeUpdated | episodeClosed
  | episodeFenced | interventionRequested | interventionStateChanged | checkpoint
  deriving DecidableEq, Repr, Inhabited

namespace RecordType

def raw : RecordType → UInt16
  | unknown => 0
  | authorityBound => 1
  | policyInstalled => 2
  | episodeOpened => 3
  | episodeUpdated => 4
  | episodeClosed => 5
  | episodeFenced => 6
  | interventionRequested => 7
  | interventionStateChanged => 8
  | checkpoint => 9

def ofRaw? : UInt16 → Option RecordType
  | 0 => some unknown
  | 1 => some authorityBound
  | 2 => some policyInstalled
  | 3 => some episodeOpened
  | 4 => some episodeUpdated
  | 5 => some episodeClosed
  | 6 => some episodeFenced
  | 7 => some interventionRequested
  | 8 => some interventionStateChanged
  | 9 => some checkpoint
  | _ => none

@[simp] theorem ofRaw?_raw (t : RecordType) : ofRaw? t.raw = some t := by cases t <;> rfl

end RecordType

def isValidRecordType (raw : UInt16) : Bool :=
  raw ≥ RecordType.authorityBound.raw && raw ≤ RecordType.checkpoint.raw

/-- How recovery classified the journal tail. -/
inductive RecoveryOutcome where
  | clean | truncatedTail | corruptTail | missing | versionMismatch | oversized
  deriving DecidableEq, Repr, Inhabited

def RecoveryOutcome.toText : RecoveryOutcome → String
  | clean => "clean"
  | truncatedTail => "truncated-tail"
  | corruptTail => "corrupt-tail"
  | missing => "missing"
  | versionMismatch => "version-mismatch"
  | oversized => "oversized"

structure RecoveryReport where
  outcome : RecoveryOutcome := .missing
  formatVersion : UInt16 := 0
  recordsReplayed : ℕ := 0
  bytesValid : ℕ := 0
  bytesDiscarded : ℕ := 0
  snapshotCoveredSeq : UInt64 := 0
  snapshotPresent : Bool := false
  detail : String := ""
  deriving DecidableEq, Repr, Inhabited

/-- A journal record as recovery delivers it. -/
structure JournaledRecord where
  type : RecordType := .unknown
  seq : RecordSeq := default
  tick : Tick := {}
  payload : Bytes := []
  deriving DecidableEq, Repr, Inhabited

/-! ### Framing -/

namespace Framing

def recordHeaderBytes : ℕ := 44
def snapshotHeaderBytes : ℕ := 40
def snapshotTrailerBytes : ℕ := 4
def recordHeaderCrcCoverage : ℕ := 36
def snapshotHeaderCrcCoverage : ℕ := 32

/-- `MBGJRNL1`. -/
def recordMagic : Bytes := [0x4D, 0x42, 0x47, 0x4A, 0x52, 0x4E, 0x4C, 0x31]

/-- `MBGSNAP1`. -/
def snapshotMagic : Bytes := [0x4D, 0x42, 0x47, 0x53, 0x4E, 0x41, 0x50, 0x31]

open ByteWriter in
/-- The header fields of a record up to its checksum. -/
def recordHeaderFields (type : RecordType) (seq : RecordSeq) (tick : Tick) (length : UInt32) :
    Bytes :=
  [recordMagic, u16 stateFormatVersion, u16 type.raw, u32 0, u64 seq.raw, u64 tick.value,
    u32 length].flatten

open ByteWriter in
/-- The complete image of a journal record. -/
def buildRecord (type : RecordType) (seq : RecordSeq) (tick : Tick) (payload : Bytes) : Bytes :=
  let fields := recordHeaderFields type seq tick payload.length.toUInt32
  [fields, u32 (Crc32c.compute fields), u32 (Crc32c.compute payload), payload].flatten

open ByteWriter in
def snapshotHeaderFields (coveredSeq : RecordSeq) (tick : Tick) (length : UInt32) : Bytes :=
  [snapshotMagic, u16 stateFormatVersion, u16 0, u32 length, u64 coveredSeq.raw,
    u64 tick.value].flatten

open ByteWriter in
/-- A snapshot up to its trailer. -/
def snapshotBody (payload : Bytes) (coveredSeq : RecordSeq) (tick : Tick) : Bytes :=
  let fields := snapshotHeaderFields coveredSeq tick payload.length.toUInt32
  [fields, u32 (Crc32c.compute fields), u32 (Crc32c.compute payload), payload].flatten

open ByteWriter in
/-- The complete image of a snapshot. -/
def buildSnapshot (payload : Bytes) (coveredSeq : RecordSeq) (tick : Tick) : Bytes :=
  let body := snapshotBody payload coveredSeq tick
  body ++ u32 (Crc32c.compute body)

end Framing

/-! ### Record headers -/

structure RecordHeader where
  magic : Option Bytes
  version : UInt16
  rawType : UInt16
  flags : UInt32
  seq : UInt64
  tick : UInt64
  payloadLen : UInt32
  headerCrc : UInt32
  payloadCrc : UInt32
  deriving DecidableEq, Repr

open ByteReader in
def readRecordHeader : ReaderM RecordHeader := do
  return {
    magic := ← raw 8, version := ← u16, rawType := ← u16, flags := ← u32, seq := ← u64,
    tick := ← u64, payloadLen := ← u32, headerCrc := ← u32, payloadCrc := ← u32 }

/-- The header at the front of an image, read from exactly its 44 bytes. -/
def recordHeader (image : Bytes) : RecordHeader × ByteReader :=
  readRecordHeader (.of (image.take Framing.recordHeaderBytes))

def RecordHeader.total (h : RecordHeader) : ℕ := Framing.recordHeaderBytes + h.payloadLen.toNat

/-! ### Scanning -/

/-- What the scan finds at one offset: a record of so many bytes, or why it stops. -/
inductive ScanStep where
  | record (total : ℕ)
  | stop (outcome : RecoveryOutcome) (detail : String)
  deriving DecidableEq, Repr

open Framing in
/-- One turn of the scan loop over the bytes from the current offset on. -/
def scanRecord (bytes : Bytes) : ScanStep :=
  if bytes.length < recordHeaderBytes then
    .stop .truncatedTail "journal ends inside a record header"
  else
    let (h, reader) := recordHeader bytes
    if h.magic ≠ some recordMagic then .stop .corruptTail "journal record magic mismatch"
    else if !reader.ok then .stop .truncatedTail "journal record header is incomplete"
    else if Crc32c.compute (bytes.take recordHeaderCrcCoverage) ≠ h.headerCrc then
      .stop .corruptTail "journal record header checksum mismatch"
    else if h.version ≠ stateFormatVersion then
      .stop .versionMismatch "journal record format version is not supported"
    else if !isValidRecordType h.rawType then
      .stop .corruptTail "journal record type is not recognised"
    else if h.payloadLen.toNat > Limits.maxJournalRecordBytes then
      .stop .oversized "journal record payload exceeds the bound"
    else if (⟨h.seq⟩ : RecordSeq).raw ≠ h.seq then
      .stop .corruptTail "journal record sequence is not representable"
    else if bytes.length < h.total then
      .stop .truncatedTail "journal ends inside a record payload"
    else .record h.total

structure ScanResult where
  validEnd : ℕ := 0
  outcome : RecoveryOutcome := .clean
  detail : String := ""
  deriving DecidableEq, Repr

/-- The scan loop; a record is not empty, so as many turns as there are bytes are enough. -/
def scanLoop : ℕ → ℕ → Bytes → ScanResult
  | 0, offset, _ => { validEnd := offset }
  | fuel + 1, offset, bytes =>
    if bytes.isEmpty then { validEnd := offset }
    else match scanRecord bytes with
      | .stop outcome detail => { validEnd := offset, outcome, detail }
      | .record total => scanLoop fuel (offset + total) (bytes.drop total)

/-- `scan_journal`: where the verified records end, and why the scan stopped. -/
def scanJournal (image : Bytes) : ScanResult := scanLoop image.length 0 image

/-! ### Dispatch -/

/-- The record delivered for the image at one offset. -/
def parseRecord (image : Bytes) : JournaledRecord :=
  let (h, _) := recordHeader image
  { type := (RecordType.ofRaw? h.rawType).getD .unknown
    seq := ⟨h.seq⟩
    tick := ⟨h.tick⟩
    payload := (image.take h.total).drop Framing.recordHeaderBytes }

/-- The dispatch loop of `replay`: the records below `validEnd`, in order. -/
def dispatchLoop : ℕ → ℕ → Bytes → List JournaledRecord
  | 0, _, _ => []
  | fuel + 1, valid, image =>
    if valid = 0 then []
    else
      let total := (recordHeader image).1.total
      parseRecord image :: dispatchLoop fuel (valid - total) (image.drop total)

/-- The records `replay` hands to its visitor. -/
def dispatch (image : Bytes) (validEnd : ℕ) : List JournaledRecord :=
  dispatchLoop image.length validEnd image

end Mbg
