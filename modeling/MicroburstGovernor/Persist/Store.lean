import MicroburstGovernor.Persist.Journal

/-! The durable store: the journal and snapshot files, and the operations on them.

    The environment is part of the state: the two files, the faults the next fallible calls will
    meet, and the durable effects so far. A call that meets no fault succeeds. A failing write
    leaves a prefix of what it wrote. A crash between two effects leaves the files as a prefix of the
    effects made them. -/

namespace Mbg

/-- The store directory. -/
structure Files where
  journal : Option Bytes := none
  snapshot : Option Bytes := none
  deriving DecidableEq, Repr, Inhabited

/-- A change of the files that is durable as a whole. -/
inductive Effect where
  | appendJournal (bytes : Bytes)
  | replaceSnapshot (image : Bytes)
  | truncateJournal (length : ℕ)
  deriving DecidableEq, Repr

def Effect.apply (files : Files) : Effect → Files
  | .appendJournal bytes => { files with journal := some (files.journal.getD [] ++ bytes) }
  | .replaceSnapshot image => { files with snapshot := some image }
  | .truncateJournal length => { files with journal := some ((files.journal.getD []).take length) }

/-- Where a call into the operating system fails: at which of its stages, and after how many bytes
    of a write. -/
structure Fault where
  stage : ℕ
  written : ℕ := 0
  deriving DecidableEq, Repr

structure StoreConfig where
  directory : String := ""
  maxJournalBytes : UInt64 := Limits.maxJournalBytes.toUInt64
  deriving DecidableEq, Repr, Inhabited

/-- Append-only, integrity checked store. -/
structure DurableStore where
  config : StoreConfig := {}
  isOpen : Bool := false
  journalBytes : UInt64 := 0
  recordsAppended : UInt64 := 0
  syncs : UInt64 := 0
  compactionRequired : Bool := false
  lastSequence : RecordSeq := default
  disk : Files := {}
  faults : List (Option Fault) := []
  effects : List Effect := []
  deriving DecidableEq, Repr, Inhabited

namespace DurableStore

/-- A store object that has not been opened, over a directory with these files. -/
def ofFiles (disk : Files) : DurableStore := { disk }

/-- The fault the next fallible call meets, if any. -/
def nextFault (s : DurableStore) : Option Fault × DurableStore :=
  (s.faults.headD none, { s with faults := s.faults.tail })

def commit (s : DurableStore) (e : Effect) : DurableStore :=
  { s with disk := e.apply s.disk, effects := s.effects ++ [e] }

def journal (s : DurableStore) : Bytes := s.disk.journal.getD []

/-! ### Opening and appending -/

/-- Opens the journal for appending, creating it if needed. -/
def openStore (s : DurableStore) (config : StoreConfig) : Status × DurableStore :=
  if config.directory.isEmpty then
    (Status.failure .invalidArgument "durable store directory is empty", s)
  else if config.maxJournalBytes = 0 ∨ config.maxJournalBytes.toNat > Limits.maxJournalBytes then
    (Status.failure .outOfRange "journal size bound outside supported range", s)
  else if s.isOpen then (Status.failure .conflict "durable store is already open", s)
  else
    let (fault, s) := s.nextFault
    let stage := fault.map Fault.stage
    if stage = some 0 then
      (Status.failure .io "durable store directory cannot be created", s)
    else
      let s := { s with config }
      if stage = some 1 then (Status.failure .io "journal cannot be opened for append", s)
      else
        -- a journal that is missing, or that only "w+b" can open, starts empty
        let s := if s.disk.journal.isNone ∨ stage = some 4 then s.commit (.truncateJournal 0) else s
        if stage = some 2 then (Status.failure .io "journal cannot be positioned", s)
        else if stage = some 3 then (Status.failure .io "journal length cannot be read", s)
        else (.ok (), { s with isOpen := true, journalBytes := s.journal.length.toUInt64 })

def needsCompaction (s : DurableStore) : Bool :=
  s.compactionRequired || s.journalBytes ≥ s.config.maxJournalBytes

/-- Appends a framed record; it is acknowledged only once it is durable. -/
def append (s : DurableStore) (type : RecordType) (seq : RecordSeq) (tick : Tick)
    (payload : Bytes) : Status × DurableStore :=
  if !s.isOpen then (Status.failure .io "durable store is not open", s)
  else if !isValidRecordType type.raw then
    (Status.failure .invalidArgument "journal record type is not writable", s)
  else if payload.length > Limits.maxJournalRecordBytes then
    (Status.failure .oversized "journal record payload exceeds the bound", s)
  else
    let recordBytes := Framing.recordHeaderBytes.toUInt64 + payload.length.toUInt64
    match addChecked s.journalBytes recordBytes with
    | none =>
      (Status.failure .capacityExceeded "journal size bound reached, compaction required",
        { s with compactionRequired := true })
    | some projected =>
      if projected > s.config.maxJournalBytes then
        (Status.failure .capacityExceeded "journal size bound reached, compaction required",
          { s with compactionRequired := true })
      else
        let image := Framing.buildRecord type seq tick payload
        match s.nextFault with
        | (some fault, s) =>
          (Status.failure .io
              (if fault.stage = 0 then "journal record write failed"
               else if fault.stage = 1 then "failed to flush durable store"
               else "failed to fsync durable store to disk"),
            s.commit (.appendJournal (image.take fault.written)))
        | (none, s) =>
          (.ok (),
            { s.commit (.appendJournal image) with
              journalBytes := projected
              recordsAppended := s.recordsAppended + 1
              lastSequence := seq
              syncs := s.syncs + 1 })

/-! ### Snapshots and truncation -/

/-- Truncates the journal to zero length and reopens it. -/
def resetJournal (s : DurableStore) : Status × DurableStore :=
  if !s.isOpen then (Status.failure .io "durable store is not open", s)
  else
    let (fault, s) := s.nextFault
    match fault.map Fault.stage with
    | some 0 => (Status.failure .io "journal flush before truncation failed", s)
    | some 1 => (Status.failure .io "journal cannot be truncated", { s with isOpen := false })
    | stage =>
      let s := { s with isOpen := false }.commit (.truncateJournal 0)
      match stage with
      | some 2 => (Status.failure .io "failed to flush durable store", s)
      | some 3 => (Status.failure .io "journal cannot be reopened after truncation", s)
      | some _ => (Status.failure .io "journal cannot be repositioned after truncation", s)
      | none =>
        (.ok (), { s with isOpen := true, journalBytes := 0, compactionRequired := false })

/-- Writes the snapshot atomically, by rename, and truncates the journal. -/
def writeSnapshot (s : DurableStore) (payload : Bytes) (coveredSeq : RecordSeq) (tick : Tick) :
    Status × DurableStore :=
  if payload.length > Limits.maxSnapshotBytes then
    (Status.failure .oversized "snapshot payload exceeds the bound", s)
  else
    let image := Framing.buildSnapshot payload coveredSeq tick
    match s.nextFault with
    | (some fault, s) =>
      (Status.failure .io
          (if fault.stage = 0 then "snapshot temporary file cannot be created"
           else if fault.stage = 1 then "snapshot write failed"
           else if fault.stage = 2 then "failed to flush durable store"
           else if fault.stage = 3 then "failed to fsync durable store to disk"
           else "atomic replace of durable state failed"), s)
    | (none, s) =>
      { s.commit (.replaceSnapshot image) with syncs := s.syncs + 1 }.resetJournal

/-- Cuts the journal back to its verified records. -/
def truncateJournal (s : DurableStore) (length : ℕ) : Status × DurableStore :=
  if !s.isOpen then (Status.failure .io "durable store is not open", s)
  else
    let (fault, s) := s.nextFault
    match fault.map Fault.stage with
    | some 0 => (Status.failure .io "journal flush before truncation failed", s)
    | some 1 => (Status.failure .io "journal truncation failed", s)
    | stage =>
      let s := s.commit (.truncateJournal length)
      match stage with
      | some 2 => (Status.failure .io "journal reposition after truncation failed", s)
      | some _ =>
        (Status.failure .io "failed to flush durable store",
          { s with journalBytes := length.toUInt64 })
      | none => (.ok (), { s with journalBytes := length.toUInt64 })

/-! ### Recovery -/

/-- Reads a whole file within a size bound; an absent file is not an error. -/
def readFile (s : DurableStore) (file : Option Bytes) (maximum : ℕ) :
    Except Failure (Option Bytes) × DurableStore :=
  let (fault, s) := s.nextFault
  let stage := fault.map Fault.stage
  (match file with
    | none => .ok none
    | some bytes =>
      if stage = some 0 then .ok none
      else if stage = some 1 then Status.failure .io "durable store file size is unreadable"
      else if bytes.length > maximum then
        Status.failure .oversized "durable store file exceeds the size bound"
      else if stage = some 2 then Status.failure .io "durable store file cannot be opened"
      else if stage.isSome ∧ bytes ≠ [] then
        Status.failure .truncated "durable store file shrank while reading"
      else .ok (some bytes), s)

structure SnapshotHeader where
  magic : Option Bytes
  version : UInt16
  reserved : UInt16
  payloadLen : UInt32
  covered : UInt64
  tick : UInt64
  headerCrc : UInt32
  payloadCrc : UInt32
  deriving DecidableEq, Repr

open ByteReader in
def readSnapshotHeader : ReaderM SnapshotHeader := do
  return {
    magic := ← raw 8, version := ← u16, reserved := ← u16, payloadLen := ← u32, covered := ← u64,
    tick := ← u64, headerCrc := ← u32, payloadCrc := ← u32 }

def snapshotHeader (bytes : Bytes) : SnapshotHeader :=
  (readSnapshotHeader (.of (bytes.take Framing.snapshotHeaderBytes))).1

/-- What the snapshot loader makes of an image: the payload and the sequence it covers, or why it
    was refused. -/
inductive SnapshotScan where
  | intact (payload : Bytes) (covered : UInt64)
  | damaged (outcome : RecoveryOutcome) (detail : String)
  deriving DecidableEq, Repr

open Framing in
def scanSnapshot (bytes : Bytes) : SnapshotScan :=
  if bytes.length < snapshotHeaderBytes + snapshotTrailerBytes then
    .damaged .truncatedTail "snapshot is shorter than its header"
  else
    let h := snapshotHeader bytes
    let body := (bytes.drop snapshotHeaderBytes).take h.payloadLen.toNat
    let trailer := bytes.drop (snapshotHeaderBytes + h.payloadLen.toNat)
    if h.magic ≠ some snapshotMagic then .damaged .corruptTail "snapshot magic mismatch"
    else if h.version ≠ stateFormatVersion then
      .damaged .versionMismatch "snapshot format version is not supported"
    else if Crc32c.compute (bytes.take snapshotHeaderCrcCoverage) ≠ h.headerCrc then
      .damaged .corruptTail "snapshot header checksum mismatch"
    else if bytes.length ≠ snapshotHeaderBytes + h.payloadLen.toNat + snapshotTrailerBytes then
      .damaged .corruptTail "snapshot length does not match its header"
    else if Crc32c.compute body ≠ h.payloadCrc then
      .damaged .corruptTail "snapshot payload checksum mismatch"
    else if Crc32c.compute (bytes.take (bytes.length - 4)) ≠ (ByteReader.u32 (.of trailer)).1 then
      .damaged .corruptTail "snapshot file checksum mismatch"
    else .intact body h.covered

/-- Loads the snapshot into a report; a damaged snapshot is reported, not an error. -/
def loadSnapshot (s : DurableStore) (report : RecoveryReport) :
    Except Failure (RecoveryReport × Bytes) × DurableStore :=
  match s.readFile s.disk.snapshot Limits.maxSnapshotBytes with
  | (.error e, s) => (.error e, s)
  | (.ok none, s) => (.ok ({ report with snapshotPresent := false }, []), s)
  | (.ok (some bytes), s) =>
    let report := { report with snapshotPresent := true }
    match scanSnapshot bytes with
    | .damaged outcome detail => (.ok ({ report with outcome, detail }, []), s)
    | .intact payload covered => (.ok ({ report with snapshotCoveredSeq := covered }, payload), s)

/-- Verifies integrity without applying anything. -/
def verify (s : DurableStore) : Except Failure RecoveryReport × DurableStore :=
  match s.loadSnapshot {} with
  | (.error e, s) => (.error e, s)
  | (.ok (report, _), s) =>
    match s.readFile s.disk.journal Limits.maxJournalBytes with
    | (.error e, s) => (.error e, s)
    | (.ok journal, s) =>
      let image := journal.getD []
      let report :=
        if journal.isNone && !report.snapshotPresent then
          { report with outcome := .missing, detail := "no durable state present" }
        else if !image.isEmpty then
          let scan := scanJournal image
          let report :=
            if scan.outcome ≠ .clean then
              { report with outcome := scan.outcome, detail := scan.detail }
            else report
          { report with
            bytesValid := scan.validEnd, bytesDiscarded := image.length - scan.validEnd }
        else report
      (.ok { report with formatVersion := stateFormatVersion }, s)

/-- What a successful replay hands to its caller. -/
structure Replayed (σ : Type) where
  report : RecoveryReport
  snapshotPayload : Bytes
  visited : σ

/-- Replays the snapshot and every record the scan accepted, in append order, then retires what
    follows them. -/
def replay {σ : Type} (s : DurableStore) (visitor : σ → JournaledRecord → Except Failure σ)
    (start : σ) : Except Failure (Replayed σ) × DurableStore :=
  match s.loadSnapshot { formatVersion := stateFormatVersion } with
  | (.error e, s) => (.error e, s)
  | (.ok (report, snapshotPayload), s) =>
    match s.readFile s.disk.journal Limits.maxJournalBytes with
    | (.error e, s) => (.error e, s)
    | (.ok none, s) =>
      let report :=
        if report.snapshotPresent then { report with outcome := .clean }
        else { report with outcome := .missing, detail := "no durable state present" }
      (.ok ⟨report, snapshotPayload, start⟩, s)
    | (.ok (some []), s) =>
      let report := if report.snapshotPresent then { report with outcome := .clean } else report
      (.ok ⟨report, snapshotPayload, start⟩, s)
    | (.ok (some image), s) =>
      let scan := scanJournal image
      let records := dispatch image scan.validEnd
      match records.foldlM visitor start with
      | .error e => (.error e, s)
      | .ok visited =>
        let report :=
          { report with
            outcome := scan.outcome
            detail := scan.detail
            bytesValid := scan.validEnd
            bytesDiscarded := image.length - scan.validEnd
            recordsReplayed := records.length }
        if report.bytesDiscarded ≠ 0 then
          match s.truncateJournal scan.validEnd with
          | (.error e, s) => (.error e, s)
          | (.ok (), s) => (.ok ⟨report, snapshotPayload, visited⟩, s)
        else (.ok ⟨report, snapshotPayload, visited⟩, s)

end DurableStore

end Mbg
