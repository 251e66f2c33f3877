import MicroburstGovernor.Persist.Store

/-! The journal as a string of frames: the scan and the dispatch loop split the same frames off. -/

namespace Mbg

open Framing

/-! ### One record -/

/-- The header at the front passes every check of the scan that looks at the header alone. -/
structure HeaderVerified (bytes : Bytes) : Prop where
  magic : (recordHeader bytes).1.magic = some recordMagic
  complete : (recordHeader bytes).2.ok
  checksum : Crc32c.compute (bytes.take recordHeaderCrcCoverage) = (recordHeader bytes).1.headerCrc
  version : (recordHeader bytes).1.version = stateFormatVersion
  type : isValidRecordType (recordHeader bytes).1.rawType
  bounded : (recordHeader bytes).1.payloadLen.toNat ≤ Limits.maxJournalRecordBytes

/-- The scan accepts a record exactly when its header verifies and all its bytes are there. -/
theorem scanRecord_eq_record {bytes : Bytes} {n : ℕ} : scanRecord bytes = .record n ↔
    HeaderVerified bytes ∧ n = (recordHeader bytes).1.total ∧ n ≤ bytes.length := by
  have htotal : recordHeaderBytes ≤ (recordHeader bytes).1.total := Nat.le_add_right _ _
  constructor
  · intro h
    simp only [scanRecord] at h
    split_ifs at h with h1 h2 h3 h4 h5 h6 h7 h8 h9
    simp only [ScanStep.record.injEq] at h
    refine ⟨⟨by simpa using h2, by simpa using h3, by simpa using h4, by simpa using h5,
      by simpa using h6, Nat.le_of_not_lt h7⟩, h.symm, ?_⟩
    rw [← h]
    exact Nat.le_of_not_lt h9
  · intro ⟨⟨h1, h2, h3, h4, h5, h6⟩, hn, hle⟩
    rw [hn] at hle ⊢
    have hlen : ¬ bytes.length < recordHeaderBytes := Nat.not_lt.mpr (Nat.le_trans htotal hle)
    simp only [scanRecord, hlen, h1, h2, h3, h4, h5, Nat.not_lt.mpr h6, Nat.not_lt.mpr hle,
      ne_eq, not_true_eq_false, Bool.not_true, Bool.false_eq_true, if_false]

/-- A stop is never clean. -/
theorem outcome_ne_clean_of_scanRecord {bytes : Bytes} {outcome : RecoveryOutcome} {detail : String}
    (h : scanRecord bytes = .stop outcome detail) : outcome ≠ .clean := by
  simp only [scanRecord] at h
  repeat' split at h
  all_goals cases h
  all_goals decide

theorem recordHeader_congr {b c : Bytes} (h : b.take recordHeaderBytes = c.take recordHeaderBytes) :
    recordHeader b = recordHeader c := by
  rw [recordHeader, recordHeader, h]

/-- The header checks read the first 44 bytes and no others. -/
theorem headerVerified_congr {b c : Bytes}
    (h : b.take recordHeaderBytes = c.take recordHeaderBytes) (hb : HeaderVerified b) :
    HeaderVerified c := by
  have hcover : b.take recordHeaderCrcCoverage = c.take recordHeaderCrcCoverage := by
    have := congrArg (List.take recordHeaderCrcCoverage) h
    simpa [List.take_take, recordHeaderCrcCoverage, recordHeaderBytes] using this
  obtain ⟨h1, h2, h3, h4, h5, h6⟩ := hb
  rw [recordHeader_congr h] at h1 h2 h3 h4 h5 h6
  exact ⟨h1, h2, hcover ▸ h3, h4, h5, h6⟩

theorem scanRecord_pos {bytes : Bytes} {n : ℕ} (h : scanRecord bytes = .record n) : 0 < n := by
  obtain ⟨_, ht, _⟩ := scanRecord_eq_record.mp h
  rw [ht, RecordHeader.total, recordHeaderBytes]
  omega

/-- A record is read the same whatever follows it. -/
theorem scanRecord_append {bytes : Bytes} {n : ℕ} (x : Bytes) (h : scanRecord bytes = .record n) :
    scanRecord (bytes ++ x) = .record n := by
  obtain ⟨hv, ht, hle⟩ := scanRecord_eq_record.mp h
  have h44 : recordHeaderBytes ≤ bytes.length := by rw [RecordHeader.total] at ht; omega
  have htake : bytes.take recordHeaderBytes = (bytes ++ x).take recordHeaderBytes :=
    (List.take_append_of_le_length h44).symm
  exact scanRecord_eq_record.mpr ⟨headerVerified_congr htake hv, recordHeader_congr htake ▸ ht, by
    rw [List.length_append]; omega⟩

theorem scanRecord_take {bytes : Bytes} {n : ℕ} (h : scanRecord bytes = .record n) :
    scanRecord (bytes.take n) = .record n := by
  obtain ⟨hv, ht, hle⟩ := scanRecord_eq_record.mp h
  have htake : bytes.take recordHeaderBytes = (bytes.take n).take recordHeaderBytes := by
    rw [List.take_take, Nat.min_eq_left]; rw [ht, RecordHeader.total]; omega
  exact scanRecord_eq_record.mpr ⟨headerVerified_congr htake hv, recordHeader_congr htake ▸ ht, by
    rw [List.length_take]; omega⟩

/-- The record format of the journal. -/
def journalFormat : FrameFormat UInt8 where
  head bytes := match scanRecord bytes with
    | .record total => some total
    | .stop _ _ => none
  pos {bytes n} h := by
    cases hs : scanRecord bytes with
    | stop o d => simp [hs] at h
    | record total =>
      simp only [hs, Option.some.injEq] at h
      exact h ▸ scanRecord_pos hs
  le {bytes n} h := by
    cases hs : scanRecord bytes with
    | stop o d => simp [hs] at h
    | record total =>
      simp only [hs, Option.some.injEq] at h
      exact h ▸ (scanRecord_eq_record.mp hs).2.2
  stable {bytes n} x h := by
    cases hs : scanRecord bytes with
    | stop o d => simp [hs] at h
    | record total =>
      simp only [hs, Option.some.injEq] at h
      simp [scanRecord_append x hs, h]
  own {bytes n} h := by
    cases hs : scanRecord bytes with
    | stop o d => simp [hs] at h
    | record total =>
      simp only [hs, Option.some.injEq] at h
      subst h
      simp [scanRecord_take hs]

theorem journalFormat_head {bytes : Bytes} {n : ℕ} :
    journalFormat.head bytes = some n ↔ scanRecord bytes = .record n := by
  cases hs : scanRecord bytes <;> simp [journalFormat, hs]

theorem journalFormat_head_none {bytes : Bytes} :
    journalFormat.head bytes = none ↔ ∃ outcome detail, scanRecord bytes = .stop outcome detail := by
  cases hs : scanRecord bytes <;> simp [journalFormat, hs]

/-! ### The scan -/

/-- Why a scan stops in front of these bytes: cleanly at the end, or at what begins no record. -/
def scanEnd (tail : Bytes) : RecoveryOutcome × String :=
  if tail.isEmpty then (.clean, "")
  else match scanRecord tail with
    | .stop outcome detail => (outcome, detail)
    | .record _ => (.clean, "")

theorem scanLoop_eq : ∀ {fuel offset : ℕ} {bytes : Bytes}, bytes.length ≤ fuel →
    scanLoop fuel offset bytes =
      { validEnd := offset + (journalFormat.split bytes).flatten.length
        outcome := (scanEnd (journalFormat.tail bytes)).1
        detail := (scanEnd (journalFormat.tail bytes)).2 }
  | 0, offset, bytes, h => by
    obtain rfl : bytes = [] := List.length_eq_zero_iff.mp (by omega)
    rfl
  | fuel + 1, offset, bytes, h => by
    rw [scanLoop]
    by_cases hempty : bytes = []
    · subst hempty; rfl
    cases hs : scanRecord bytes with
    | stop outcome detail =>
      have hhead := journalFormat_head_none.mpr ⟨_, _, hs⟩
      simp [journalFormat.split_none hhead, FrameFormat.tail, scanEnd, hs, hempty]
    | record total =>
      have hhead := journalFormat_head.mpr hs
      have hpos := journalFormat.pos hhead
      have hlen : (bytes.take total).length = total := by
        rw [List.length_take, Nat.min_eq_left (journalFormat.le hhead)]
      have htail : journalFormat.tail bytes = journalFormat.tail (bytes.drop total) := by
        rw [FrameFormat.tail, FrameFormat.tail, journalFormat.split_some hhead, List.flatten_cons,
          List.length_append, hlen, List.drop_drop]
      simp only [hempty, List.isEmpty_iff, if_false]
      rw [scanLoop_eq (by rw [List.length_drop]; omega), htail, journalFormat.split_some hhead,
        List.flatten_cons, List.length_append, hlen, Nat.add_assoc]

/-- The scan ends after the frames at the front, and says why it went no further. -/
theorem scanJournal_eq (image : Bytes) : scanJournal image =
    { validEnd := (journalFormat.split image).flatten.length
      outcome := (scanEnd (journalFormat.tail image)).1
      detail := (scanEnd (journalFormat.tail image)).2 } := by
  rw [scanJournal, scanLoop_eq (Nat.le_refl _), Nat.zero_add]

/-- A clean scan is one that leaves no tail. -/
theorem scanJournal_clean {image : Bytes} :
    (scanJournal image).outcome = .clean ↔ journalFormat.tail image = [] := by
  rw [scanJournal_eq]
  simp only [scanEnd]
  by_cases ht : journalFormat.tail image = []
  · simp [ht]
  · obtain ⟨outcome, detail, hs⟩ := journalFormat_head_none.mp (journalFormat.head_tail image)
    simp [ht, hs, outcome_ne_clean_of_scanRecord hs]

/-! ### Dispatch -/

/-- What is delivered for a frame does not depend on what follows it. -/
theorem parseRecord_take {image : Bytes} {total : ℕ} (h : journalFormat.head image = some total) :
    parseRecord (image.take total) = parseRecord image := by
  obtain ⟨_, ht, _⟩ := scanRecord_eq_record.mp (journalFormat_head.mp h)
  have htake : (image.take total).take recordHeaderBytes = image.take recordHeaderBytes := by
    rw [List.take_take, Nat.min_eq_left]; rw [ht, RecordHeader.total]; omega
  simp only [parseRecord, recordHeader_congr htake, ← ht, List.take_take, Nat.min_self]

theorem dispatchLoop_eq : ∀ {fuel : ℕ} {image : Bytes}, image.length ≤ fuel →
    dispatchLoop fuel (journalFormat.split image).flatten.length image =
      (journalFormat.split image).map parseRecord
  | 0, image, h => by
    obtain rfl : image = [] := List.length_eq_zero_iff.mp (by omega)
    rfl
  | fuel + 1, image, h => by
    rw [dispatchLoop]
    cases hhead : journalFormat.head image with
    | none => simp [journalFormat.split_none hhead]
    | some total =>
      have hpos := journalFormat.pos hhead
      obtain ⟨_, ht, _⟩ := scanRecord_eq_record.mp (journalFormat_head.mp hhead)
      have hlen : (image.take total).length = total := by
        rw [List.length_take, Nat.min_eq_left (journalFormat.le hhead)]
      have hsum : (journalFormat.split image).flatten.length =
          total + (journalFormat.split (image.drop total)).flatten.length := by
        rw [journalFormat.split_some hhead, List.flatten_cons, List.length_append, hlen]
      rw [if_neg (by omega), hsum, ← ht]
      simp only [Nat.add_sub_cancel_left]
      rw [dispatchLoop_eq (by rw [List.length_drop]; omega), journalFormat.split_some hhead,
        List.map_cons, parseRecord_take hhead]

/-- The dispatch loop delivers the frames of the scan, in order. -/
theorem dispatch_scanJournal (image : Bytes) :
    dispatch image (scanJournal image).validEnd = (journalFormat.split image).map parseRecord := by
  rw [scanJournal_eq]
  exact dispatchLoop_eq (Nat.le_refl _)

/-! ### Built records -/

@[simp] theorem length_recordHeaderFields (type : RecordType) (seq : RecordSeq) (tick : Tick)
    (length : UInt32) : (recordHeaderFields type seq tick length).length = 36 := rfl

/-- The 44 header bytes of a built record. -/
def builtHeader (type : RecordType) (seq : RecordSeq) (tick : Tick) (payload : Bytes) : Bytes :=
  let fields := recordHeaderFields type seq tick payload.length.toUInt32
  fields ++ (ByteWriter.u32 (Crc32c.compute fields) ++ ByteWriter.u32 (Crc32c.compute payload))

theorem buildRecord_eq (type : RecordType) (seq : RecordSeq) (tick : Tick) (payload : Bytes) :
    buildRecord type seq tick payload = builtHeader type seq tick payload ++ payload := by
  simp only [buildRecord, builtHeader, List.flatten_cons, List.flatten_nil, List.append_nil,
    List.append_assoc]

@[simp] theorem length_builtHeader (type : RecordType) (seq : RecordSeq) (tick : Tick)
    (payload : Bytes) : (builtHeader type seq tick payload).length = recordHeaderBytes := by
  simp [builtHeader, recordHeaderBytes]

@[simp] theorem length_buildRecord (type : RecordType) (seq : RecordSeq) (tick : Tick)
    (payload : Bytes) :
    (buildRecord type seq tick payload).length = recordHeaderBytes + payload.length := by
  rw [buildRecord_eq, List.length_append, length_builtHeader]

theorem take_buildRecord (type : RecordType) (seq : RecordSeq) (tick : Tick) (payload : Bytes) :
    (buildRecord type seq tick payload).take recordHeaderBytes =
      builtHeader type seq tick payload := by
  rw [buildRecord_eq]
  exact List.take_left' (length_builtHeader type seq tick payload)

theorem drop_buildRecord (type : RecordType) (seq : RecordSeq) (tick : Tick) (payload : Bytes) :
    (buildRecord type seq tick payload).drop recordHeaderBytes = payload := by
  rw [buildRecord_eq]
  exact List.drop_left' (length_builtHeader type seq tick payload)

open ByteReader in
/-- A built record's header reads back as it was written. -/
theorem recordHeader_buildRecord (type : RecordType) (seq : RecordSeq) (tick : Tick)
    (payload : Bytes) : recordHeader (buildRecord type seq tick payload) =
      ({ magic := some recordMagic, version := stateFormatVersion, rawType := type.raw, flags := 0
         seq := seq.raw, tick := tick.value, payloadLen := payload.length.toUInt32
         headerCrc :=
          Crc32c.compute (recordHeaderFields type seq tick payload.length.toUInt32)
         payloadCrc := Crc32c.compute payload }, .of []) := by
  have hmagic : ∀ rest, raw 8 (of (recordMagic ++ rest)) = (some recordMagic, of rest) :=
    raw_write recordMagic
  have hlast : u32 (of (ByteWriter.u32 (Crc32c.compute payload))) =
      (Crc32c.compute payload, of []) := by
    simpa using u32_write (Crc32c.compute payload) []
  rw [recordHeader, take_buildRecord]
  simp only [readRecordHeader, builtHeader, recordHeaderFields, List.flatten_cons,
    List.flatten_nil, List.append_nil, List.append_assoc, bind_of_eq (hmagic _), u16_bind, u32_bind,
    u64_bind, bind_of_eq hlast, pure_apply]

theorem toNat_length_toUInt32 {payload : Bytes}
    (h : payload.length ≤ Limits.maxJournalRecordBytes) :
    payload.length.toUInt32.toNat = payload.length := by
  have hmax : Limits.maxJournalRecordBytes = 1048576 := rfl
  rw [Nat.toUInt32, UInt32.toNat_ofNat']
  omega

/-- What `append` writes is one whole record. -/
theorem scanRecord_buildRecord {type : RecordType} {seq : RecordSeq} {tick : Tick}
    {payload : Bytes} (ht : isValidRecordType type.raw)
    (hlen : payload.length ≤ Limits.maxJournalRecordBytes) :
    scanRecord (buildRecord type seq tick payload) =
      .record (recordHeaderBytes + payload.length) := by
  have hcover : (buildRecord type seq tick payload).take recordHeaderCrcCoverage =
      recordHeaderFields type seq tick payload.length.toUInt32 := by
    rw [buildRecord_eq, builtHeader, List.append_assoc]
    exact List.take_left' (length_recordHeaderFields _ _ _ _)
  rw [scanRecord_eq_record]
  refine ⟨⟨?_, ?_, ?_, ?_, ?_, ?_⟩, ?_, ?_⟩
  · rw [recordHeader_buildRecord]
  · rw [recordHeader_buildRecord]
  · rw [recordHeader_buildRecord, hcover]
  · rw [recordHeader_buildRecord]
  · rw [recordHeader_buildRecord]; exact ht
  · rw [recordHeader_buildRecord, toNat_length_toUInt32 hlen]; exact hlen
  · rw [recordHeader_buildRecord, RecordHeader.total, toNat_length_toUInt32 hlen]
  · exact Nat.le_of_eq (length_buildRecord type seq tick payload).symm

theorem isFrame_buildRecord {type : RecordType} {seq : RecordSeq} {tick : Tick} {payload : Bytes}
    (ht : isValidRecordType type.raw) (hlen : payload.length ≤ Limits.maxJournalRecordBytes) :
    journalFormat.IsFrame (buildRecord type seq tick payload) := by
  rw [FrameFormat.IsFrame, journalFormat_head, scanRecord_buildRecord ht hlen, length_buildRecord]

/-- A built record is delivered as it was appended. -/
theorem parseRecord_buildRecord {type : RecordType} {seq : RecordSeq} {tick : Tick}
    {payload : Bytes} (hlen : payload.length ≤ Limits.maxJournalRecordBytes) :
    parseRecord (buildRecord type seq tick payload) = ⟨type, seq, tick, payload⟩ := by
  have htake : (buildRecord type seq tick payload).take (recordHeaderBytes + payload.length) =
      buildRecord type seq tick payload :=
    List.take_of_length_le (Nat.le_of_eq (length_buildRecord type seq tick payload))
  simp only [parseRecord, recordHeader_buildRecord, RecordHeader.total, toNat_length_toUInt32 hlen,
    htake, drop_buildRecord, RecordType.ofRaw?_raw, Option.getD_some]

/-- A record that `append` would take. -/
def JournaledRecord.Writable (record : JournaledRecord) : Prop :=
  isValidRecordType record.type.raw ∧ record.payload.length ≤ Limits.maxJournalRecordBytes

/-- The journal of records appended one after another. -/
def buildJournal (records : List JournaledRecord) : Bytes :=
  (records.map fun r => buildRecord r.type r.seq r.tick r.payload).flatten

/-- A journal of appended records delivers them. -/
theorem parse_buildJournal {records : List JournaledRecord} (h : ∀ r ∈ records, r.Writable) :
    (journalFormat.split (buildJournal records)).map parseRecord = records := by
  have hsplit : journalFormat.split (buildJournal records) =
      records.map fun r => buildRecord r.type r.seq r.tick r.payload := by
    have hframes : ∀ f ∈ records.map fun r => buildRecord r.type r.seq r.tick r.payload,
        journalFormat.IsFrame f := by
      intro f hf
      obtain ⟨r, hr, rfl⟩ := List.mem_map.mp hf
      exact isFrame_buildRecord (h r hr).1 (h r hr).2
    have happend := journalFormat.split_flatten_append hframes []
    rw [List.append_nil, journalFormat.split_nil, List.append_nil] at happend
    exact happend
  rw [hsplit, List.map_map]
  refine (List.map_congr_left fun r hr => ?_).trans (List.map_id records)
  rw [Function.comp_apply, parseRecord_buildRecord (h r hr).2, id]

end Mbg
