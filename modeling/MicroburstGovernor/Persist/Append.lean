import MicroburstGovernor.Persist.Replay

/-! What the writing calls of the store do to its files. -/

namespace Mbg

namespace DurableStore

open Framing

/-- The checks of `append` all pass: it goes on to write. -/
structure Accepts (s : DurableStore) (type : RecordType) (payload : Bytes) : Prop where
  isOpen : s.isOpen
  writable : isValidRecordType type.raw
  bounded : payload.length ≤ Limits.maxJournalRecordBytes
  room : s.journalBytes.toNat + recordHeaderBytes + payload.length ≤ s.config.maxJournalBytes.toNat

theorem recordBytes_toNat {payload : Bytes}
    (h : payload.length ≤ Limits.maxJournalRecordBytes) :
    (recordHeaderBytes.toUInt64 + payload.length.toUInt64).toNat =
      recordHeaderBytes + payload.length := by
  have hmax : Limits.maxJournalRecordBytes = 1048576 := rfl
  have h44 : recordHeaderBytes = 44 := rfl
  have hheader : recordHeaderBytes.toUInt64.toNat = recordHeaderBytes := by
    rw [Nat.toUInt64, UInt64.toNat_ofNat']; omega
  have hlen : payload.length.toUInt64.toNat = payload.length := by
    rw [Nat.toUInt64, UInt64.toNat_ofNat']; omega
  rw [UInt64.toNat_add, hheader, hlen]
  omega

/-- A record that only lacks room is refused for the capacity. -/
theorem append_full {s : DurableStore} {type : RecordType} {payload : Bytes}
    (hopen : s.isOpen = true) (htype : isValidRecordType type.raw = true)
    (hlen : payload.length ≤ Limits.maxJournalRecordBytes) (hfull : ¬ Accepts s type payload)
    (seq : RecordSeq) (tick : Tick) : ∃ failure, failure.code = .capacityExceeded ∧
      s.append type seq tick payload = (.error failure, { s with compactionRequired := true }) := by
  rw [append]
  simp only [hopen, htype, Nat.not_lt.mpr hlen, Bool.not_true, Bool.false_eq_true, if_false]
  cases hsum : addChecked s.journalBytes (recordHeaderBytes.toUInt64 + payload.length.toUInt64) with
  | none => exact ⟨_, rfl, rfl⟩
  | some projected =>
    obtain ⟨hlt, rfl⟩ := addChecked_eq_some.mp hsum
    have hover : s.journalBytes + (recordHeaderBytes.toUInt64 + payload.length.toUInt64) >
        s.config.maxJournalBytes := by
      by_contra hroom
      rw [gt_iff_lt, UInt64.lt_iff_toNat_lt, UInt64.toNat_add, Nat.mod_eq_of_lt hlt,
        recordBytes_toNat hlen] at hroom
      exact hfull ⟨hopen, htype, hlen, by omega⟩
    simp only [hover, if_true]
    exact ⟨_, rfl, rfl⟩

/-- A refused append leaves the files alone. -/
theorem append_refused {s : DurableStore} {type : RecordType} {payload : Bytes}
    (h : ¬ Accepts s type payload) (seq : RecordSeq) (tick : Tick) : ∃ e required,
    s.append type seq tick payload = (.error e, { s with compactionRequired := required }) := by
  by_cases hopen : s.isOpen = true
  case neg =>
    exact ⟨_, s.compactionRequired, by rw [append, if_pos (by simp [hopen])]; rfl⟩
  by_cases htype : isValidRecordType type.raw = true
  case neg =>
    exact ⟨_, s.compactionRequired, by
      rw [append, if_neg (by simp [hopen]), if_pos (by simp [htype])]; rfl⟩
  by_cases hlen : payload.length ≤ Limits.maxJournalRecordBytes
  case neg =>
    exact ⟨_, s.compactionRequired, by
      rw [append, if_neg (by simp [hopen]), if_neg (by simp [htype]), if_pos (by omega)]; rfl⟩
  obtain ⟨e, -, hfull⟩ := append_full hopen htype hlen h seq tick
  exact ⟨e, true, hfull⟩

/-- The store after an append that met no fault. -/
def appended (s : DurableStore) (type : RecordType) (seq : RecordSeq) (tick : Tick)
    (payload : Bytes) : DurableStore :=
  { s.commit (.appendJournal (buildRecord type seq tick payload)) with
    journalBytes := s.journalBytes + (recordHeaderBytes.toUInt64 + payload.length.toUInt64)
    recordsAppended := s.recordsAppended + 1
    lastSequence := seq
    syncs := s.syncs + 1 }

/-- An accepted append writes the record whole, or meets a fault and leaves a prefix of it. -/
theorem append_accepted {s : DurableStore} {type : RecordType} {payload : Bytes}
    (h : Accepts s type payload) (seq : RecordSeq) (tick : Tick) :
    (s.nextFault.1 = none ∧
      s.append type seq tick payload = (.ok (), s.nextFault.2.appended type seq tick payload)) ∨
    ∃ fault e, s.nextFault.1 = some fault ∧ s.append type seq tick payload = (.error e,
      s.nextFault.2.commit
        (.appendJournal ((buildRecord type seq tick payload).take fault.written))) := by
  have hmax := s.config.maxJournalBytes.toNat_lt
  have hroom := h.room
  have hbytes := recordBytes_toNat h.bounded
  have hlt : s.journalBytes.toNat + (recordHeaderBytes.toUInt64 + payload.length.toUInt64).toNat <
      2 ^ 64 := by omega
  have hle : ¬ s.journalBytes + (recordHeaderBytes.toUInt64 + payload.length.toUInt64) >
      s.config.maxJournalBytes := by
    rw [gt_iff_lt, UInt64.lt_iff_toNat_lt, UInt64.toNat_add, Nat.mod_eq_of_lt hlt, hbytes]
    omega
  simp only [append, h.isOpen, h.writable, Nat.not_lt.mpr h.bounded,
    addChecked_eq_some.mpr ⟨hlt, rfl⟩, hle, Bool.not_true, Bool.false_eq_true, if_false]
  cases hf : s.nextFault with
  | mk fault s' =>
    cases fault with
    | some fault => exact Or.inr ⟨fault, _, rfl, rfl⟩
    | none =>
      have hs' : s'.journalBytes = s.journalBytes := by
        rw [show s' = s.nextFault.2 by rw [hf]]; rfl
      exact Or.inl ⟨rfl, by rw [appended, hs']⟩

theorem append_nil {s : DurableStore} {type : RecordType} {payload : Bytes} (hf : s.faults = [])
    (h : Accepts s type payload) (seq : RecordSeq) (tick : Tick) :
    s.append type seq tick payload = (.ok (), s.appended type seq tick payload) := by
  have hn := nextFault_nil hf
  rcases append_accepted h seq tick with ⟨-, h⟩ | ⟨fault, e, hfault, -⟩
  · rw [h, hn]
  · simp [hn] at hfault

/-! ### Snapshots -/

/-- The 40 header bytes of a built snapshot. -/
def snapshotHead (payload : Bytes) (covered : RecordSeq) (tick : Tick) : Bytes :=
  let fields := snapshotHeaderFields covered tick payload.length.toUInt32
  fields ++ (ByteWriter.u32 (Crc32c.compute fields) ++ ByteWriter.u32 (Crc32c.compute payload))

@[simp] theorem length_snapshotHeaderFields (covered : RecordSeq) (tick : Tick) (length : UInt32) :
    (snapshotHeaderFields covered tick length).length = snapshotHeaderCrcCoverage := rfl

@[simp] theorem length_snapshotHead (payload : Bytes) (covered : RecordSeq) (tick : Tick) :
    (snapshotHead payload covered tick).length = snapshotHeaderBytes := by
  simp [snapshotHead, snapshotHeaderBytes, snapshotHeaderCrcCoverage]

theorem snapshotBody_eq (payload : Bytes) (covered : RecordSeq) (tick : Tick) :
    snapshotBody payload covered tick = snapshotHead payload covered tick ++ payload := by
  simp only [snapshotBody, snapshotHead, List.flatten_cons, List.flatten_nil, List.append_nil,
    List.append_assoc]

@[simp] theorem length_snapshotBody (payload : Bytes) (covered : RecordSeq) (tick : Tick) :
    (snapshotBody payload covered tick).length = snapshotHeaderBytes + payload.length := by
  rw [snapshotBody_eq, List.length_append, length_snapshotHead]

open ByteReader in
/-- A built snapshot's header reads back as it was written. -/
theorem snapshotHeader_buildSnapshot (payload : Bytes) (covered : RecordSeq) (tick : Tick) :
    snapshotHeader (buildSnapshot payload covered tick) =
      { magic := some snapshotMagic, version := stateFormatVersion, reserved := 0
        payloadLen := payload.length.toUInt32, covered := covered.raw, tick := tick.value
        headerCrc :=
          Crc32c.compute (snapshotHeaderFields covered tick payload.length.toUInt32)
        payloadCrc := Crc32c.compute payload } := by
  have hmagic : ∀ rest, raw 8 (of (snapshotMagic ++ rest)) = (some snapshotMagic, of rest) :=
    raw_write snapshotMagic
  have hlast : u32 (of (ByteWriter.u32 (Crc32c.compute payload))) =
      (Crc32c.compute payload, of []) := by
    simpa using u32_write (Crc32c.compute payload) []
  have htake : (buildSnapshot payload covered tick).take snapshotHeaderBytes =
      snapshotHead payload covered tick := by
    rw [buildSnapshot, snapshotBody_eq, List.append_assoc]
    exact List.take_left' (length_snapshotHead payload covered tick)
  rw [snapshotHeader, htake]
  simp only [readSnapshotHeader, snapshotHead, snapshotHeaderFields, List.flatten_cons,
    List.flatten_nil, List.append_nil, List.append_assoc, bind_of_eq (hmagic _), u16_bind, u32_bind,
    u64_bind, bind_of_eq hlast, pure_apply]

/-- What `write_snapshot` writes is an intact snapshot. -/
theorem scanSnapshot_buildSnapshot {payload : Bytes} (hlen : payload.length ≤ Limits.maxSnapshotBytes)
    (covered : RecordSeq) (tick : Tick) :
    scanSnapshot (buildSnapshot payload covered tick) = .intact payload covered.raw := by
  have hmax : Limits.maxSnapshotBytes = 67108864 := rfl
  have hcount : payload.length.toUInt32.toNat = payload.length := by
    rw [Nat.toUInt32, UInt32.toNat_ofNat']
    omega
  have hlength : (buildSnapshot payload covered tick).length =
      snapshotHeaderBytes + payload.length + snapshotTrailerBytes := by
    rw [buildSnapshot, List.length_append, length_snapshotBody]
    rfl
  have hcover : (buildSnapshot payload covered tick).take snapshotHeaderCrcCoverage =
      snapshotHeaderFields covered tick payload.length.toUInt32 := by
    rw [buildSnapshot, snapshotBody_eq, snapshotHead, List.append_assoc, List.append_assoc]
    exact List.take_left' (length_snapshotHeaderFields _ _ _)
  have hbody : ((buildSnapshot payload covered tick).drop snapshotHeaderBytes).take payload.length =
      payload := by
    rw [buildSnapshot, snapshotBody_eq, List.append_assoc,
      List.drop_left' (length_snapshotHead payload covered tick)]
    exact List.take_left' rfl
  have hwhole : (buildSnapshot payload covered tick).take
      ((buildSnapshot payload covered tick).length - 4) = snapshotBody payload covered tick := by
    rw [buildSnapshot]
    refine List.take_left' ?_
    rw [List.length_append, ByteWriter.length_u32, Nat.add_sub_cancel]
  have htrailer : (ByteReader.u32 (.of ((buildSnapshot payload covered tick).drop
      (snapshotHeaderBytes + payload.length)))).1 =
        Crc32c.compute (snapshotBody payload covered tick) := by
    rw [buildSnapshot, List.drop_left' (length_snapshotBody payload covered tick)]
    have h := ByteReader.u32_write (Crc32c.compute (snapshotBody payload covered tick)) []
    rw [List.append_nil] at h
    rw [h]
  rw [hlength] at hwhole
  rw [scanSnapshot, if_neg (by rw [hlength]; omega)]
  simp only [snapshotHeader_buildSnapshot, hcount, hbody, hcover, hwhole, htrailer, hlength, ne_eq,
    not_true_eq_false, if_false]

/-- A snapshot that meets no fault replaces the old one, whatever becomes of the journal. -/
theorem writeSnapshot_disk {s : DurableStore} (hf : s.faults = []) {payload : Bytes}
    (hlen : payload.length ≤ Limits.maxSnapshotBytes) (covered : RecordSeq) (tick : Tick) :
    (s.writeSnapshot payload covered tick).2.faults = [] ∧ ∃ journal,
      (s.writeSnapshot payload covered tick).2.disk =
        { journal, snapshot := some (buildSnapshot payload covered tick) } := by
  rw [writeSnapshot, if_neg (Nat.not_lt.mpr hlen), nextFault_nil hf]
  dsimp only
  rw [resetJournal]
  split
  · exact ⟨hf, s.disk.journal, rfl⟩
  · rw [nextFault_nil (by exact hf)]
    exact ⟨hf, _, rfl⟩

/-- An append that meets no fault leaves the files alone or adds its record to the journal. -/
theorem append_disk {s : DurableStore} (hf : s.faults = []) (type : RecordType) (seq : RecordSeq)
    (tick : Tick) (payload : Bytes) : (s.append type seq tick payload).2.faults = [] ∧
      ((s.append type seq tick payload).2.disk = s.disk ∨
        (s.append type seq tick payload).2.disk =
          (Effect.appendJournal (buildRecord type seq tick payload)).apply s.disk) := by
  by_cases h : Accepts s type payload
  · rw [append_nil hf h]
    exact ⟨hf, Or.inr rfl⟩
  · obtain ⟨e, required, hrefused⟩ := append_refused h seq tick
    rw [hrefused]
    exact ⟨hf, Or.inl rfl⟩

end DurableStore

end Mbg
