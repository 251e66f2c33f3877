import MicroburstGovernor.Persist.Acknowledged

/-! A store on which no call fails: its journal ends with a whole record and has as many bytes as the
    store counts, so that a replay has nothing to cut off. -/

namespace Mbg

namespace DurableStore

open Framing AckedStore

/-- The journal of a directory has no torn tail, and no more bytes than a reader takes. -/
structure WholeJournal (files : Files) : Prop where
  bounded : (files.journal.getD []).length ≤ Limits.maxJournalBytes
  framed : journalFormat.tail (files.journal.getD []) = []

/-- An open store that meets no fault, over a whole journal that it counts the bytes of. -/
structure Whole (s : DurableStore) : Prop where
  isOpen : s.isOpen = true
  faults : s.faults = []
  counted : s.journalBytes.toNat = s.journal.length
  limit : s.config.maxJournalBytes.toNat ≤ Limits.maxJournalBytes
  journal : WholeJournal s.disk

theorem wholeJournal_empty : WholeJournal {} := ⟨Nat.zero_le _, rfl⟩

/-- An opened store is over the files as they were. -/
theorem whole_openStore {files : Files} (h : WholeJournal files) {config : StoreConfig}
    {s : DurableStore} (hopen : (ofFiles files).openStore config = (.ok (), s)) :
    Whole s ∧ s.disk.snapshot = files.snapshot ∧ s.journal = files.journal.getD [] := by
  have hmax : Limits.maxJournalBytes = 67108864 := rfl
  rw [openStore] at hopen
  by_cases hdir : config.directory.isEmpty = true
  case pos => rw [if_pos hdir] at hopen; cases hopen
  by_cases hlimit : config.maxJournalBytes = 0 ∨
      config.maxJournalBytes.toNat > Limits.maxJournalBytes
  case pos => rw [if_neg hdir, if_pos hlimit] at hopen; cases hopen
  rw [if_neg hdir, if_neg hlimit, if_neg (by simp [ofFiles]), nextFault_nil rfl] at hopen
  rw [not_or] at hlimit
  obtain ⟨journal, snapshot⟩ := files
  cases journal with
  | none =>
    simp only [ofFiles, Option.map_none, reduceCtorEq, if_false, Option.isNone_none, true_or,
      if_true, Prod.mk.injEq, true_and] at hopen
    subst hopen
    exact ⟨⟨rfl, rfl, rfl, Nat.not_lt.mp hlimit.2, ⟨Nat.zero_le _, rfl⟩⟩, rfl, rfl⟩
  | some image =>
    have hlength : image.length ≤ Limits.maxJournalBytes := h.bounded
    have hcount : image.length.toUInt64.toNat = image.length := by
      rw [Nat.toUInt64, UInt64.toNat_ofNat']
      omega
    simp only [ofFiles, Option.map_none, reduceCtorEq, if_false, Option.isNone_some, or_self,
      Bool.false_eq_true, Prod.mk.injEq, true_and] at hopen
    subst hopen
    exact ⟨⟨rfl, rfl, hcount, Nat.not_lt.mp hlimit.2, h⟩, rfl, rfl⟩

/-- The store of an empty directory. -/
def emptyStore : DurableStore := ((DurableStore.ofFiles {}).openStore { directory := "store" }).2

theorem whole_emptyStore : Whole emptyStore :=
  (@whole_openStore {} wholeJournal_empty { directory := "store" } emptyStore rfl).1

/-- An open store that meets no fault empties its journal. -/
theorem resetJournal_open {s : DurableStore} (hopen : s.isOpen = true) (hf : s.faults = [])
    (hlimit : s.config.maxJournalBytes.toNat ≤ Limits.maxJournalBytes) :
    ∃ s', s.resetJournal = (.ok (), s') ∧ Whole s' ∧ s'.lastSequence = s.lastSequence ∧
      s'.disk = { s.disk with journal := some [] } := by
  rw [resetJournal, nextFault_nil hf, hopen]
  exact ⟨_, rfl, ⟨rfl, hf, rfl, hlimit, ⟨Nat.zero_le _, rfl⟩⟩, rfl, rfl⟩

section

variable {s : DurableStore} (h : Whole s)

include h

/-- An append to a whole store either is refused, or adds its record to the frames of the journal. -/
theorem Whole.append_cases (type : RecordType) (seq : RecordSeq) (tick : Tick) (payload : Bytes) :
    (¬ Accepts s type payload ∧ ∃ e required,
      s.append type seq tick payload = (.error e, { s with compactionRequired := required })) ∨
    (Accepts s type payload ∧
      s.append type seq tick payload = (.ok (), s.appended type seq tick payload)) := by
  by_cases haccepts : Accepts s type payload
  · exact Or.inr ⟨haccepts, append_nil h.faults haccepts seq tick⟩
  · exact Or.inl ⟨haccepts, append_refused haccepts seq tick⟩

theorem Whole.required (required : Bool) : Whole { s with compactionRequired := required } :=
  ⟨h.isOpen, h.faults, h.counted, h.limit, h.journal⟩

/-- What an accepted append frames: one record more. -/
theorem Whole.framed_appended {type : RecordType} {payload : Bytes} (haccepts : Accepts s type payload)
    (seq : RecordSeq) (tick : Tick) : framedRecords (s.appended type seq tick payload).disk =
      framedRecords s.disk ++ [⟨type, seq, tick, payload⟩] :=
  framed_acknowledged haccepts h.journal.framed seq tick

theorem Whole.appended {type : RecordType} {payload : Bytes} (haccepts : Accepts s type payload)
    (seq : RecordSeq) (tick : Tick) : Whole (s.appended type seq tick payload) := by
  have hroom := haccepts.room
  have hlimit := h.limit
  have hcounted := h.counted
  have hbytes := recordBytes_toNat haccepts.bounded
  have hmax := s.config.maxJournalBytes.toNat_lt
  have hjournal : (s.appended type seq tick payload).journal =
      s.journal ++ buildRecord type seq tick payload := rfl
  have hlength : (s.appended type seq tick payload).journal.length =
      s.journal.length + (recordHeaderBytes + payload.length) := by
    rw [hjournal, List.length_append, length_buildRecord]
  refine ⟨h.isOpen, h.faults, ?_, h.limit, ⟨?_, ?_⟩⟩
  · rw [hlength, DurableStore.appended, UInt64.toNat_add, hbytes]
    omega
  · exact hlength.trans_le (by omega)
  · exact journalFormat.tail_append_frame h.journal.framed
      (isFrame_buildRecord haccepts.writable haccepts.bounded)

/-- A snapshot that fits is written, and leaves an empty journal. -/
theorem Whole.writeSnapshot {payload : Bytes} (hlen : payload.length ≤ Limits.maxSnapshotBytes)
    (covered : RecordSeq) (tick : Tick) : ∃ s', s.writeSnapshot payload covered tick = (.ok (), s') ∧
      Whole s' ∧ s'.lastSequence = s.lastSequence ∧ s'.disk =
        { journal := some [], snapshot := some (buildSnapshot payload covered tick) } := by
  rw [DurableStore.writeSnapshot, if_neg (Nat.not_lt.mpr hlen), nextFault_nil h.faults]
  dsimp only
  generalize hwritten : ({ s.commit (.replaceSnapshot (buildSnapshot payload covered tick)) with
    syncs := s.syncs + 1 } : DurableStore) = written
  subst hwritten
  exact resetJournal_open h.isOpen h.faults h.limit

/-- A replay finds nothing to cut off. -/
theorem Whole.replay {σ : Type} (visitor : σ → JournaledRecord → Except Failure σ) (start : σ) :
    (s.replay visitor start).2 = s := by
  rw [replay_nil h.isOpen h.faults]
  cases readSnapshot { formatVersion := stateFormatVersion } s.disk.snapshot with
  | error e => rfl
  | ok read =>
    dsimp only
    cases hj : s.disk.journal with
    | none => rfl
    | some image =>
      have hwhole := h.journal.framed
      rw [hj, Option.getD_some] at hwhole
      rw [readBounded]
      split
      · rename_i hlen
        split at hlen
        · cases hlen
          rfl
        · cases hlen
      · rename_i hlen
        split at hlen <;> cases hlen
      · rfl
      · rename_i hlen
        split at hlen
        · cases hlen
        · cases hlen
          split
          · rfl
          · exact if_pos hwhole

end

end DurableStore

end Mbg
