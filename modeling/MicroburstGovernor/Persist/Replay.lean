import MicroburstGovernor.Persist.Scan

/-! What a fault-free replay returns, as a function of the two files. -/

namespace Mbg

namespace DurableStore

/-! ### Calls that meet no fault -/

theorem nextFault_nil {s : DurableStore} (h : s.faults = []) : s.nextFault = (none, s) := by
  cases s; simp only at h; subst h; rfl

@[simp] theorem commit_faults (s : DurableStore) (e : Effect) : (s.commit e).faults = s.faults := rfl
@[simp] theorem commit_isOpen (s : DurableStore) (e : Effect) : (s.commit e).isOpen = s.isOpen := rfl
@[simp] theorem commit_config (s : DurableStore) (e : Effect) : (s.commit e).config = s.config := rfl
@[simp] theorem commit_disk (s : DurableStore) (e : Effect) :
    (s.commit e).disk = e.apply s.disk := rfl
@[simp] theorem commit_effects (s : DurableStore) (e : Effect) :
    (s.commit e).effects = s.effects ++ [e] := rfl

/-- A file as `read_file` returns it when no call fails. -/
def readBounded (file : Option Bytes) (maximum : ℕ) : Except Failure (Option Bytes) :=
  match file with
  | none => .ok none
  | some bytes =>
    if bytes.length > maximum then
      Status.failure .oversized "durable store file exceeds the size bound"
    else .ok (some bytes)

theorem readFile_nil {s : DurableStore} (h : s.faults = []) (file : Option Bytes) (maximum : ℕ) :
    s.readFile file maximum = (readBounded file maximum, s) := by
  rw [readFile, nextFault_nil h]
  cases file with
  | none => rfl
  | some bytes => simp [readBounded]

theorem readBounded_of_le {bytes : Bytes} {maximum : ℕ} (h : bytes.length ≤ maximum) :
    readBounded (some bytes) maximum = .ok (some bytes) := by
  rw [readBounded, if_neg (Nat.not_lt.mpr h)]

/-- The report and payload the snapshot file alone determines. -/
def readSnapshot (report : RecoveryReport) (file : Option Bytes) :
    Except Failure (RecoveryReport × Bytes) :=
  match readBounded file Limits.maxSnapshotBytes with
  | .error e => .error e
  | .ok none => .ok ({ report with snapshotPresent := false }, [])
  | .ok (some bytes) =>
    let report := { report with snapshotPresent := true }
    match scanSnapshot bytes with
    | .damaged outcome detail => .ok ({ report with outcome, detail }, [])
    | .intact payload covered => .ok ({ report with snapshotCoveredSeq := covered }, payload)

theorem loadSnapshot_nil {s : DurableStore} (h : s.faults = []) (report : RecoveryReport) :
    s.loadSnapshot report = (readSnapshot report s.disk.snapshot, s) := by
  rw [loadSnapshot, readFile_nil h, readSnapshot]
  cases readBounded s.disk.snapshot Limits.maxSnapshotBytes with
  | error e => rfl
  | ok file =>
    cases file with
    | none => rfl
    | some bytes =>
      dsimp only
      cases scanSnapshot bytes <;> rfl

theorem truncateJournal_nil {s : DurableStore} (hopen : s.isOpen) (h : s.faults = []) (length : ℕ) :
    s.truncateJournal length =
      (.ok (), { s.commit (.truncateJournal length) with journalBytes := length.toUInt64 }) := by
  rw [truncateJournal, nextFault_nil h]
  simp [hopen]

/-! ### Replay -/

/-- The report on a journal image that has bytes. -/
def scannedReport (report : RecoveryReport) (image : Bytes) : RecoveryReport :=
  { report with
    outcome := (scanEnd (journalFormat.tail image)).1
    detail := (scanEnd (journalFormat.tail image)).2
    bytesValid := (journalFormat.split image).flatten.length
    bytesDiscarded := image.length - (journalFormat.split image).flatten.length
    recordsReplayed := (journalFormat.split image).length }

/-- The report when there is no journal to scan. -/
def unscannedReport (report : RecoveryReport) (present : Bool) : RecoveryReport :=
  if report.snapshotPresent then { report with outcome := .clean }
  else if present then report
  else { report with outcome := .missing, detail := "no durable state present" }

/-- The store after the unverified tail of its journal was retired. -/
def retireTail (s : DurableStore) (image : Bytes) : DurableStore :=
  if journalFormat.tail image = [] then s
  else
    { s.commit (.truncateJournal (journalFormat.split image).flatten.length) with
      journalBytes := (journalFormat.split image).flatten.length.toUInt64 }

theorem tail_length (image : Bytes) : (journalFormat.tail image).length =
    image.length - (journalFormat.split image).flatten.length := List.length_drop

/-- A replay that meets no fault, by the contents of the two files. -/
theorem replay_nil {σ : Type} {s : DurableStore} (hopen : s.isOpen) (h : s.faults = [])
    (visitor : σ → JournaledRecord → Except Failure σ) (start : σ) :
    s.replay visitor start =
      match readSnapshot { formatVersion := stateFormatVersion } s.disk.snapshot with
      | .error e => (.error e, s)
      | .ok (report, payload) =>
        match readBounded s.disk.journal Limits.maxJournalBytes with
        | .error e => (.error e, s)
        | .ok none => (.ok ⟨unscannedReport report false, payload, start⟩, s)
        | .ok (some []) => (.ok ⟨unscannedReport report true, payload, start⟩, s)
        | .ok (some image) =>
          match ((journalFormat.split image).map parseRecord).foldlM visitor start with
          | .error e => (.error e, s)
          | .ok visited => (.ok ⟨scannedReport report image, payload, visited⟩, s.retireTail image) := by
  rw [replay, loadSnapshot_nil h]
  cases readSnapshot { formatVersion := stateFormatVersion } s.disk.snapshot with
  | error e => rfl
  | ok rp =>
    obtain ⟨report, payload⟩ := rp
    dsimp only
    rw [readFile_nil h]
    cases readBounded s.disk.journal Limits.maxJournalBytes with
    | error e => rfl
    | ok file =>
      match file with
      | none => cases hp : report.snapshotPresent <;> simp [unscannedReport, hp]
      | some [] => cases hp : report.snapshotPresent <;> simp [unscannedReport, hp]
      | some (b :: bs) =>
        dsimp only
        rw [dispatch_scanJournal]
        cases ((journalFormat.split (b :: bs)).map parseRecord).foldlM visitor start with
        | error e => rfl
        | ok visited =>
          dsimp only
          have htail : journalFormat.tail (b :: bs) = [] ↔
              (b :: bs).length - (scanJournal (b :: bs)).validEnd = 0 := by
            rw [← List.length_eq_zero_iff, tail_length, scanJournal_eq]
          by_cases ht : journalFormat.tail (b :: bs) = []
          · simp only [htail.mp ht, ne_eq, not_true_eq_false, if_false, retireTail, ht, if_true]
            rw [scannedReport, ht, List.length_map]
            have hend := htail.mp ht
            rw [scanJournal_eq, ht] at hend ⊢
            simp only at hend
            simp only [hend]
          · rw [if_pos (fun hz => ht (htail.mpr hz)), truncateJournal_nil hopen h, retireTail,
              if_neg ht, scanJournal_eq, scannedReport, List.length_map]

/-- Both files are within the bounds the reader enforces. -/
structure Readable (files : Files) : Prop where
  snapshot : ∀ bytes, files.snapshot = some bytes → bytes.length ≤ Limits.maxSnapshotBytes
  journal : ∀ image, files.journal = some image → image.length ≤ Limits.maxJournalBytes

theorem readSnapshot_readable (report : RecoveryReport) {file : Option Bytes}
    (h : ∀ bytes, file = some bytes → bytes.length ≤ Limits.maxSnapshotBytes) :
    ∃ report' payload, readSnapshot report file = .ok (report', payload) := by
  cases file with
  | none => exact ⟨_, _, rfl⟩
  | some bytes =>
    rw [readSnapshot, readBounded_of_le (h bytes rfl)]
    dsimp only
    cases scanSnapshot bytes <;> exact ⟨_, _, rfl⟩

/-- Readable files and a visitor that takes every record: the replay succeeds. -/
theorem replay_readable {σ : Type} {s : DurableStore} (hopen : s.isOpen) (hf : s.faults = [])
    (hr : Readable s.disk) {visitor : σ → JournaledRecord → Except Failure σ} {start visited : σ}
    (hfold : ((journalFormat.split (s.disk.journal.getD [])).map parseRecord).foldlM visitor start =
      .ok visited) : ∃ replayed s', s.replay visitor start = (.ok replayed, s') := by
  obtain ⟨report, payload, hs⟩ :=
    readSnapshot_readable { formatVersion := stateFormatVersion } hr.snapshot
  rw [replay_nil hopen hf, hs]
  match hj : s.disk.journal with
  | none => exact ⟨_, _, rfl⟩
  | some [] => exact ⟨_, _, rfl⟩
  | some (b :: bs) =>
    rw [hj, Option.getD_some] at hfold
    simp only [readBounded_of_le (hr.journal _ hj), hfold]
    exact ⟨_, _, rfl⟩

/-- A replay that succeeds read both files. -/
theorem readable_of_replay {σ : Type} {s : DurableStore} (hopen : s.isOpen) (hf : s.faults = [])
    {visitor : σ → JournaledRecord → Except Failure σ} {start : σ} {replayed : Replayed σ}
    {s' : DurableStore} (h : s.replay visitor start = (.ok replayed, s')) : Readable s.disk := by
  rw [replay_nil hopen hf] at h
  constructor
  · intro bytes hb
    by_contra hlen
    rw [hb, readSnapshot, readBounded, if_pos (by omega)] at h
    simp [Status.failure] at h
  · intro image hj
    by_contra hlen
    cases hs : readSnapshot { formatVersion := stateFormatVersion } s.disk.snapshot with
    | error e => simp [hs] at h
    | ok rp =>
      rw [hs, hj, readBounded, if_pos (by omega)] at h
      simp [Status.failure] at h

/-- A visitor that takes everything. -/
def collectAll (records : List JournaledRecord) (record : JournaledRecord) :
    Except Failure (List JournaledRecord) := .ok (records ++ [record])

theorem foldlM_collectAll : ∀ (records start : List JournaledRecord),
    records.foldlM collectAll start = .ok (start ++ records)
  | [], start => by simp [pure, Except.pure]
  | r :: rs, start => by
    rw [List.foldlM_cons, collectAll]
    have h := foldlM_collectAll rs (start ++ [r])
    rw [List.append_assoc] at h
    exact h

end DurableStore

end Mbg
