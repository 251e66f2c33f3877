import MicroburstGovernor.Governor.Deeds
import MicroburstGovernor.Persist.Whole

/-! What one record does to the files of a store that meets no fault.

    It stands at the end of the journal, or the journal was full: then the state in the middle of the
    call became the snapshot, under the sequence of the very record, and the record is covered by it
    whether or not it was written after all. -/

namespace Mbg

open DurableStore Framing

namespace Governor

/-- A governor that counts the next record. -/
def counted (g : Governor) : Governor := { g with recordSeq := ⟨g.recordSeq.raw + 1⟩ }

/-- The files after a snapshot of a governor, over a journal of its own. -/
def snapshotFiles (g : Governor) (journal : Bytes) : Files where
  journal := some journal
  snapshot := some (buildSnapshot (encodeState g.exportState) g.recordSeq g.lastTick)

/-- What a record does to the files. -/
inductive Recorded (g : Governor) (type : RecordType) (payload : Bytes) (now : Tick)
    (before : Files) : Files → Prop
  | appended : Recorded g type payload now before
      ((Effect.appendJournal (buildRecord type g.counted.recordSeq now payload)).apply before)
  | compacted (hfits : (encodeState g.exportState).length ≤ Limits.maxSnapshotBytes)
      (journal : Bytes) (hjournal : journal = [] ∨
        journal = buildRecord type g.counted.recordSeq now payload) :
      Recorded g type payload now before (g.counted.snapshotFiles journal)
  | refused (hlarge : Limits.maxSnapshotBytes < (encodeState g.exportState).length) :
      Recorded g type payload now before before

/-- A governor over a store that meets no fault. -/
def OverWhole (g : Governor) (files : Files) : Prop :=
  ∃ s, g.store = some s ∧ Whole s ∧ s.disk = files

theorem OverWhole.congr {g g' : Governor} {files : Files} (h : g.OverWhole files)
    (same : g'.store = g.store) : g'.OverWhole files := by
  obtain ⟨s, hstore, hs⟩ := h
  exact ⟨s, same.trans hstore, hs⟩

theorem length_exportState_counted (g : Governor) :
    (encodeState g.counted.exportState).length = (encodeState g.exportState).length := by
  rw [length_encodeState, length_encodeState]
  rfl

/-- A snapshot of a governor over a whole store. -/
theorem compactLocked_cases {g : Governor} {files : Files} (h : g.OverWhole files) :
    (Limits.maxSnapshotBytes < (encodeState g.exportState).length ∧
      ∃ failure, g.compactLocked = (.error failure, g)) ∨
    ((encodeState g.exportState).length ≤ Limits.maxSnapshotBytes ∧
      ∃ s', g.compactLocked = (.ok (), g.withStore s') ∧ Whole s' ∧ s'.disk = g.snapshotFiles []) := by
  obtain ⟨s, hstore, hs, -⟩ := h
  rw [compactLocked, hstore]
  dsimp only
  by_cases hlarge : Limits.maxSnapshotBytes < (encodeState g.exportState).length
  · rw [if_pos hlarge]
    exact Or.inl ⟨hlarge, _, rfl⟩
  · rw [if_neg hlarge]
    obtain ⟨s', hwritten, hs', -, hdisk⟩ :=
      hs.writeSnapshot (Nat.not_lt.mp hlarge) g.recordSeq g.lastTick
    rw [hwritten]
    exact Or.inr ⟨Nat.not_lt.mp hlarge, s', rfl, hs', hdisk⟩

theorem face_countAppend (g : Governor) (status : Status) : (g.countAppend status).face = g.face := by
  cases status <;> rfl

theorem storeAppend_eq {g : Governor} {s s' : DurableStore} {type : RecordType} {payload : Bytes}
    {now : Tick} {status : Status} (h : s.append type g.recordSeq now payload = (status, s')) :
    g.storeAppend s type payload now = (status, g.withStore s') := by
  rw [storeAppend, h]

/-- The second try of a record, after a snapshot was taken of the governor that counts it. -/
theorem retry_whole {g : Governor} {s : DurableStore} (hs : Whole s)
    (hdisk : s.disk = g.snapshotFiles []) (type : RecordType) (payload : Bytes) (now : Tick) :
    ∃ s' status, s.append type g.recordSeq now payload = (status, s') ∧ Whole s' ∧
      ((∃ e, status = .error e) ∧ s'.disk = g.snapshotFiles [] ∨
        status = .ok () ∧ s'.disk = g.snapshotFiles (buildRecord type g.recordSeq now payload)) := by
  rcases hs.append_cases type g.recordSeq now payload with
    ⟨-, e, required, hretry⟩ | ⟨haccepts, hretry⟩
  · exact ⟨_, _, hretry, hs.required required, Or.inl ⟨⟨e, rfl⟩, hdisk⟩⟩
  · refine ⟨_, _, hretry, hs.appended haccepts g.recordSeq now, Or.inr ⟨rfl, ?_⟩⟩
    rw [DurableStore.appended, commit_disk, hdisk]
    rfl

/-- A record that finds room. -/
theorem face_appendRecordLocked {g : Governor} {s : DurableStore} (hstore : g.store = some s)
    (hs : Whole s) {type : RecordType} {payload : Bytes} (haccepts : Accepts s type payload)
    (now : Tick) : (g.appendRecordLocked type payload now).face =
      (g.counted.withStore (s.appended type g.counted.recordSeq now payload)).face := by
  have hcounted : ({ g with recordSeq := ⟨g.recordSeq.raw + 1⟩ } : Governor) = g.counted := rfl
  rw [appendRecordLocked]
  split
  case h_1 hnone => rw [hstore] at hnone; cases hnone
  rename_i s₀ hs₀
  obtain rfl : s₀ = s := Option.some.inj (hs₀.symm.trans hstore)
  dsimp only
  rw [hcounted, storeAppend_eq (append_nil hs.faults haccepts g.counted.recordSeq now)]
  exact face_countAppend _ _

/-- The record stands behind the journal, or behind the snapshot that was taken to make room. -/
def Landed (g : Governor) (type : RecordType) (payload : Bytes) (now : Tick)
    (before after : Files) : Prop :=
  after = (Effect.appendJournal (buildRecord type g.counted.recordSeq now payload)).apply before ∨
    (encodeState g.exportState).length ≤ Limits.maxSnapshotBytes ∧
      after = g.counted.snapshotFiles (buildRecord type g.counted.recordSeq now payload)

/-- RECORD: what an append does to a governor over a whole store, to the files, and to the count of
    the records that were lost. -/
theorem appendRecordLocked_cases {g : Governor} {files : Files} (h : g.OverWhole files)
    {type : RecordType} {payload : Bytes} (htype : isValidRecordType type.raw)
    (hlen : payload.length ≤ Limits.maxJournalRecordBytes) (now : Tick) :
    ∃ s', Whole s' ∧ Recorded g type payload now files s'.disk ∧
      (g.appendRecordLocked type payload now).face = (g.counted.withStore s').face ∧
      ((g.appendRecordLocked type payload now).failures = g.failures + 1 ∨
        (g.appendRecordLocked type payload now).failures = g.failures ∧
          Landed g type payload now files s'.disk) := by
  obtain ⟨s, hstore, hs, rfl⟩ := h
  have hcounted : ({ g with recordSeq := ⟨g.recordSeq.raw + 1⟩ } : Governor) = g.counted := rfl
  have hexport := g.length_exportState_counted
  rw [appendRecordLocked]
  split
  case h_1 hnone => rw [hstore] at hnone; cases hnone
  rename_i s₀ hs₀
  obtain rfl : s₀ = s := Option.some.inj (hs₀.symm.trans hstore)
  dsimp only
  rw [hcounted]
  by_cases haccepts : Accepts s₀ type payload
  · have hs' := hs.appended haccepts g.counted.recordSeq now
    have hdisk : (s₀.appended type g.counted.recordSeq now payload).disk =
        (Effect.appendJournal (buildRecord type g.counted.recordSeq now payload)).apply s₀.disk := rfl
    rw [storeAppend_eq (append_nil hs.faults haccepts g.counted.recordSeq now)]
    generalize s₀.appended type g.counted.recordSeq now payload = s' at *
    exact ⟨s', hs', hdisk ▸ .appended, face_countAppend _ _, Or.inr ⟨rfl, Or.inl hdisk⟩⟩
  · obtain ⟨failure, hcode, happend⟩ := DurableStore.append_full hs.isOpen htype hlen haccepts
      g.counted.recordSeq now
    have hs₁ := hs.required true
    have hdisk : ({ s₀ with compactionRequired := true } : DurableStore).disk = s₀.disk := rfl
    rw [storeAppend_eq happend]
    generalize ({ s₀ with compactionRequired := true } : DurableStore) = s₁ at *
    dsimp only
    rw [if_pos hcode, ← hdisk]
    have hover : (g.counted.withStore s₁).OverWhole s₁.disk := ⟨s₁, rfl, hs₁, rfl⟩
    have hsame : (g.counted.withStore s₁).exportState = g.counted.exportState := rfl
    have hfiles : (g.counted.withStore s₁).snapshotFiles [] = g.counted.snapshotFiles [] := rfl
    rcases compactLocked_cases hover with ⟨hlarge, failure', hcompact⟩ | ⟨hfits, s₂, hcompact, hs₂, hd₂⟩
    · rw [hsame, hexport] at hlarge
      rw [hcompact]
      exact ⟨s₁, hs₁, .refused hlarge, rfl, Or.inl rfl⟩
    · rw [hsame, hexport] at hfits
      rw [hfiles] at hd₂
      rw [hcompact]
      obtain ⟨s', status, hretry, hs', hlanded⟩ := retry_whole hs₂ hd₂ type payload now
      have hface : ∀ stats, ({ (g.counted.withStore s₁).withStore s₂ with
          stats } : Governor).recordSeq = g.counted.recordSeq ∧
            (({ (g.counted.withStore s₁).withStore s₂ with stats } : Governor).withStore s').face =
              (g.counted.withStore s').face := fun stats => ⟨rfl, rfl⟩
      dsimp only
      specialize hface { ((g.counted.withStore s₁).withStore s₂).stats with durableCompactions :=
        ((g.counted.withStore s₁).withStore s₂).stats.durableCompactions + 1 }
      split
      case h_1 hnone => cases hnone
      rename_i s₃ hs₃
      obtain rfl : s₂ = s₃ := Option.some.inj hs₃
      have hlost : ({ (g.counted.withStore s₁).withStore s₂ with
        stats := { ((g.counted.withStore s₁).withStore s₂).stats with durableCompactions :=
          ((g.counted.withStore s₁).withStore s₂).stats.durableCompactions + 1 } } :
            Governor).failures = g.failures := rfl
      generalize ({ (g.counted.withStore s₁).withStore s₂ with
        stats := { ((g.counted.withStore s₁).withStore s₂).stats with durableCompactions :=
          ((g.counted.withStore s₁).withStore s₂).stats.durableCompactions + 1 } } : Governor) =
        g₂ at *
      obtain ⟨hseq₂, hface₂⟩ := hface
      rw [← hseq₂] at hretry
      rw [storeAppend_eq hretry]
      refine ⟨s', hs', ?_, (face_countAppend _ _).trans hface₂, ?_⟩
      · rcases hlanded with ⟨-, hd'⟩ | ⟨-, hd'⟩
        · exact hd' ▸ .compacted hfits _ (Or.inl rfl)
        · exact hd' ▸ .compacted hfits _ (Or.inr rfl)
      · rw [← hlost]
        rcases hlanded with ⟨⟨e, rfl⟩, -⟩ | ⟨rfl, hd'⟩
        · exact Or.inl rfl
        · exact Or.inr ⟨rfl, Or.inr ⟨hfits, hd'⟩⟩

theorem appendRecordLocked_whole {g : Governor} {files : Files} (h : g.OverWhole files)
    {type : RecordType} {payload : Bytes} (htype : isValidRecordType type.raw)
    (hlen : payload.length ≤ Limits.maxJournalRecordBytes) (now : Tick) :
    ∃ s', Whole s' ∧ Recorded g type payload now files s'.disk ∧
      (g.appendRecordLocked type payload now).face = (g.counted.withStore s').face := by
  obtain ⟨s', hs', hrecorded, hface, -⟩ := appendRecordLocked_cases h htype hlen now
  exact ⟨s', hs', hrecorded, hface⟩

end Governor

end Mbg
