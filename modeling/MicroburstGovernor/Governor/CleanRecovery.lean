import Mathlib.Data.List.Induction
import MicroburstGovernor.Governor.Recovery
import MicroburstGovernor.Persist.Replay

/-! When recovery may call a store clean: snapshot damage against every kind of journal. -/

namespace Mbg

open DurableStore

/-- The snapshot file is there and fails a framing or checksum test. -/
def SnapshotDamaged (file : Option Bytes) : Prop :=
  ∃ bytes outcome detail, file = some bytes ∧ scanSnapshot bytes = .damaged outcome detail

/-- What a clean recovery promises: of every replay, and of every restore over a damaged snapshot. -/
structure CleanLaw (files : Files) : Prop where
  replay : ∀ s : DurableStore, s.isOpen → s.faults = [] → s.disk = files → ∀ replayed s',
    s.replay collectAll [] = (.ok replayed, s') → replayed.report.outcome = .clean →
      (files.snapshot = none ∨ ∃ bytes covered, files.snapshot = some bytes ∧
        scanSnapshot bytes = .intact replayed.snapshotPayload covered) ∧
      ∀ image, files.journal = some image →
        (scanJournal image).outcome = .clean ∧ (scanJournal image).validEnd = image.length
  restore : ∀ (g : Governor) (s : DurableStore), s.isOpen → s.faults = [] → s.disk = files →
    g.store = some s → SnapshotDamaged files.snapshot → ∀ report g',
      g.restore = (.ok (), report, g') → 1 ≤ report.ambiguousOutcomes

/-! ### What the replay reports -/

theorem readSnapshot_damaged {report : RecoveryReport} {bytes : Bytes} {outcome : RecoveryOutcome}
    {detail : String} (hlen : bytes.length ≤ Limits.maxSnapshotBytes)
    (hd : scanSnapshot bytes = .damaged outcome detail) :
    readSnapshot report (some bytes) =
      .ok ({ report with snapshotPresent := true, outcome, detail }, []) := by
  rw [readSnapshot, readBounded_of_le hlen]
  simp only [hd]

/-- A snapshot that was read: absent, damaged with no payload, or intact with its own. -/
theorem readSnapshot_ok {report report' : RecoveryReport} {file : Option Bytes} {payload : Bytes}
    (h : readSnapshot report file = .ok (report', payload)) :
    (file = none ∧ payload = []) ∨
    (SnapshotDamaged file ∧ payload = []) ∨
    (∃ bytes covered, file = some bytes ∧ scanSnapshot bytes = .intact payload covered) := by
  cases file with
  | none =>
    simp only [readSnapshot, readBounded, Except.ok.injEq, Prod.mk.injEq] at h
    exact Or.inl ⟨rfl, h.2.symm⟩
  | some bytes =>
    by_cases hlen : bytes.length ≤ Limits.maxSnapshotBytes
    · rw [readSnapshot, readBounded_of_le hlen] at h
      cases hs : scanSnapshot bytes with
      | damaged outcome detail =>
        simp only [hs, Except.ok.injEq, Prod.mk.injEq] at h
        exact Or.inr (Or.inl ⟨⟨bytes, outcome, detail, rfl, hs⟩, h.2.symm⟩)
      | intact body covered =>
        simp only [hs, Except.ok.injEq, Prod.mk.injEq] at h
        exact Or.inr (Or.inr ⟨bytes, covered, rfl, by rw [hs, h.2]⟩)
    · rw [readSnapshot, readBounded, if_pos (by omega)] at h
      simp [Status.failure] at h

/-- The journal is absent, empty, or scanned to its last byte. -/
def JournalWhole (journal : Option Bytes) : Prop :=
  ∀ image, journal = some image → journalFormat.tail image = []

theorem journalWhole_iff {journal : Option Bytes} : JournalWhole journal ↔
    ∀ image, journal = some image →
      (scanJournal image).outcome = .clean ∧ (scanJournal image).validEnd = image.length := by
  refine forall₂_congr fun image _ => ?_
  rw [scanJournal_clean]
  refine ⟨fun h => ⟨h, ?_⟩, And.left⟩
  rw [scanJournal_eq, journalFormat.tail_eq_nil_iff.mp h]

/-- Why the scan of a journal that leaves a tail stopped. -/
def journalEnd (journal : Option Bytes) : RecoveryOutcome :=
  (scanEnd (journalFormat.tail (journal.getD []))).1

theorem journalEnd_clean {journal : Option Bytes} :
    journalEnd journal = .clean ↔ JournalWhole journal := by
  cases journal with
  | none => exact ⟨fun _ image h => by simp at h, fun _ => rfl⟩
  | some image =>
    have h : journalEnd (some image) = (scanJournal image).outcome := by
      rw [scanJournal_eq]; rfl
    rw [h, scanJournal_clean]
    exact ⟨fun h _ himage => Option.some.inj himage ▸ h, fun h => h image rfl⟩

/-- The outcome of a replay: that of the journal's end, unless there was nothing to scan. -/
theorem replay_outcome {σ : Type} {s : DurableStore} (hopen : s.isOpen) (hf : s.faults = [])
    {visitor : σ → JournaledRecord → Except Failure σ} {start : σ} {replayed : Replayed σ}
    {s' : DurableStore} (h : s.replay visitor start = (.ok replayed, s')) :
    ∃ report, readSnapshot { formatVersion := stateFormatVersion } s.disk.snapshot =
        .ok (report, replayed.snapshotPayload) ∧
      replayed.report.snapshotPresent = report.snapshotPresent ∧
      replayed.report.snapshotCoveredSeq = report.snapshotCoveredSeq ∧
      ((journalFormat.split (s.disk.journal.getD [])).map parseRecord).foldlM visitor start =
        .ok replayed.visited ∧
      ((s.disk.journal.getD [] ≠ [] ∧ replayed.report.outcome = journalEnd s.disk.journal) ∨
        (s.disk.journal.getD [] = [] ∧
          (report.snapshotPresent → replayed.report.outcome = .clean))) := by
  rw [replay_nil hopen hf] at h
  cases hs : readSnapshot { formatVersion := stateFormatVersion } s.disk.snapshot with
  | error e => simp [hs] at h
  | ok rp =>
    obtain ⟨report, payload⟩ := rp
    simp only [hs] at h
    cases hb : readBounded s.disk.journal Limits.maxJournalBytes with
    | error e => simp [hb] at h
    | ok file =>
      have hfile : file = s.disk.journal := by
        cases hj : s.disk.journal with
        | none => rw [hj] at hb; exact (Except.ok.inj hb).symm
        | some image =>
          rw [hj, readBounded] at hb
          split at hb
          · simp [Status.failure] at hb
          · exact (Except.ok.inj hb).symm
      rw [hb, hfile] at h
      rcases hj : s.disk.journal with - | (- | ⟨b, bs⟩)
      · simp only [hj, Prod.mk.injEq, Except.ok.injEq] at h
        rw [← h.1]
        refine ⟨report, rfl, ?_, ?_, rfl, Or.inr ⟨rfl, fun hp => ?_⟩⟩
        · cases hp : report.snapshotPresent <;> simp [unscannedReport, hp]
        · cases hp : report.snapshotPresent <;> simp [unscannedReport, hp]
        · simp [unscannedReport, hp]
      · simp only [hj, Prod.mk.injEq, Except.ok.injEq] at h
        rw [← h.1]
        refine ⟨report, rfl, ?_, ?_, rfl, Or.inr ⟨rfl, fun hp => ?_⟩⟩
        · cases hp : report.snapshotPresent <;> simp [unscannedReport, hp]
        · cases hp : report.snapshotPresent <;> simp [unscannedReport, hp]
        · simp [unscannedReport, hp]
      · simp only [hj] at h
        cases hfold : ((journalFormat.split (b :: bs)).map parseRecord).foldlM visitor start with
        | error e => simp [hfold] at h
        | ok visited =>
          simp only [hfold, Prod.mk.injEq, Except.ok.injEq] at h
          rw [← h.1]
          exact ⟨report, rfl, rfl, rfl, hfold, Or.inl ⟨by simp, rfl⟩⟩

/-! ### What restore reports -/

/-- The generation a journal record installs a policy under, if it is a readable policy record. -/
def policyGenerationOf (record : JournaledRecord) : Option UInt32 :=
  if record.type = .policyInstalled then
    match (RecoveryAccumulator.readPolicyRecord (.of record.payload)).1 with
    | (generation, .ok _) => some generation
    | (_, .error _) => none
  else none

/-- The generation of the last readable policy record. -/
def lastPolicyGeneration (records : List JournaledRecord) : Option UInt32 :=
  (records.filterMap policyGenerationOf).getLast?

/-- What a journal alone accumulates of the policies: the last readable one, without overrides. -/
structure PolicyRecovered (acc : RecoveryAccumulator) (last : Option UInt32) : Prop where
  overrides : acc.overrides = []
  generation : acc.fallback.map (fun _ => acc.generation.raw) = last
  valid : ∀ policy, acc.fallback = some policy → PolicySet.validate policy = .ok ()

theorem policyRecovered_addIntent {acc : RecoveryAccumulator} {last : Option UInt32}
    (h : PolicyRecovered acc last) (intent : InterventionIntent) :
    PolicyRecovered (acc.addIntent intent) last := by
  rw [RecoveryAccumulator.addIntent]
  split
  · split
    · exact h
    · exact ⟨h.overrides, h.generation, h.valid⟩
  · exact ⟨h.overrides, h.generation, h.valid⟩

theorem valid_of_readPolicyRecord : ByteReader.Always (fun x : UInt32 × Except Failure Policy =>
    ∀ p, x.2 = .ok p → PolicySet.validate p = .ok ()) RecoveryAccumulator.readPolicyRecord := by
  rw [RecoveryAccumulator.readPolicyRecord]
  refine ByteReader.always_bind fun generation => ?_
  exact ByteReader.always_bind_of ByteReader.validate_of_decodePolicy fun policy h =>
    ByteReader.always_pure h

/-- One record: a readable policy record replaces the policy, every other record leaves it. -/
theorem policyRecovered_record {acc : RecoveryAccumulator} {last : Option UInt32}
    (h : PolicyRecovered acc last) (hashing : Hashing) (record : JournaledRecord) :
    PolicyRecovered (acc.accumulateRecordLocked hashing record)
      ((policyGenerationOf record).or last) := by
  have hother : record.type ≠ .policyInstalled → policyGenerationOf record = none :=
    fun hne => if_neg hne
  cases ht : record.type with
  | policyInstalled =>
    have hvalid := valid_of_readPolicyRecord (.of record.payload)
    simp only [RecoveryAccumulator.accumulateRecordLocked, policyGenerationOf, ht, if_true]
    generalize (RecoveryAccumulator.readPolicyRecord (.of record.payload)).1 = read at hvalid ⊢
    obtain ⟨generation, policy⟩ := read
    cases policy with
    | error e => exact h
    | ok policy =>
      refine ⟨h.overrides, rfl, fun p hp => ?_⟩
      simp only [Option.some.injEq] at hp
      subst hp
      exact hvalid policy rfl
  | episodeOpened | episodeClosed | episodeFenced =>
    rw [hother (by simp [ht])]
    simp only [RecoveryAccumulator.accumulateRecordLocked, ht]
    cases (decodeEvent (.of record.payload)).1 <;> exact ⟨h.overrides, h.generation, h.valid⟩
  | interventionRequested | interventionStateChanged =>
    rw [hother (by simp [ht])]
    simp only [RecoveryAccumulator.accumulateRecordLocked, ht]
    cases (decodeIntent (.of record.payload)).1 with
    | error e => exact ⟨h.overrides, h.generation, h.valid⟩
    | ok intent => exact policyRecovered_addIntent h intent
  | authorityBound | checkpoint | unknown | episodeUpdated =>
    rw [hother (by simp [ht])]
    simp only [RecoveryAccumulator.accumulateRecordLocked, ht]
    exact ⟨h.overrides, h.generation, h.valid⟩

/-- The run of the records over an empty accumulator. -/
theorem policyRecovered_records (hashing : Hashing) (records : List JournaledRecord) :
    PolicyRecovered (records.foldl (RecoveryAccumulator.accumulateRecordLocked hashing) {})
      (lastPolicyGeneration records) := by
  induction records using List.reverseRecOn with
  | nil => exact ⟨rfl, rfl, fun policy h => by simp at h⟩
  | append_singleton records record ih =>
    have hlast : lastPolicyGeneration (records ++ [record]) =
        (policyGenerationOf record).or (lastPolicyGeneration records) := by
      cases hp : policyGenerationOf record <;> simp [lastPolicyGeneration, List.filterMap_append, hp]
    rw [List.foldl_append, hlast]
    exact policyRecovered_record ih hashing record

/-- A policy recovered from a journal alone is refused exactly when its generation is zero. -/
theorem restore_policyRecovered {acc : RecoveryAccumulator} {last : Option UInt32} {policy : Policy}
    (h : PolicyRecovered acc last) (hp : acc.fallback = some policy) :
    (∃ e, PolicySet.restore policy acc.overrides acc.generation = .error e) ↔ last = some 0 := by
  have hgen := h.generation
  rw [hp, Option.map_some] at hgen
  have hv := h.valid policy hp
  rw [← hgen, h.overrides, Option.some.injEq]
  by_cases hz : acc.generation.raw = 0
  · simp [PolicySet.restore, PolicySet.require, hz, Status.failure, bind, Except.bind]
  · simp [PolicySet.restore, PolicySet.require, hz, hv, bind, Except.bind, pure, Except.pure,
      PolicySet.admitOverrides]

/-- The ambiguous outcomes of applying a recovery: one more when the policy set is refused. -/
theorem ambiguous_applyRecovery (g : Governor) (acc : RecoveryAccumulator) (report : RestoreReport)
    {last : Option UInt32} (h : PolicyRecovered acc last) :
    (g.applyRecovery acc report).2.ambiguousOutcomes =
      report.ambiguousOutcomes + if last = some 0 then 1 else 0 := by
  have heq : (g.applyRecovery acc report).2.ambiguousOutcomes =
      (g.restorePolicies acc report).2.ambiguousOutcomes := rfl
  rw [heq, Governor.restorePolicies]
  cases hp : acc.fallback with
  | none =>
    have hl : last = none := by rw [← h.generation, hp]; rfl
    simp [hl]
  | some policy =>
    dsimp only
    have hiff := restore_policyRecovered h hp
    cases hr : PolicySet.restore policy acc.overrides acc.generation with
    | error e => rw [if_pos (hiff.mp ⟨e, hr⟩)]
    | ok policies =>
      rw [if_neg (fun hl => by obtain ⟨e, he⟩ := hiff.mpr hl; rw [hr] at he; cases he)]
      rfl

/-- A restore that succeeds over a snapshot with no payload: its journal is within the record
    bound, and what it reports as ambiguous. -/
theorem restore_damaged {g : Governor} {s : DurableStore} (hopen : s.isOpen) (hf : s.faults = [])
    (hg : g.store = some s) (hd : SnapshotDamaged s.disk.snapshot) {report : RestoreReport}
    {g' : Governor} (h : g.restore = (.ok (), report, g')) :
    ((journalFormat.split (s.disk.journal.getD [])).length ≤ Limits.maxRecoveredRecords) ∧
    ∃ replayed s', s.replay Governor.collectRecord [] = (.ok replayed, s') ∧
      report.ambiguousOutcomes =
        (Governor.reportReplay replayed.report).ambiguousOutcomes +
          if lastPolicyGeneration (Governor.uncovered 0
            ((journalFormat.split (s.disk.journal.getD [])).map parseRecord)) = some 0 then 1
          else 0 := by
  rw [Governor.restore, hg] at h
  dsimp only at h
  cases hr : s.replay Governor.collectRecord [] with
  | mk result s' =>
    cases result with
    | error e => simp [hr] at h
    | ok replayed =>
      obtain ⟨report0, hsnap, hpresent, hcovered, hfold, _⟩ := replay_outcome hopen hf hr
      rw [Governor.foldlM_collectRecord _ _ (Nat.zero_le _), List.length_nil, Nat.zero_add,
        List.length_map] at hfold
      split at hfold
      · rename_i hcount
        rw [List.nil_append, Except.ok.injEq] at hfold
        refine ⟨hcount, replayed, s', rfl, ?_⟩
        obtain ⟨bytes, outcome, detail, hbytes, hscan⟩ := hd
        have hpayload : replayed.snapshotPayload = [] ∧ report0.snapshotCoveredSeq = 0 := by
          rw [hbytes, readSnapshot] at hsnap
          cases hb : readBounded (some bytes) Limits.maxSnapshotBytes with
          | error e => simp [hb] at hsnap
          | ok file =>
            have : file = some bytes := by
              rw [readBounded] at hb
              split at hb
              · simp [Status.failure] at hb
              · exact (Except.ok.inj hb).symm
            simp only [hb, this, hscan, Except.ok.injEq, Prod.mk.injEq] at hsnap
            exact ⟨hsnap.2.symm, by rw [← hsnap.1]⟩
        simp only [hr, Prod.mk.injEq, true_and] at h
        have hacc : (g.withStore s').recover replayed =
            ((Governor.uncovered 0 replayed.visited).foldl
              (RecoveryAccumulator.accumulateRecordLocked (g.withStore s').hashing) {},
              Governor.reportReplay replayed.report) := by
          simp [Governor.recover, Governor.accumulateSnapshot, hpayload.1, hcovered, hpayload.2]
        rw [← h.1, hacc, hfold]
        exact ambiguous_applyRecovery _ _ _ (policyRecovered_records _ _)
      · simp [Status.failure] at hfold

/-- Readable files with a journal within the record bound restore. -/
theorem exists_restore {g : Governor} {s : DurableStore} (hopen : s.isOpen) (hf : s.faults = [])
    (hg : g.store = some s) (hr : Readable s.disk)
    (hcount : (journalFormat.split (s.disk.journal.getD [])).length ≤ Limits.maxRecoveredRecords) :
    ∃ report g', g.restore = (.ok (), report, g') := by
  have hfold : ((journalFormat.split (s.disk.journal.getD [])).map parseRecord).foldlM
      Governor.collectRecord [] =
        .ok ((journalFormat.split (s.disk.journal.getD [])).map parseRecord) := by
    rw [Governor.foldlM_collectRecord _ _ (Nat.zero_le _), if_pos (by simpa using hcount),
      List.nil_append]
  obtain ⟨replayed, s', hreplay⟩ := replay_readable hopen hf hr hfold
  rw [Governor.restore, hg]
  dsimp only
  rw [hreplay]
  exact ⟨_, _, rfl⟩

/-! ### The law -/

/-- The damage of a snapshot is not masked: the journal stops at a tail of its own, or it makes the
    restore fail or reject its policy. -/
def DamageSurfaces (files : Files) : Prop :=
  let records := (journalFormat.split (files.journal.getD [])).map parseRecord
  journalEnd files.journal = .truncatedTail ∨ journalEnd files.journal = .corruptTail ∨
    (journalEnd files.journal ≠ .clean ∧ (Limits.maxRecoveredRecords < records.length ∨
      lastPolicyGeneration (Governor.uncovered 0 records) = some 0))

theorem reportReplay_ambiguous (recovery : RecoveryReport) :
    (Governor.reportReplay recovery).ambiguousOutcomes =
      if recovery.outcome = .truncatedTail ∨ recovery.outcome = .corruptTail then 1 else 0 := rfl

/-- The outcome of a replay over a damaged snapshot is that of its journal. -/
theorem replay_outcome_damaged {σ : Type} {s : DurableStore} (hopen : s.isOpen)
    (hf : s.faults = []) (hd : SnapshotDamaged s.disk.snapshot)
    {visitor : σ → JournaledRecord → Except Failure σ} {start : σ} {replayed : Replayed σ}
    {s' : DurableStore} (h : s.replay visitor start = (.ok replayed, s')) :
    replayed.report.outcome = journalEnd s.disk.journal := by
  obtain ⟨report, hs, _, _, _, ⟨_, ho⟩ | ⟨hempty, ho⟩⟩ := replay_outcome hopen hf h
  · exact ho
  · have hread := readable_of_replay hopen hf h
    obtain ⟨bytes, outcome, detail, hb, hscan⟩ := hd
    rw [hb, readSnapshot_damaged (hread.snapshot bytes hb) hscan, Except.ok.injEq,
      Prod.mk.injEq] at hs
    rw [ho (by rw [← hs.1]), journalEnd, hempty]
    rfl

/-- A damaged snapshot over readable files obeys the law only if its damage surfaces. -/
theorem damageSurfaces_of_cleanLaw {files : Files} (h : CleanLaw files) (hr : Readable files)
    (hd : SnapshotDamaged files.snapshot) : DamageSurfaces files := by
  let s : DurableStore := { isOpen := true, disk := files }
  by_contra hnot
  simp only [DamageSurfaces, not_or, not_and, not_lt] at hnot
  obtain ⟨htrunc, hcorrupt, hrest⟩ := hnot
  by_cases hclean : journalEnd files.journal = .clean
  · obtain ⟨replayed, s', hreplay⟩ := replay_readable (s := s) rfl rfl hr (foldlM_collectAll _ [])
    have hout := replay_outcome_damaged (s := s) rfl rfl hd hreplay
    obtain ⟨hnone | ⟨bytes, covered, hb, hscan⟩, _⟩ :=
      h.replay s rfl rfl rfl replayed s' hreplay (hout.trans hclean)
    · obtain ⟨bytes, _, _, hb, _⟩ := hd
      rw [hnone] at hb; cases hb
    · obtain ⟨bytes', _, _, hb', hscan'⟩ := hd
      rw [hb, Option.some.injEq] at hb'
      rw [← hb', hscan] at hscan'; cases hscan'
  · obtain ⟨hcount, hgen⟩ := hrest hclean
    rw [List.length_map] at hcount
    let g : Governor := { store := some s }
    obtain ⟨report, g', hrestore⟩ := exists_restore (g := g) (s := s) rfl rfl rfl hr hcount
    have hone := h.restore g s rfl rfl rfl rfl hd report g' hrestore
    obtain ⟨_, replayed', s'', hreplay', hamb⟩ := restore_damaged (s := s) rfl rfl rfl hd hrestore
    have hout := replay_outcome_damaged (s := s) rfl rfl hd hreplay'
    rw [hamb, reportReplay_ambiguous, hout, if_neg (by rintro (ht | ht); exacts [htrunc ht, hcorrupt ht]),
      if_neg hgen] at hone
    omega

/-- CORRECT: recovery is clean only over sound files exactly when they are not readable at all, when
    the snapshot is not damaged, or when the journal makes the damage surface. -/
theorem cleanLaw_iff (files : Files) : CleanLaw files ↔
    ¬ Readable files ∨ ¬ SnapshotDamaged files.snapshot ∨ DamageSurfaces files := by
  constructor
  · intro h
    by_cases hr : Readable files
    · by_cases hd : SnapshotDamaged files.snapshot
      · exact Or.inr (Or.inr (damageSurfaces_of_cleanLaw h hr hd))
      · exact Or.inr (Or.inl hd)
    · exact Or.inl hr
  · intro h
    constructor
    · rintro s hopen hf rfl replayed s' hreplay hclean
      have hread := readable_of_replay hopen hf hreplay
      obtain ⟨report, hs, _, _, _, hout⟩ := replay_outcome hopen hf hreplay
      refine ⟨?_, journalWhole_iff.mp (journalEnd_clean.mp ?_)⟩
      · rcases readSnapshot_ok hs with ⟨hnone, _⟩ | ⟨hd, _⟩ | ⟨bytes, covered, hb, hscan⟩
        · exact Or.inl hnone
        · rcases h with h | h | h
          · exact absurd hread h
          · exact absurd hd h
          · rw [replay_outcome_damaged hopen hf hd hreplay] at hclean
            simp [DamageSurfaces, hclean] at h
        · exact Or.inr ⟨bytes, covered, hb, hscan⟩
      · rcases hout with ⟨_, ho⟩ | ⟨hempty, _⟩
        · rw [← ho, hclean]
        · rw [journalEnd, hempty]; rfl
    · rintro g s hopen hf rfl hg hd report g' hrestore
      obtain ⟨hcount, replayed, s', hreplay, hamb⟩ := restore_damaged hopen hf hg hd hrestore
      rw [hamb, reportReplay_ambiguous, replay_outcome_damaged hopen hf hd hreplay]
      rcases h with h | h | ht | ht | ⟨_, ht | ht⟩
      · exact absurd (readable_of_replay hopen hf hreplay) h
      · exact absurd hd h
      · simp [ht]
      · simp [ht]
      · rw [List.length_map] at ht; omega
      · simp [ht]

/-- A snapshot file of one byte and no journal: damaged, and reported clean. -/
theorem shortSnapshot_reported_clean : ¬ ∀ files, CleanLaw files := by
  intro h
  have hd : SnapshotDamaged (some [0x00]) := ⟨[0x00], _, _, rfl, rfl⟩
  have hr : Readable { snapshot := some [0x00] } :=
    ⟨fun bytes hb => by rw [← Option.some.inj hb]; decide, fun image hj => by simp at hj⟩
  rcases damageSurfaces_of_cleanLaw (h { snapshot := some [0x00] }) hr hd with ht | ht | ⟨ht, _⟩
  · exact absurd ht (by decide)
  · exact absurd ht (by decide)
  · exact absurd rfl ht

end Mbg
