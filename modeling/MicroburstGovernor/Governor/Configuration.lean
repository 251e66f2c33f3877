import MicroburstGovernor.Governor.NoLiveness
import MicroburstGovernor.Governor.RecordPath

/-! What the files of a store say of the policies, and what a record or a snapshot changes of it.

    Only policy records and snapshots speak of policies: a record tells the fallback and the
    generation, a snapshot the whole set. -/

namespace Mbg

open DurableStore Framing

/-- The configuration that durable state amounts to. -/
@[ext] structure Configuration where
  fallback : Option Policy := none
  overrides : List PolicyOverride := []
  generation : PolicyGeneration := default

/-- The configuration that a policy set is saved as. -/
def PolicySet.configuration (s : PolicySet) : Configuration :=
  ⟨some s.fallback, s.overrides, s.generation⟩

def RecoveryAccumulator.configuration (acc : RecoveryAccumulator) : Configuration :=
  ⟨acc.fallback, acc.overrides, acc.generation⟩

/-- The generation and the policy that a record installs. -/
def recordPolicy (record : JournaledRecord) : Option (UInt32 × Policy) :=
  match record.type with
  | .policyInstalled =>
    match (RecoveryAccumulator.readPolicyRecord (.of record.payload)).1 with
    | (generation, .ok policy) => some (generation, policy)
    | _ => none
  | _ => none

namespace Configuration

/-- The configuration after a record. -/
def apply (c : Configuration) (record : JournaledRecord) : Configuration :=
  match recordPolicy record with
  | some (generation, policy) => { c with fallback := some policy, generation := ⟨generation⟩ }
  | none => c

theorem apply_of_none {record : JournaledRecord} (h : recordPolicy record = none)
    (c : Configuration) : c.apply record = c := by
  rw [apply, h]

/-- The policy set that a recovery adopts. -/
def policies (c : Configuration) : Option PolicySet :=
  c.fallback.bind fun fallback => (PolicySet.restore fallback c.overrides c.generation).toOption

/-- What the files give back. -/
def ofFiles (files : Files) : Configuration :=
  (appliedRecords files).foldl apply
    ((snapshotState files).elim {} fun state => state.policies.configuration)

end Configuration

theorem PolicySet.Restorable.policies_configuration {s : PolicySet} (h : s.Restorable) :
    s.configuration.policies = some s := by
  change (PolicySet.restore s.fallback s.overrides s.generation).toOption = some s
  rw [h.restore_eq]
  rfl

/-! ### The policies of an accumulator -/

namespace RecoveryAccumulator

theorem configuration_addIntent (acc : RecoveryAccumulator) (intent : InterventionIntent) :
    (acc.addIntent intent).configuration = acc.configuration := by
  rw [addIntent]
  split
  · split <;> rfl
  · rfl

theorem configuration_addEvent (hashing : Hashing) (acc : RecoveryAccumulator)
    (event : BurstEvent) : (addEvent hashing acc event).configuration = acc.configuration := by
  rw [addEvent]
  split <;> rfl

/-- What leaves the configuration alone step by step leaves it alone. -/
theorem configuration_foldl {α : Type} {f : RecoveryAccumulator → α → RecoveryAccumulator}
    (h : ∀ acc a, (f acc a).configuration = acc.configuration) :
    ∀ (as : List α) (acc : RecoveryAccumulator),
      (as.foldl f acc).configuration = acc.configuration
  | [], _ => rfl
  | a :: as, acc => (configuration_foldl h as (f acc a)).trans (h acc a)

theorem configuration_accumulateState (hashing : Hashing) (acc : RecoveryAccumulator)
    (state : PersistedState) :
    (accumulateStateLocked hashing acc state).configuration = state.policies.configuration := by
  change (state.interventions.foldl addIntent (state.events.foldl (addEvent hashing) _)).configuration = _
  rw [configuration_foldl configuration_addIntent, configuration_foldl (configuration_addEvent hashing)]
  rfl

theorem configuration_accumulateRecord (hashing : Hashing) (acc : RecoveryAccumulator)
    (record : JournaledRecord) : (accumulateRecordLocked hashing acc record).configuration =
      acc.configuration.apply record := by
  have hother : record.type ≠ .policyInstalled → recordPolicy record = none := by
    intro hne
    rw [recordPolicy]
    split
    · rename_i htype
      exact absurd htype hne
    · rfl
  cases ht : record.type with
  | policyInstalled =>
    simp only [accumulateRecordLocked, Configuration.apply, recordPolicy, ht]
    generalize (readPolicyRecord (.of record.payload)).1 = read
    obtain ⟨generation, failure | policy⟩ := read <;> rfl
  | episodeOpened | episodeClosed | episodeFenced =>
    rw [Configuration.apply_of_none (hother (by simp [ht]))]
    simp only [accumulateRecordLocked, ht]
    cases (decodeEvent (.of record.payload)).1 <;> rfl
  | interventionRequested | interventionStateChanged =>
    rw [Configuration.apply_of_none (hother (by simp [ht]))]
    simp only [accumulateRecordLocked, ht]
    cases (decodeIntent (.of record.payload)).1 with
    | error failure => rfl
    | ok intent => exact acc.configuration_addIntent intent
  | authorityBound =>
    rw [Configuration.apply_of_none (hother (by simp [ht]))]
    simp only [accumulateRecordLocked, ht]
    generalize (readAuthorityRecord (.of record.payload)).1 = authority
    rfl
  | checkpoint | unknown | episodeUpdated =>
    rw [Configuration.apply_of_none (hother (by simp [ht]))]
    simp only [accumulateRecordLocked, ht]

/-- Recovery accumulates the configuration that the files give back. -/
theorem configuration_ofFiles (hashing : Hashing) (files : Files) :
    (ofFiles hashing files).configuration = Configuration.ofFiles files := by
  have hfold : ∀ (records : List JournaledRecord) (acc : RecoveryAccumulator),
      (records.foldl (accumulateRecordLocked hashing) acc).configuration =
        records.foldl Configuration.apply acc.configuration := by
    intro records
    induction records with
    | nil => exact fun _ => rfl
    | cons record records ih =>
      intro acc
      rw [List.foldl_cons, List.foldl_cons, ih, configuration_accumulateRecord]
  rw [ofFiles, hfold, Configuration.ofFiles]
  cases snapshotState files with
  | none => rfl
  | some state => rw [Option.elim_some, Option.elim_some, configuration_accumulateState]

end RecoveryAccumulator

/-! ### Records and snapshots -/

/-- The sequence up to which the newest snapshot covers the records. -/
def coveredSeq (files : Files) : UInt64 := ((intactSnapshot files).map Prod.snd).getD 0

/-- The snapshot of a directory, if it is intact, decodes. -/
def Decodes (files : Files) : Prop :=
  (intactSnapshot files).isSome = true → (snapshotState files).isSome = true

instance (files : Files) : Decidable (Decodes files) := by
  unfold Decodes
  infer_instance

section

variable {files files' : Files} (h : files'.snapshot = files.snapshot)

include h

theorem intactSnapshot_congr : intactSnapshot files' = intactSnapshot files := by
  rw [intactSnapshot, intactSnapshot, h]

theorem snapshotState_congr : snapshotState files' = snapshotState files := by
  rw [snapshotState, snapshotState, intactSnapshot_congr h]

theorem coveredSeq_congr : coveredSeq files' = coveredSeq files := by
  rw [coveredSeq, coveredSeq, intactSnapshot_congr h]

theorem decodes_congr : Decodes files' ↔ Decodes files := by
  rw [Decodes, Decodes, intactSnapshot_congr h, snapshotState_congr h]

theorem configuration_congr (hjournal : files'.journal.getD [] = files.journal.getD []) :
    Configuration.ofFiles files' = Configuration.ofFiles files := by
  rw [Configuration.ofFiles, Configuration.ofFiles, appliedRecords, appliedRecords,
    snapshotState_congr h, intactSnapshot_congr h, hjournal]

end

section

variable {type : RecordType} {payload : Bytes} (htype : isValidRecordType type.raw = true)
  (hlen : payload.length ≤ Limits.maxJournalRecordBytes)

include htype hlen

/-- A record behind a whole journal is applied unless the snapshot covers its sequence. -/
theorem appliedRecords_appendJournal {files : Files} (h : WholeJournal files) (seq : RecordSeq)
    (tick : Tick) :
    appliedRecords ((Effect.appendJournal (buildRecord type seq tick payload)).apply files) =
      appliedRecords files ++
        if seq.raw ≤ coveredSeq files then [] else [⟨type, seq, tick, payload⟩] := by
  have hframe : journalFormat.IsFrame (buildRecord type seq tick payload) :=
    isFrame_buildRecord htype hlen
  have hsplit := journalFormat.split_append_frame h.framed hframe
  have hsnapshot : intactSnapshot
      ((Effect.appendJournal (buildRecord type seq tick payload)).apply files) =
        intactSnapshot files := rfl
  have hjournal : ((Effect.appendJournal (buildRecord type seq tick payload)).apply
      files).journal.getD [] = files.journal.getD [] ++ buildRecord type seq tick payload := rfl
  rw [appliedRecords, appliedRecords, hsnapshot, hjournal, hsplit, List.map_append,
    List.map_singleton, parseRecord_buildRecord hlen, Governor.uncovered, Governor.uncovered,
    List.filter_append, ← coveredSeq]
  congr 1
  by_cases hcovered : seq.raw ≤ coveredSeq files
  · simp [hcovered]
  · simp [hcovered]

theorem configuration_appendJournal {files : Files} (h : WholeJournal files) (seq : RecordSeq)
    (tick : Tick) : Configuration.ofFiles
      ((Effect.appendJournal (buildRecord type seq tick payload)).apply files) =
        if seq.raw ≤ coveredSeq files then Configuration.ofFiles files
        else (Configuration.ofFiles files).apply ⟨type, seq, tick, payload⟩ := by
  rw [Configuration.ofFiles, appliedRecords_appendJournal htype hlen h, List.foldl_append,
    Configuration.ofFiles]
  split <;> rfl

end

namespace Governor

variable {g : Governor}

theorem intactSnapshot_snapshotFiles (hfits : (encodeState g.exportState).length ≤
    Limits.maxSnapshotBytes) (journal : Bytes) :
    intactSnapshot (g.snapshotFiles journal) =
      some (encodeState g.exportState, g.recordSeq.raw) := by
  have hscan := scanSnapshot_buildSnapshot hfits g.recordSeq g.lastTick
  rw [intactSnapshot, snapshotFiles]
  dsimp only [Option.map_some]
  rw [hscan]

/-- A snapshot that decodes is the state that was exported. -/
theorem snapshotState_snapshotFiles (hw : g.WellFormed)
    (hfits : (encodeState g.exportState).length ≤ Limits.maxSnapshotBytes) (journal : Bytes)
    (hdecodes : Decodes (g.snapshotFiles journal)) :
    snapshotState (g.snapshotFiles journal) = some g.exportState := by
  have hintact := intactSnapshot_snapshotFiles hfits journal
  have hthere := hdecodes (by rw [hintact]; rfl)
  rw [snapshotState, hintact] at hthere ⊢
  dsimp only at hthere ⊢
  cases hempty : (encodeState g.exportState).isEmpty with
  | true =>
    rw [hempty] at hthere
    cases hthere
  | false =>
    rw [hempty] at hthere
    simp only [Bool.false_eq_true, if_false] at hthere ⊢
    cases hdecode : decodeState (encodeState g.exportState) with
    | error failure =>
      rw [hdecode] at hthere
      cases hthere
    | ok state =>
      have hcount := eventCount_of_decodeState hw.policies hdecode
      have hlength : g.exportState.events.length = g.history.length + g.openEvents.size := by
        simp [Governor.exportState, historyOrderedLocked, UnorderedMap.values, UnorderedMap.size]
      have hstate : g.exportState.WellFormed := hw.exportState (hlength ▸ hcount)
      rw [decodeState_encodeState hstate] at hdecode
      rw [← Except.ok.inj hdecode]
      rfl

theorem appliedRecords_snapshotFiles_nil (g : Governor) :
    appliedRecords (g.snapshotFiles []) = [] := by
  rw [appliedRecords, snapshotFiles]
  dsimp only [Option.getD_some]
  rw [journalFormat.split_nil]
  rfl

/-- Behind a snapshot stands no record but one that it covers. -/
theorem appliedRecords_snapshotFiles (hfits : (encodeState g.exportState).length ≤
    Limits.maxSnapshotBytes) {type : RecordType} {payload : Bytes} {now : Tick} {journal : Bytes}
    (htype : isValidRecordType type.raw = true)
    (hlen : payload.length ≤ Limits.maxJournalRecordBytes)
    (hjournal : journal = [] ∨ journal = buildRecord type g.recordSeq now payload) :
    appliedRecords (g.snapshotFiles journal) = [] := by
  have hintact := intactSnapshot_snapshotFiles hfits []
  have hnone := g.appliedRecords_snapshotFiles_nil
  rcases hjournal with rfl | rfl
  · exact hnone
  · have hframed : WholeJournal (g.snapshotFiles []) := ⟨Nat.zero_le _, rfl⟩
    have happended := appliedRecords_appendJournal htype hlen hframed g.recordSeq now
    have hcovered : coveredSeq (g.snapshotFiles []) = g.recordSeq.raw := by
      rw [coveredSeq, hintact]
      rfl
    rw [hnone, hcovered, if_pos (UInt64.le_refl _)] at happended
    exact happended

end Governor

end Mbg
