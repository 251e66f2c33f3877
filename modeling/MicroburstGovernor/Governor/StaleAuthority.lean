import MicroburstGovernor.Governor.NoLiveness

/-! Stale authority: which live intents of an earlier run a restore accounts for. -/

namespace Mbg

open DurableStore Framing

namespace Governor

/-- Every intent left live is counted as stale, and the newest of them stand fenced in the history. -/
structure StaleLaw (files : Files) (report : RestoreReport) (g : Governor) : Prop where
  counted : report.staleAuthorityItems = (staleIds files).length
  fenced : ∀ id ∈ (staleIds files).drop ((staleIds files).length - Limits.maxInterventions),
    ∃ i ∈ g.interventionHistory, i.id = id ∧ i.state = .fenced ∧
      i.revocationVerdict = AuthorityVerdict.bootChanged

/-- The ids that came after the table had taken the room there is. -/
def lateIds (files : Files) : List InterventionId :=
  (CappedTable.firstKeys InterventionIntent.id (appliedIntents files)).drop Limits.maxInterventions

/-- The last applied state of an id is live. -/
def LeftLive (files : Files) (id : InterventionId) : Prop :=
  ∃ intent, CappedTable.last InterventionIntent.id (appliedIntents files) id = some intent ∧
    intent.live = true

section

variable {hashing : Hashing} {config : GovernorConfig} {s : DurableStore} (hopen : s.isOpen)
  (hf : s.faults = []) {report : RestoreReport} {g' : Governor}
  (h : ((new hashing config).bindStore (some s)).restore = (.ok (), report, g'))

include hopen hf h

/-- The report counts every intent left live exactly when none of them came late. -/
theorem counted_iff : report.staleAuthorityItems = (staleIds s.disk).length ↔
    ∀ id ∈ lateIds s.disk, ¬ LeftLive s.disk id := by
  obtain ⟨-, hcounted⟩ := restored_fresh hopen hf h
  rw [hcounted, (RecoveryAccumulator.holds_ofFiles hashing s.disk).interventions, staleIds,
    CappedTable.length_filter_eq_iff]
  refine forall₂_congr fun id _ => ?_
  rw [LeftLive, ← Bool.not_eq_true, Option.any_eq_true]

end

/-- A journal of intent records. -/
def intentJournal (intents : List InterventionIntent) : List JournaledRecord :=
  intents.map fun i => ⟨.interventionStateChanged, ⟨1⟩, ⟨0⟩, encodeIntent i⟩

theorem writable_intentJournal (intents : List InterventionIntent) :
    ∀ r ∈ intentJournal intents, r.Writable := by
  intro r hr
  obtain ⟨i, -, rfl⟩ := List.mem_map.mp hr
  exact ⟨rfl, by dsimp only; rw [length_encodeIntent]; decide⟩

/-- A journal of the states of well formed intents says what they were. -/
theorem appliedIntents_intentJournal {intents : List InterventionIntent}
    (h : ∀ i ∈ intents, i.WellFormed) :
    appliedIntents { journal := some (buildJournal (intentJournal intents)) } = intents := by
  have hrecords : appliedRecords { journal := some (buildJournal (intentJournal intents)) } =
      intentJournal intents := by
    have hparse := parse_buildJournal (writable_intentJournal intents)
    change uncovered 0 ((journalFormat.split (buildJournal (intentJournal intents))).map parseRecord)
      = _
    rw [hparse, uncovered, List.filter_eq_self]
    intro r hr
    obtain ⟨i, -, rfl⟩ := List.mem_map.mp hr
    rfl
  have hread : ∀ i ∈ intents,
      recordIntent ⟨.interventionStateChanged, ⟨1⟩, ⟨0⟩, encodeIntent i⟩ = some i := by
    intro i hi
    have hwrite := ByteReader.decodeIntent_write (h i hi) []
    rw [List.append_nil] at hwrite
    rw [recordIntent]
    dsimp only
    rw [hwrite]
    rfl
  have hnone : snapshotState { journal := some (buildJournal (intentJournal intents)) } = none := rfl
  rw [appliedIntents, hnone, hrecords, intentJournal, List.filterMap_map, Option.elim_none,
    List.nil_append]
  refine (List.filterMap_congr fun i hi => ?_).trans List.filterMap_some
  rw [Function.comp_apply, hread i hi]

/-- The bytes of a journal of intent records. -/
theorem length_intentJournal (intents : List InterventionIntent) :
    (buildJournal (intentJournal intents)).length = intents.length * 178 := by
  rw [buildJournal, List.length_flatten, intentJournal, List.map_map, List.map_map]
  induction intents with
  | nil => rfl
  | cons i intents ih =>
    rw [List.map_cons, List.sum_cons, ih, List.length_cons, Function.comp_apply,
      Function.comp_apply, length_buildRecord, length_encodeIntent,
      show recordHeaderBytes = 44 from rfl]
    omega

/-- An intent of which nothing but its id and its state matters. -/
def bareIntent (id : ℕ) (state : InterventionState) : InterventionIntent :=
  { id := ⟨id.toUInt64⟩, stream := ⟨⟨1⟩, ⟨1⟩, ⟨1⟩⟩, state }

theorem wellFormed_bareIntent (id : ℕ) (state : InterventionState) :
    (bareIntent id state).WellFormed := by
  have hmagnitude : (0 : UInt32) ≤ Limits.maxMagnitudePermille := by decide
  have hstream : StreamKey.valid ⟨⟨1⟩, ⟨1⟩, ⟨1⟩⟩ := by decide
  exact ⟨hmagnitude, rfl, hstream⟩

/-- As many revoked intents as the table holds, and a live one after them. -/
def crowdedIntents : List InterventionIntent :=
  (List.range Limits.maxInterventions).map (bareIntent · .revoked) ++
    [bareIntent Limits.maxInterventions .active]

theorem wellFormed_crowdedIntents : ∀ i ∈ crowdedIntents, i.WellFormed := by
  intro i hi
  rcases List.mem_append.mp hi with hi | hi
  · obtain ⟨n, -, rfl⟩ := List.mem_map.mp hi
    exact wellFormed_bareIntent n .revoked
  · rw [List.mem_singleton.mp hi]
    exact wellFormed_bareIntent _ .active

def crowdedFiles : Files := { journal := some (buildJournal (intentJournal crowdedIntents)) }

theorem length_crowdedIntents : crowdedIntents.length = Limits.maxInterventions + 1 := by
  rw [crowdedIntents, List.length_append, List.length_map, List.length_range,
    List.length_singleton]

theorem nodup_crowdedIntents : (crowdedIntents.map InterventionIntent.id).Nodup := by
  have hids : crowdedIntents.map InterventionIntent.id =
      (List.range (Limits.maxInterventions + 1)).map fun i => ⟨i.toUInt64⟩ := by
    rw [crowdedIntents, List.map_append, List.map_map, List.range_succ, List.map_append]
    rfl
  rw [hids]
  refine List.Nodup.map_on ?_ List.nodup_range
  intro i hi j hj hij
  rw [List.mem_range] at hi hj
  have hmax : Limits.maxInterventions = 1024 := rfl
  have hraw : i.toUInt64 = j.toUInt64 := congrArg StrongId.raw hij
  have hnat := congrArg UInt64.toNat hraw
  rw [Nat.toUInt64, UInt64.toNat_ofNat', UInt64.toNat_ofNat'] at hnat
  omega

/-- Readable: a few hundred kilobytes in as many records as there are intents. -/
theorem readable_crowdedFiles : Readable crowdedFiles ∧
    (journalFormat.split (crowdedFiles.journal.getD [])).length ≤ Limits.maxRecoveredRecords := by
  constructor
  · refine ⟨nofun, fun image himage => ?_⟩
    have himage' : buildJournal (intentJournal crowdedIntents) = image := Option.some.inj himage
    rw [← himage', length_intentJournal, length_crowdedIntents]
    decide
  · have hparse := congrArg List.length
      (parse_buildJournal (writable_intentJournal crowdedIntents))
    have hrecords : (intentJournal crowdedIntents).length = Limits.maxInterventions + 1 := by
      rw [intentJournal, List.length_map, length_crowdedIntents]
    rw [List.length_map, hrecords] at hparse
    have hjournal : crowdedFiles.journal.getD [] =
        buildJournal (intentJournal crowdedIntents) := by
      rw [crowdedFiles, Option.getD_some]
    rw [hjournal, hparse]
    decide

end Governor

end Mbg
