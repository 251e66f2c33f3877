import MicroburstGovernor.Governor.Acts
import MicroburstGovernor.Governor.PoliciesRecovered

/-! A restart from a checkpoint: what a fresh governor makes of the files that another one left.

        policies, counts, sequences       taken over
        history                           taken over, under the new authority
        open episodes                     fenced, at the end of the history
        live intents                      fenced, as the whole intent history

    An open episode is exported as open and an intent as live; neither is anything but history after. -/

namespace Mbg

open DurableStore Framing

namespace Governor

/-! ### The table of intents and their history -/

/-- The live intents are as many as there is room for, and what is in the history has ended. -/
structure Shelved (g : Governor) : Prop where
  room : g.interventions.size ≤ Limits.maxInterventions
  ended : ∀ i ∈ g.interventionHistory, i.live = false

section

variable {g : Governor} (h : g.Shelved)

include h

theorem Shelved.congr {g' : Governor} (htable : g'.interventions.size ≤ g.interventions.size)
    (hhistory : g'.interventionHistory = g.interventionHistory) : g'.Shelved :=
  ⟨htable.trans h.room, hhistory ▸ h.ended⟩

theorem Shelved.pushEmissionLocked (e : Emission) : (g.pushEmissionLocked e).Shelved := by
  rw [Governor.pushEmissionLocked]
  split <;> exact ⟨h.room, h.ended⟩

theorem Shelved.pushInterventionHistory {intent : InterventionIntent} (hended : intent.live = false) :
    (g.pushInterventionHistory intent).Shelved := by
  have hall : ∀ i ∈ g.interventionHistory ++ [intent], i.live = false := by
    intro i hi
    rcases List.mem_append.mp hi with hi | hi
    · exact h.ended i hi
    · rw [List.mem_singleton.mp hi]
      exact hended
  refine ⟨h.room, fun i hi => ?_⟩
  rw [Governor.pushInterventionHistory] at hi
  dsimp only at hi
  split at hi
  · exact hall i (List.mem_of_mem_tail hi)
  · exact hall i hi

end

theorem live_retiredIntent (intent : InterventionIntent) (verdict : AuthorityVerdict) (now : Tick) :
    (Core.retiredIntent intent verdict now).live = false := by
  rw [Core.retiredIntent, InterventionIntent.live]
  dsimp only
  split <;> rfl

theorem size_foldl_erase {κ ν : Type} [DecidableEq κ] (ks : List κ) : ∀ m : UnorderedMap κ ν,
    (ks.foldl UnorderedMap.erase m).size ≤ m.size := by
  induction ks with
  | nil => exact fun m => Nat.le_refl _
  | cons k ks ih =>
    intro m
    exact (ih (m.erase k)).trans (List.length_filter_le _ _)

theorem size_update {κ ν : Type} [DecidableEq κ] (m : UnorderedMap κ ν) (k : κ) (v : ν) :
    (m.update k v).size = m.size := by
  rw [UnorderedMap.size, UnorderedMap.update, UnorderedMap.mapValues, List.length_map]
  rfl

theorem size_emplace_le {κ ν : Type} [DecidableEq κ] (p : Placement (κ × ν)) (m : UnorderedMap κ ν)
    (k : κ) (v : ν) : (m.emplace p k v).size ≤ m.size + 1 := by
  rw [UnorderedMap.emplace]
  split
  · exact Nat.le_succ _
  · exact (p.perm _ (k, v) m.entries).length_eq.le

/-- EVERY ACT keeps the table within its room, and retires only what it ends. -/
theorem shelved_acts : ActLaw fun g g' => g.Shelved → g'.Shelved where
  trans := fun h h' hg => h' (h hg)
  quiet := by
    intro g g' h hg
    have htable : g'.interventions = g.interventions := congrArg Parcel.interventions h
    exact hg.congr (by rw [htable]) (congrArg Parcel.interventionHistory h)
  retired := by
    intro g intent verdict now hg
    have hended := live_retiredIntent intent verdict now
    rw [retiring]
    dsimp only
    generalize Core.retiredIntent intent verdict now = retired at *
    refine Shelved.pushEmissionLocked (Shelved.pushInterventionHistory ?_ hended) _
    have hsize := size_update g.interventions retired.id retired
    split <;> exact ⟨hsize.le.trans hg.room, hg.ended⟩
  swept := fun s hs => ⟨(size_foldl_erase _ _).trans hs.room, hs.ended⟩
  renewed := by
    intro g decision now limit intent hg
    rw [renewing]
    refine Shelved.pushEmissionLocked ?_ _
    exact ⟨(size_update _ _ _).le.trans hg.room, hg.ended⟩
  issued := by
    intro g decision now kind limit hroom hg
    rw [issuing]
    refine Shelved.pushEmissionLocked ?_ _
    exact ⟨(size_emplace_le _ _ _ _).trans hroom, hg.ended⟩
  opened := by
    intro g event now hg
    rw [opening]
    refine Shelved.pushEmissionLocked ?_ _
    exact ⟨hg.room, hg.ended⟩
  ended := by
    intro g event fenced now hg
    have hrecorded : (g.recordEventLocked event).Shelved := by
      have hparcel := g.parcel_recordEventLocked event
      have htable : (g.recordEventLocked event).interventions = g.interventions :=
        congrArg Parcel.interventions hparcel
      exact hg.congr (by rw [htable]) (congrArg Parcel.interventionHistory hparcel)
    rw [ending]
    dsimp only
    generalize g.recordEventLocked event = g₁ at *
    refine Shelved.pushEmissionLocked ?_ _
    split <;> exact ⟨hrecorded.room, hrecorded.ended⟩
  installed := fun g e _ hg => hg.pushEmissionLocked e
  bound := by
    intro g g₁ epoch incarnation boot h hg
    exact (h ⟨hg.room, hg.ended⟩).pushEmissionLocked _

section

variable {g : Governor} (h : g.Shelved)

include h

theorem Shelved.announceAuthority : g.announceAuthority.Shelved := by
  rw [Governor.announceAuthority]
  split
  · have hpushed : ∀ e, (g.pushEmissionLocked e).Shelved := fun e => h.pushEmissionLocked e
    exact shelved_acts.quiet (parcel_appendRecordLocked _ _ _ _) (hpushed _)
  · exact h.pushEmissionLocked _

theorem Shelved.restoreEvents (acc : RecoveryAccumulator) : (g.restoreEvents acc).Shelved := by
  have htable : (g.restoreEvents acc).interventions = g.interventions :=
    congrArg Core.interventions (g.core_restoreEvents acc)
  have hhistory : (g.restoreEvents acc).interventionHistory = g.interventionHistory :=
    congrArg Prod.snd (g.shelves_restoreEvents acc)
  exact h.congr (by rw [htable]) hhistory

theorem Shelved.restoreInterventions (acc : RecoveryAccumulator) :
    (g.restoreInterventions acc).Shelved := by
  rw [Governor.restoreInterventions]
  generalize acc.interventions.filter InterventionIntent.live = stale
  induction stale generalizing g with
  | nil => exact h
  | cons intent stale ih => exact ih (h.pushInterventionHistory rfl)

theorem Shelved.applyRecovery (acc : RecoveryAccumulator) (report : RestoreReport) :
    (g.applyRecovery acc report).1.Shelved := by
  have hpolicies : (g.restorePolicies acc report).1.Shelved := by
    rw [restorePolicies]
    split
    · exact h
    · split
      · exact ⟨h.room, h.ended⟩
      · exact h
  rw [Governor.applyRecovery]
  generalize g.restorePolicies acc report = restored at *
  obtain ⟨hroom, hended⟩ := (hpolicies.restoreEvents acc).restoreInterventions acc
  exact ⟨hroom, hended⟩

theorem Shelved.restore : g.restore.2.2.Shelved := by
  rw [Governor.restore]
  split
  · exact h
  · split
    · exact ⟨h.room, h.ended⟩
    · refine Shelved.announceAuthority (Shelved.applyRecovery ?_ _ _)
      exact ⟨h.room, h.ended⟩

/-- STEP: whatever is called, the live intents have room and the history has ended. -/
theorem Shelved.step (op : Op) : (g.step op).Shelved := by
  cases hrestores : op.restores with
  | true =>
    cases op with
    | restore => exact h.restore
    | _ => cases hrestores
  | false =>
    cases hdrains : op.drains with
    | true =>
      cases op with
      | drainEmissions => exact ⟨h.room, h.ended⟩
      | _ => cases hdrains
    | false => exact shelved_acts.step g hrestores hdrains h

theorem Shelved.run (ops : List Op) : (Runs.run Governor.step g ops).Shelved := by
  induction ops generalizing g with
  | nil => exact h
  | cons op ops ih => exact ih (h.step op)

end

theorem shelved_new (hashing : Hashing) (config : GovernorConfig) : (new hashing config).Shelved :=
  ⟨Nat.zero_le _, fun i hi => by cases hi⟩

/-! ### What is exported of the intents -/

/-- STALE: of the exported intents the last states that are live are the live intents, no more and no
    less. -/
theorem stale_exported {g : Governor} (h : g.Shelved) (hkeyed : g.core.Keyed) :
    ((g.collectPersistedInterventionsLocked.foldl
      (CappedTable.write InterventionIntent.id Limits.maxInterventions) []).filter
        InterventionIntent.live).Perm g.liveInterventions := by
  have hids : g.interventions.values.map InterventionIntent.id = g.interventions.keys := by
    rw [UnorderedMap.values, UnorderedMap.keys, List.map_map]
    exact List.map_congr_left fun e he => hkeyed e he
  have hnodup : (g.interventions.values.map InterventionIntent.id).Nodup := by
    rw [hids]
    exact g.interventions.nodup
  have hlen : g.interventions.values.length ≤ Limits.maxInterventions := by
    rw [UnorderedMap.values, List.length_map]
    exact h.room
  -- the bound on the export drops retired intents only
  obtain ⟨kept, hsub, hexported⟩ : ∃ kept, kept ⊆ g.interventionHistory ∧
      g.collectPersistedInterventionsLocked = kept ++ g.interventions.values := by
    refine ⟨g.interventionHistory.drop ((g.interventionHistory ++ g.interventions.values).length -
      Limits.maxInterventions), List.drop_subset _ _, ?_⟩
    rw [collectPersistedInterventionsLocked, List.drop_append_of_le_length (by rw [List.length_append]; omega)]
  have hbound : g.collectPersistedInterventionsLocked.length ≤ Limits.maxInterventions := by
    rw [collectPersistedInterventionsLocked, List.length_drop]
    omega
  rw [hexported] at hbound ⊢
  refine (List.perm_ext_iff_of_nodup ?_ ?_).mpr fun i => ?_
  · exact (CappedTable.nodup_foldl_write _ _).of_map.filter _
  · exact hnodup.of_map.filter _
  · rw [List.mem_filter, CappedTable.mem_foldl_write_of_le hbound, CappedTable.last_append,
      liveInterventions, List.mem_filter]
    refine and_congr_left fun hlive => ⟨fun hlast => ?_, fun hmem => ?_⟩
    · cases htable : CappedTable.last InterventionIntent.id g.interventions.values i.id with
      | none =>
        rw [htable, Option.none_or] at hlast
        have hended := h.ended i (hsub (CappedTable.mem_of_last hlast))
        rw [hlive] at hended
        cases hended
      | some j =>
        rw [htable, Option.some_or, Option.some.injEq] at hlast
        exact hlast ▸ CappedTable.mem_of_last htable
    · rw [CappedTable.last_of_nodup hnodup hmem, Option.some_or]

end Governor

/-! ### What is exported of the episodes -/

/-- The episodes that a list of events leaves in flight: of every identity the last open event. -/
structure InFlight (events unfinished : List BurstEvent) : Prop where
  distinct : (unfinished.map BurstEvent.id).Nodup
  last : ∀ e, e ∈ unfinished ↔
    CappedTable.last BurstEvent.id (events.filter BurstEvent.isOpen) e.id = some e

namespace RecoveryAccumulator

theorem openEvents_addIntent (acc : RecoveryAccumulator) (intent : InterventionIntent) :
    (acc.addIntent intent).openEvents = acc.openEvents := by
  rw [addIntent]
  split
  · split <;> rfl
  · rfl

theorem openEvents_foldl_addIntent (intents : List InterventionIntent) :
    ∀ acc : RecoveryAccumulator, (intents.foldl addIntent acc).openEvents = acc.openEvents := by
  induction intents with
  | nil => exact fun _ => rfl
  | cons intent intents ih => exact fun acc => (ih _).trans (acc.openEvents_addIntent intent)

/-- The table of a recovery holds the last open event of every identity. -/
theorem find?_foldl_addEvent (hashing : Hashing) (events : List BurstEvent) (id : EventId) :
    ∀ acc : RecoveryAccumulator, (events.foldl (addEvent hashing) acc).openEvents.find? id =
      (CappedTable.last BurstEvent.id (events.filter BurstEvent.isOpen) id).or
        (acc.openEvents.find? id) := by
  induction events using List.reverseRecOn with
  | nil => exact fun acc => rfl
  | append_singleton events event ih =>
    intro acc
    rw [List.foldl_append, List.foldl_cons, List.foldl_nil, addEvent, List.filter_append]
    cases hopen : event.isOpen with
    | false =>
      have hnone : [event].filter BurstEvent.isOpen = [] := by simp [hopen]
      rw [if_neg Bool.false_ne_true, hnone, List.append_nil]
      exact ih acc
    | true =>
      have hsome : [event].filter BurstEvent.isOpen = [event] := by simp [hopen]
      rw [if_pos rfl, hsome, CappedTable.last_concat]
      dsimp only
      rw [UnorderedMap.find?_assign, ih]
      by_cases hid : event.id = id
      · rw [if_pos hid.symm, if_pos hid, Option.some_or]
      · rw [if_neg (Ne.symm hid), if_neg hid]

theorem inFlight_accumulateState (hashing : Hashing) (state : PersistedState) :
    InFlight state.events (accumulateStateLocked hashing {} state).openEvents.values := by
  have hfind : ∀ id, (accumulateStateLocked hashing {} state).openEvents.find? id =
      CappedTable.last BurstEvent.id (state.events.filter BurstEvent.isOpen) id := by
    intro id
    have hopen : (accumulateStateLocked hashing {} state).openEvents =
        (state.events.foldl (addEvent hashing)
          { fallback := some state.policies.fallback
            overrides := state.policies.overrides
            generation := state.policies.generation }).openEvents :=
      openEvents_foldl_addIntent state.interventions _
    rw [hopen, find?_foldl_addEvent]
    exact Option.or_none
  generalize (accumulateStateLocked hashing {} state).openEvents = table at *
  have hkeyed : ∀ e ∈ table.entries, e.2.id = e.1 := by
    intro e he
    have hlast := hfind e.1
    rw [UnorderedMap.find?_eq_some.mpr he] at hlast
    exact CappedTable.key_of_last hlast.symm
  refine ⟨?_, fun e => ?_⟩
  · have hids : table.values.map BurstEvent.id = table.keys := by
      rw [UnorderedMap.values, UnorderedMap.keys, List.map_map]
      exact List.map_congr_left fun e he => hkeyed e he
    rw [hids]
    exact table.nodup
  · rw [← hfind, UnorderedMap.find?_eq_some, UnorderedMap.values, List.mem_map]
    constructor
    · rintro ⟨entry, hentry, rfl⟩
      have hkey := hkeyed entry hentry
      rw [hkey]
      exact hentry
    · intro hmem
      exact ⟨_, hmem, rfl⟩

end RecoveryAccumulator

namespace Governor

/-! ### Counts and sequences -/

/-- The counts and the clock that a snapshot carries. -/
structure Carried where
  decisions : UInt64
  episodesOpened : UInt64
  episodesClosed : UInt64
  episodesFenced : UInt64
  interventionsRequested : UInt64
  interventionsRevoked : UInt64
  lastTick : Tick

def carried (g : Governor) : Carried :=
  ⟨g.stats.decisions, g.stats.episodesOpened, g.stats.episodesClosed, g.stats.episodesFenced,
    g.stats.interventionsRequested, g.stats.interventionsRevoked, g.lastTick⟩

theorem carried_pushEmissionLocked (g : Governor) (e : Emission) :
    (g.pushEmissionLocked e).carried = g.carried := by
  rw [pushEmissionLocked]
  split <;> rfl

theorem carried_appendRecordLocked (g : Governor) (type : RecordType) (payload : Bytes)
    (tick : Tick) : (g.appendRecordLocked type payload tick).carried = g.carried := by
  refine appendRecordLocked_induct (P := fun g' => g'.carried = g.carried) ?_ ?_ ?_ rfl type payload
    tick
  · intro g' store h
    exact h
  · intro g' recordSeq h
    exact h
  · intro g' written failures compactions h
    exact h

theorem carried_announceAuthority (g : Governor) : g.announceAuthority.carried = g.carried := by
  rw [announceAuthority]
  split
  · rw [carried_appendRecordLocked, carried_pushEmissionLocked]
  · rw [carried_pushEmissionLocked]

/-- An announcement is a record, if records are written. -/
theorem recordSeq_announceAuthority {g : Governor} (h : g.Journaled) :
    g.announceAuthority.recordSeq.raw =
      g.recordSeq.raw + if g.config.enableJournal then 1 else 0 := by
  have hpushed : ∀ e, (g.pushEmissionLocked e).Journaled ∧
      (g.pushEmissionLocked e).recordSeq = g.recordSeq ∧
        (g.pushEmissionLocked e).config = g.config := by
    intro e
    have hbinding := g.binding_pushEmissionLocked e
    refine ⟨h.congr (store_of_binding hbinding), congrArg (fun b => b.2.1) hbinding, ?_⟩
    rw [Governor.pushEmissionLocked]
    split <;> rfl
  have htype : isValidRecordType RecordType.authorityBound.raw = true := rfl
  rw [announceAuthority]
  generalize ({ kind := .authorityBound, epoch := g.context.epoch,
                incarnation := g.context.incarnation, tick := g.lastTick } : Emission) = e
  obtain ⟨⟨files, hfiles⟩, hseq, hconfig⟩ := hpushed e
  generalize g.pushEmissionLocked e = g₁ at *
  rw [hconfig]
  split
  · obtain ⟨s', -, -, hface⟩ := appendRecordLocked_whole hfiles htype (length_authorityPayload_le g₁)
      g₁.lastTick
    have hcounted : (g₁.appendRecordLocked .authorityBound g₁.authorityPayload
        g₁.lastTick).recordSeq = g₁.counted.recordSeq := congrArg Face.recordSeq hface
    rw [hcounted, counted, hseq]
  · rw [hseq]
    exact (UInt64.add_zero _).symm

/-- A sequence that is taken over if it lies behind zero is taken over. -/
theorem eq_of_taken {d : IdDomain} (a : StrongId d UInt64) : (if a.raw > 0 then a else ⟨0⟩) = a := by
  obtain ⟨raw⟩ := a
  split
  · rfl
  · rename_i h
    rw [UInt64.not_lt, UInt64.le_zero_iff] at h
    rw [← h]

theorem eq_of_reached (a : Tick) : (if a.value > 0 then a else ⟨0⟩) = a := by
  obtain ⟨value⟩ := a
  split
  · rfl
  · rename_i h
    rw [UInt64.not_lt, UInt64.le_zero_iff] at h
    rw [← h]

/-- A fresh governor takes the counts and the clock over as they were saved. -/
theorem carried_restoreCounters {g : Governor} {state : PersistedState} (htick : g.lastTick = ⟨0⟩) :
    (g.restoreCounters state).carried = ⟨state.decisions, state.episodesOpened, state.episodesClosed,
      state.episodesFenced, state.interventionsRequested, state.interventionsRevoked,
      state.lastTick⟩ := by
  rw [carried]
  simp only [restoreCounters, htick, eq_of_reached]

/-- Its decision sequence is unset, and nothing lies behind that: it starts anew. -/
theorem decisionSeq_restoreCounters {g : Governor} {state : PersistedState}
    (hseq : g.decisionSeq = default) : (g.restoreCounters state).decisionSeq = default := by
  have hlast : ¬ state.lastDecisionSeq.raw > (default : DecisionSeq).raw := by
    have hmax : (default : DecisionSeq).raw = 0xFFFFFFFFFFFFFFFF := rfl
    have hbound := state.lastDecisionSeq.raw.toNat_lt
    rw [hmax, gt_iff_lt, UInt64.lt_iff_toNat_lt]
    have htop : (0xFFFFFFFFFFFFFFFF : UInt64).toNat = 2 ^ 64 - 1 := rfl
    omega
  simp only [restoreCounters, hseq, if_neg hlast]

/-! ### Reading a checkpoint -/

section

variable {g : Governor}

/-- A state that the decoder accepts is found in the snapshot that it was written to. -/
theorem snapshotState_exported (hstate : g.exportState.WellFormed) (journal : Bytes) :
    snapshotState (g.snapshotFiles journal) = some g.exportState := by
  have hintact := intactSnapshot_snapshotFiles hstate.length_le journal
  have hnonempty : (encodeState g.exportState).isEmpty = false := by
    have hlength := length_encodeState g.exportState
    cases hbytes : encodeState g.exportState with
    | nil =>
      rw [hbytes, List.length_nil] at hlength
      omega
    | cons b bytes => rfl
  rw [snapshotState, hintact]
  dsimp only
  rw [hnonempty, if_neg Bool.false_ne_true, decodeState_encodeState hstate]
  rfl

/-- A snapshot of a state that the decoder accepts is read back whole. -/
theorem restores_snapshotFiles (hstate : g.exportState.WellFormed) :
    WholeJournal (g.snapshotFiles []) ∧ Restores (g.snapshotFiles []) := by
  have hwhole : WholeJournal (g.snapshotFiles []) := ⟨Nat.zero_le _, rfl⟩
  refine ⟨hwhole, (restores_of_wholeJournal hwhole).mpr ⟨fun bytes hbytes => ?_, Nat.zero_le _⟩⟩
  have hmax : Limits.maxSnapshotBytes = 67108864 := rfl
  have hpersisted : Limits.maxEventsPersisted = 65536 := rfl
  have hroom : Limits.maxInterventions = 1024 := rfl
  have hoverrides : g.exportState.policies.overrides.length ≤ 256 := hstate.policies.bounded
  have hevents := hstate.eventCount
  have hintents := hstate.interventionCount
  have hlength := length_encodeState g.exportState
  have hheader : snapshotHeaderBytes = 40 := rfl
  have htrailer : snapshotTrailerBytes = 4 := rfl
  obtain rfl : buildSnapshot (encodeState g.exportState) g.recordSeq g.lastTick = bytes :=
    Option.some.inj hbytes
  rw [buildSnapshot, List.length_append, length_snapshotBody, ByteWriter.length_u32]
  omega

variable {s : DurableStore} (hsnapshot : s.disk.snapshot = (g.snapshotFiles []).snapshot)
  (hjournal : s.disk.journal.getD [] = [])

include hsnapshot hjournal

theorem ofFiles_exported (hashing : Hashing) (hstate : g.exportState.WellFormed) :
    RecoveryAccumulator.ofFiles hashing s.disk =
      RecoveryAccumulator.accumulateStateLocked hashing {} g.exportState := by
  have hrecords : appliedRecords s.disk = [] := by
    rw [appliedRecords, hjournal, journalFormat.split_nil]
    rfl
  rw [RecoveryAccumulator.ofFiles, hrecords, snapshotState_congr hsnapshot,
    snapshotState_exported hstate]
  rfl

/-- The replay of a checkpoint is clean, and the report of it is all there is to say so far. -/
theorem recover_exported (hs : Whole s) (hstate : g.exportState.WellFormed) {b : Governor}
    {replayed : Replayed (List JournaledRecord)} {s' : DurableStore}
    (hreplay : s.replay collectRecord [] = (.ok replayed, s')) :
    (b.recover replayed).1 =
        RecoveryAccumulator.accumulateStateLocked b.hashing {} g.exportState ∧
      (b.recover replayed).2.ambiguousOutcomes = 0 ∧
      (b.recover replayed).2.configurationItems = 0 ∧ (b.recover replayed).2.historyItems = 0 ∧
      (b.recover replayed).2.unfinishedAttempts = 0 ∧
      (b.recover replayed).2.staleAuthorityItems = 0 := by
  have hacc := (b.recover_eq hs.isOpen hs.faults hreplay).1
  rw [ofFiles_exported hsnapshot hjournal _ hstate] at hacc
  refine ⟨hacc, ?_⟩
  obtain ⟨report, hread, hpresent, -, -, houtcome⟩ := replay_outcome hs.isOpen hs.faults hreplay
  have hintact := intactSnapshot_snapshotFiles hstate.length_le []
  rw [← intactSnapshot_congr hsnapshot] at hintact
  rcases intactSnapshot_of_read hread with ⟨hnone, -, -⟩ | ⟨hsome, hthere⟩
  · rw [hnone] at hintact
    cases hintact
  · rw [hsome, Option.some.injEq, Prod.mk.injEq] at hintact
    have hclean : replayed.report.outcome = .clean := by
      rcases houtcome with ⟨hne, -⟩ | ⟨-, hclean⟩
      · exact absurd hjournal hne
      · exact hclean hthere
    have hreport : (b.recover replayed).2 = reportReplay replayed.report := by
      have hsnap : (b.recover replayed).2 = (accumulateSnapshot b.hashing replayed.report
          replayed.snapshotPayload (reportReplay replayed.report)).2 := rfl
      rw [hsnap, accumulateSnapshot, hintact.1, decodeState_encodeState hstate]
      split <;> rfl
    rw [hreport, reportReplay, hclean]
    exact ⟨rfl, rfl, rfl, rfl, rfl⟩

end

/-- What a recovery accumulates of a checkpoint of `g`. -/
structure Accumulated (g : Governor) (acc : RecoveryAccumulator) : Prop where
  configuration : acc.configuration = g.policies.configuration
  counters : acc.counters = g.exportState
  committed : acc.closedEvents =
    (g.eventHistory ++ g.openEvents.values).filter fun e => !e.isOpen
  inFlight : InFlight (g.eventHistory ++ g.openEvents.values) acc.openEvents.values
  stale : (acc.interventions.filter InterventionIntent.live).Perm g.liveInterventions
  room : acc.interventions.length ≤ Limits.maxInterventions

theorem accumulated_exported {g : Governor} (hshelved : g.Shelved) (hkeyed : g.core.Keyed)
    (hashing : Hashing) : g.Accumulated
      (RecoveryAccumulator.accumulateStateLocked hashing {} g.exportState) := by
  have hholds := RecoveryAccumulator.holds_accumulateState hashing g.exportState
  have hintents : g.exportState.interventions = g.collectPersistedInterventionsLocked := by
    simp only [exportState]
  refine ⟨RecoveryAccumulator.configuration_accumulateState hashing {} g.exportState, rfl,
    hholds.committed, RecoveryAccumulator.inFlight_accumulateState hashing g.exportState, ?_, ?_⟩
  · rw [hholds.interventions, hintents]
    exact stale_exported hshelved hkeyed
  · rw [hholds.interventions]
    exact CappedTable.length_foldl_write _ _

/-! ### Applying it -/

/-- What applying a recovery leaves alone before it sets the counters. -/
structure Seat where
  recordSeq : RecordSeq
  decisionSeq : DecisionSeq
  lastTick : Tick
  store : Option DurableStore
  config : GovernorConfig

def seat (g : Governor) : Seat := ⟨g.recordSeq, g.decisionSeq, g.lastTick, g.store, g.config⟩

theorem seat_foldl {α : Type} {turn : Governor → α → Governor}
    (hturn : ∀ g a, (turn g a).seat = g.seat) (as : List α) :
    ∀ g, (as.foldl turn g).seat = g.seat := by
  induction as with
  | nil => exact fun g => rfl
  | cons a as ih => exact fun g => (ih (turn g a)).trans (hturn g a)

theorem seat_restorePolicies (g : Governor) (acc : RecoveryAccumulator) (report : RestoreReport) :
    (g.restorePolicies acc report).1.seat = g.seat := by
  rw [restorePolicies]
  split
  · rfl
  · split <;> rfl

theorem seat_restoreEvents (g : Governor) (acc : RecoveryAccumulator) :
    (g.restoreEvents acc).seat = g.seat := by
  have hrecord : ∀ (g : Governor) event, (g.recordEventLocked event).seat = g.seat := by
    intro g event
    rw [recordEventLocked]
    dsimp only
    split <;> rfl
  rw [restoreEvents]
  exact (seat_foldl (fun g e => hrecord g _) _ _).trans (seat_foldl (fun g e => hrecord g _) _ _)

theorem seat_restoreInterventions (g : Governor) (acc : RecoveryAccumulator) :
    (g.restoreInterventions acc).seat = g.seat := by
  rw [restoreInterventions]
  refine seat_foldl (fun g i => ?_) _ _
  rfl

/-- Policies that a set was saved as are adopted, and counted with the overrides. -/
theorem report_restorePolicies {acc : RecoveryAccumulator} {policies : PolicySet}
    (hrestorable : policies.Restorable) (hsaved : acc.configuration = policies.configuration)
    (g : Governor) (report : RestoreReport) : (g.restorePolicies acc report).2 =
      { report with
        configurationItems := report.configurationItems + (1 + policies.overrides.length) } := by
  have hfallback : acc.fallback = some policies.fallback := congrArg Configuration.fallback hsaved
  have hoverrides : acc.overrides = policies.overrides := congrArg Configuration.overrides hsaved
  have hgeneration : acc.generation = policies.generation := congrArg Configuration.generation hsaved
  rw [restorePolicies, hfallback]
  dsimp only
  rw [hoverrides, hgeneration, hrestorable.restore_eq]

/-- The shelves of a recovered governor, before its counters are set. -/
theorem applyRecovery_shelves (g : Governor) (acc : RecoveryAccumulator) (report : RestoreReport)
    (hroom : g.interventionHistory.length + acc.interventions.length ≤ Limits.maxInterventions) :
    ∃ g₁ : Governor, (g.applyRecovery acc report).1 = g₁.restoreCounters acc.counters ∧
      g₁.seat = g.seat ∧ g₁.shelves =
        ((g.recoveredEvents acc).foldl (CappedRing.push Limits.maxEventHistory) g.shelves.1,
          g.interventionHistory ++
            (acc.interventions.filter InterventionIntent.live).map g.fenceStale) := by
  refine ⟨((g.restorePolicies acc report).1.restoreEvents acc).restoreInterventions acc, rfl, ?_, ?_⟩
  · rw [seat_restoreInterventions, seat_restoreEvents, seat_restorePolicies]
  · have hpolicies := g.shelves_restorePolicies acc report
    have hseat := g.seat_restorePolicies acc report
    have hrebind := g.rebind_restorePolicies acc report
    generalize (g.restorePolicies acc report).1 = g₀ at *
    have hrecovered : g₀.recoveredEvents acc = g.recoveredEvents acc := by
      have hfence : g₀.fenceUnfinished = g.fenceUnfinished := by
        funext e
        rw [fenceUnfinished, fenceUnfinished, hrebind]
      rw [recoveredEvents, recoveredEvents, hrebind, hfence]
    have hevents := g₀.shelves_restoreEvents acc
    have htick : (g₀.restoreEvents acc).lastTick = g.lastTick :=
      congrArg Seat.lastTick ((g₀.seat_restoreEvents acc).trans hseat)
    have hhistory : (g₀.restoreEvents acc).interventionHistory = g.interventionHistory :=
      (congrArg Prod.snd hevents).trans (congrArg Prod.snd hpolicies)
    have hstale : (g₀.restoreEvents acc).fenceStale = g.fenceStale := by
      funext i
      rw [fenceStale, fenceStale, htick]
    rw [shelves_restoreInterventions _ _ (by rw [hhistory]; exact hroom), hevents, hpolicies,
      hhistory, hrecovered, hstale]

/-! ### What it amounts to -/

theorem lastSequence_openStore {files : Files} {config : StoreConfig} {s : DurableStore}
    (h : (DurableStore.ofFiles files).openStore config = (.ok (), s)) : s.lastSequence = default := by
  rw [openStore, nextFault_nil rfl] at h
  split_ifs at h
  all_goals cases h
  dsimp only
  split <;> rfl

/-- A fresh governor over a store, amid a restore: what it has is what it was configured with. -/
structure Fresh (g₀ b : Governor) : Prop where
  seat : b.seat = ⟨⟨0⟩, g₀.decisionSeq, ⟨0⟩, b.store, g₀.config⟩
  shelves : b.shelves = (([], 0), [])
  rebind : b.rebind = g₀.rebind
  fenceStale : b.fenceStale = g₀.fenceStale

theorem fresh_bindStore (hashing : Hashing) (config : GovernorConfig) {s : DurableStore}
    (h : s.lastSequence = default) :
    Fresh (new hashing config) ((new hashing config).bindStore (some s)) := by
  refine ⟨?_, rfl, rfl, rfl⟩
  rw [seat, bindStore, h]
  rfl

section

variable {g g₀ b : Governor} {acc : RecoveryAccumulator} (hacc : g.Accumulated acc)
  (hb : Fresh g₀ b) (report : RestoreReport)

include hacc hb

/-- The seat and the shelves of the recovered governor. -/
theorem seat_resumed : ∃ g₁ : Governor, (b.applyRecovery acc report).1 =
    g₁.restoreCounters g.exportState ∧ g₁.seat = ⟨⟨0⟩, g₀.decisionSeq, ⟨0⟩, b.store, g₀.config⟩ ∧
      g₁.shelves = ((g₀.recoveredEvents acc).foldl (CappedRing.push Limits.maxEventHistory) ([], 0),
        (acc.interventions.filter InterventionIntent.live).map g₀.fenceStale) := by
  have hnone : b.interventionHistory = [] := congrArg Prod.snd hb.shelves
  have hring : b.shelves.1 = ([], 0) := congrArg Prod.fst hb.shelves
  have hrecovered : b.recoveredEvents acc = g₀.recoveredEvents acc := by
    have hfence : b.fenceUnfinished = g₀.fenceUnfinished := by
      funext e
      rw [fenceUnfinished, fenceUnfinished, hb.rebind]
    rw [recoveredEvents, recoveredEvents, hb.rebind, hfence]
  obtain ⟨g₁, happlied, hseat, hshelves⟩ := b.applyRecovery_shelves acc report
    (by rw [hnone]; simpa using hacc.room)
  rw [hacc.counters] at happlied
  refine ⟨g₁, happlied, hseat.trans hb.seat, ?_⟩
  rw [hshelves, hring, hrecovered, hnone, List.nil_append, hb.fenceStale]

theorem carried_resumed : (b.applyRecovery acc report).1.announceAuthority.carried = g.carried := by
  obtain ⟨g₁, happlied, hseat, -⟩ := seat_resumed hacc hb report
  rw [carried_announceAuthority, happlied, carried_restoreCounters (congrArg Seat.lastTick hseat)]
  rfl

theorem decisionSeq_resumed (hunset : g₀.decisionSeq = default) :
    (b.applyRecovery acc report).1.announceAuthority.decisionSeq = g₀.decisionSeq := by
  obtain ⟨g₁, happlied, hseat, -⟩ := seat_resumed hacc hb report
  have hcore := congrArg Core.decisionSeq (core_announceAuthority (b.applyRecovery acc report).1)
  rw [happlied] at hcore ⊢
  refine hcore.trans ((decisionSeq_restoreCounters ?_).trans hunset.symm)
  exact (congrArg Seat.decisionSeq hseat).trans hunset

theorem recordSeq_resumed (hjournaled : b.Journaled) :
    (b.applyRecovery acc report).1.announceAuthority.recordSeq.raw =
      g.recordSeq.raw + if g₀.config.enableJournal then 1 else 0 := by
  obtain ⟨g₁, happlied, hseat, -⟩ := seat_resumed hacc hb report
  have hseq : g₁.recordSeq = ⟨0⟩ := congrArg Seat.recordSeq hseat
  have hstore : g₁.store = b.store := congrArg Seat.store hseat
  have hconfig : g₁.config = g₀.config := congrArg Seat.config hseat
  have hrecords : (g₁.restoreCounters g.exportState).recordSeq = g.recordSeq := by
    have htaken := eq_of_taken g.recordSeq
    simp only [restoreCounters, hseq]
    exact htaken
  have hover : (g₁.restoreCounters g.exportState).Journaled := hjournaled.congr hstore
  rw [happlied, recordSeq_announceAuthority hover, hrecords]
  exact congrArg (fun c => g.recordSeq.raw + if GovernorConfig.enableJournal c then 1 else 0) hconfig

theorem shelves_resumed :
    (b.applyRecovery acc report).1.announceAuthority.eventHistory =
        (g₀.recoveredEvents acc).drop ((g₀.recoveredEvents acc).length - Limits.maxEventHistory) ∧
      (b.applyRecovery acc report).1.announceAuthority.interventionHistory =
        (acc.interventions.filter InterventionIntent.live).map g₀.fenceStale := by
  obtain ⟨g₁, happlied, -, hshelves⟩ := seat_resumed hacc hb report
  have hkept : (b.applyRecovery acc report).1.announceAuthority.shelves = g₁.shelves := by
    rw [shelves_announceAuthority, happlied]
    rfl
  rw [hshelves] at hkept
  have hcap : 0 < Limits.maxEventHistory := by decide
  have hrotate := (CappedRing.rotate_foldl_push hcap (g₀.recoveredEvents acc)).1
  have hring : (b.applyRecovery acc report).1.announceAuthority.shelves.1 =
      (g₀.recoveredEvents acc).foldl (CappedRing.push Limits.maxEventHistory) ([], 0) :=
    congrArg Prod.fst hkept
  rw [← hring] at hrotate
  exact ⟨(eventHistory_eq _).trans hrotate, congrArg Prod.snd hkept⟩

omit hb in
theorem core_resumed (hrestorable : g.policies.Restorable) :
    (b.applyRecovery acc report).1.announceAuthority.policies = g.policies ∧
      (b.applyRecovery acc report).1.announceAuthority.streams = b.streams ∧
      (b.applyRecovery acc report).1.announceAuthority.openEvents = b.openEvents ∧
      (b.applyRecovery acc report).1.announceAuthority.interventions = b.interventions := by
  obtain ⟨retired, decisionSeq, lastTick, counts, hcore⟩ := b.restored_applyRecovery acc report
  have hpolicies : accumulatedPolicies acc = some g.policies := by
    rw [← hrestorable.policies_configuration, ← hacc.configuration]
    rfl
  rw [hpolicies, ← core_announceAuthority] at hcore
  exact ⟨congrArg Core.policies hcore, congrArg Core.streams hcore, congrArg Core.openEvents hcore,
    congrArg Core.interventions hcore⟩

omit hb in
/-- What applying it adds to a report that tells of nothing yet. -/
theorem reported_resumed (hrestorable : g.policies.Restorable) (hambiguous : report.ambiguousOutcomes = 0)
    (hitems : report.configurationItems = 0) (hhistory : report.historyItems = 0)
    (hattempts : report.unfinishedAttempts = 0) (hstale : report.staleAuthorityItems = 0) :
    let report' := (b.applyRecovery acc report).2
    report'.historyItems = (g₀.recoveredEvents acc).length ∧ report'.ambiguousOutcomes = 0 ∧
      report'.configurationItems = 1 + g.policies.overrides.length ∧
      report'.unfinishedAttempts = acc.openEvents.values.length ∧
      report'.staleAuthorityItems = g.liveInterventions.length := by
  have hreport := report_restorePolicies hrestorable hacc.configuration b report
  have hsize : acc.openEvents.size = acc.openEvents.values.length := (List.length_map _).symm
  have hlength : (g₀.recoveredEvents acc).length =
      acc.closedEvents.length + acc.openEvents.values.length := by
    rw [recoveredEvents, List.length_append, List.length_map, List.length_map]
  have hperm := hacc.stale.length_eq
  rw [applyRecovery]
  generalize b.restorePolicies acc report = restored at *
  obtain ⟨g₁, report₁⟩ := restored
  dsimp only at hreport ⊢
  subst hreport
  dsimp only
  refine ⟨?_, hambiguous, ?_, ?_, ?_⟩
  · rw [hhistory, hsize, hlength, Nat.zero_add]
  · rw [hitems, Nat.zero_add]
  · rw [hattempts, hsize, Nat.zero_add]
  · rw [hstale, hperm, Nat.zero_add]

end

/-! ### A restart -/

/-- What a fresh governor `g₀` has become that restored a checkpoint of `g`, and what it reported. The
    episodes that were in flight are named. -/
structure Resumes (g g₀ g' : Governor) (report : RestoreReport) (unfinished : List BurstEvent) :
    Prop where
  policies : g'.policies = g.policies
  carried : g'.carried = g.carried
  decisionSeq : g'.decisionSeq = g₀.decisionSeq
  recordSeq : g'.recordSeq.raw = g.recordSeq.raw + if g₀.config.enableJournal then 1 else 0
  streams : g'.streams.keys = []
  episodes : g'.openEvents.keys = []
  intents : g'.interventions.keys = []
  inFlight : InFlight (g.eventHistory ++ g.openEvents.values) unfinished
  history :
    let recovered := ((g.eventHistory ++ g.openEvents.values).filter fun e => !e.isOpen).map g₀.rebind ++
      unfinished.map g₀.fenceUnfinished
    g'.eventHistory = recovered.drop (recovered.length - Limits.maxEventHistory) ∧
      report.historyItems = recovered.length
  retired : g'.interventionHistory.Perm (g.liveInterventions.map g₀.fenceStale)
  reported : report.ambiguousOutcomes = 0 ∧
    report.configurationItems = 1 + g.policies.overrides.length ∧
    report.unfinishedAttempts = unfinished.length ∧
    report.staleAuthorityItems = g.liveInterventions.length

/-- RESUMED: what a fresh governor has become that restored a checkpoint of `g`. -/
theorem resumes_restore {g : Governor} (hreached : g.Reached) (hshelved : g.Shelved)
    (hstate : g.exportState.WellFormed) {hashing : Hashing} {config : GovernorConfig}
    {s : DurableStore} (hs : Whole s) (hsnapshot : s.disk.snapshot = (g.snapshotFiles []).snapshot)
    (hjournal : s.disk.journal.getD [] = []) (hfresh : s.lastSequence = default)
    {report : RestoreReport} {g' : Governor}
    (h : ((new hashing config).bindStore (some s)).restore = (.ok (), report, g')) :
    ∃ unfinished, Resumes g (new hashing config) g' report unfinished := by
  have hstore : ((new hashing config).bindStore (some s)).store = some s := rfl
  have hb := fresh_bindStore hashing config hfresh
  have hjournaled : ((new hashing config).bindStore (some s)).Journaled :=
    ⟨s.disk, s, hstore, hs, rfl⟩
  have hsame : ((new hashing config).bindStore (some s)).withStore s =
      (new hashing config).bindStore (some s) := rfl
  have hempty : ((new hashing config).bindStore (some s)).streams.keys = [] ∧
      ((new hashing config).bindStore (some s)).openEvents.keys = [] ∧
        ((new hashing config).bindStore (some s)).interventions.keys = [] := ⟨rfl, rfl, rfl⟩
  have hunset : (new hashing config).decisionSeq = default := rfl
  obtain ⟨replayed, -, -, -, hreplay, -⟩ := restore_ok hstore h
  rw [hs.replay] at hreplay
  rw [restore, hstore] at h
  dsimp only at h
  rw [hreplay] at h
  simp only [hsame] at h
  generalize (new hashing config).bindStore (some s) = b at *
  generalize new hashing config = g₀ at *
  obtain ⟨haccumulated, hambiguous, hitems, hhistory, hattempts, hstale⟩ :=
    recover_exported hsnapshot hjournal hs hstate hreplay (b := b)
  have hacc := accumulated_exported hshelved hreached.keyed b.hashing
  rw [← haccumulated] at hacc
  generalize (b.recover replayed).2 = report₀ at *
  generalize (b.recover replayed).1 = acc at *
  simp only [Prod.mk.injEq, true_and] at h
  obtain ⟨rfl, rfl⟩ := h
  have hrestorable := hreached.wellFormed.policies
  obtain ⟨hpolicies, hstreams, hopens, hintents⟩ := core_resumed (b := b) hacc report₀ hrestorable
  obtain ⟨hevents, hretired⟩ := shelves_resumed hacc hb report₀
  obtain ⟨hcount, hreported⟩ : (b.applyRecovery acc report₀).2.historyItems =
      (g₀.recoveredEvents acc).length ∧ _ :=
    reported_resumed hacc report₀ hrestorable hambiguous hitems hhistory hattempts hstale
  have hrecovered : g₀.recoveredEvents acc = ((g.eventHistory ++ g.openEvents.values).filter
      fun e => !e.isOpen).map g₀.rebind ++ acc.openEvents.values.map g₀.fenceUnfinished := by
    rw [recoveredEvents, hacc.committed]
  rw [hrecovered] at hevents hcount
  refine ⟨acc.openEvents.values, ?_⟩
  exact
    { policies := hpolicies
      carried := carried_resumed hacc hb report₀
      decisionSeq := decisionSeq_resumed hacc hb report₀ hunset
      recordSeq := recordSeq_resumed hacc hb report₀ hjournaled
      streams := hstreams ▸ hempty.1
      episodes := hopens ▸ hempty.2.1
      intents := hintents ▸ hempty.2.2
      inFlight := hacc.inFlight
      history := ⟨hevents, hcount⟩
      retired := hretired ▸ hacc.stale.map _
      reported := hreported }

/-- An authority, and a queue that is deep at two ticks. -/
def storedCalls : List Op :=
  [.bindAuthority ⟨2⟩ ⟨7⟩ ⟨7⟩] ++ [1, 2].map fun tick =>
    .ingest { stream := ⟨⟨1⟩, ⟨1⟩, ⟨1⟩⟩, tick := ⟨tick⟩, depth := 2048 }

end Governor

end Mbg
