import MicroburstGovernor.Governor.CoreStep
import MicroburstGovernor.Governor.Restored
import MicroburstGovernor.Persist.Verify

/-! What a governor has after a restore: the recovered history and the revoked intents, nothing live. -/

namespace Mbg

open DurableStore Framing

namespace Governor

/-! ### The shelves: what a governor keeps of what ended -/

/-- The ring of terminal episodes and the list of retired intents. -/
def shelves (g : Governor) : (List BurstEvent × ℕ) × List InterventionIntent :=
  ((g.history, g.historyHead), g.interventionHistory)

section

variable (g : Governor)

theorem shelves_pushEmissionLocked (e : Emission) :
    (g.pushEmissionLocked e).shelves = g.shelves := by
  rw [pushEmissionLocked]
  split <;> rfl

theorem shelves_appendRecordLocked (type : RecordType) (payload : Bytes) (tick : Tick) :
    (g.appendRecordLocked type payload tick).shelves = g.shelves := by
  refine appendRecordLocked_induct (P := fun g' => g'.shelves = g.shelves) ?_ ?_ ?_ rfl type payload
    tick
  · intro g' store h
    exact h
  · intro g' recordSeq h
    exact h
  · intro g' written failures compactions h
    exact h

theorem shelves_announceAuthority : g.announceAuthority.shelves = g.shelves := by
  rw [announceAuthority]
  split
  · rw [shelves_appendRecordLocked, shelves_pushEmissionLocked]
  · rw [shelves_pushEmissionLocked]

theorem shelves_restorePolicies (acc : RecoveryAccumulator) (report : RestoreReport) :
    (g.restorePolicies acc report).1.shelves = g.shelves := by
  rw [restorePolicies]
  split
  · rfl
  · split <;> rfl

/-- Restoring the policies leaves the authority that events are bound to. -/
theorem rebind_restorePolicies (acc : RecoveryAccumulator) (report : RestoreReport) :
    (g.restorePolicies acc report).1.rebind = g.rebind := by
  rw [restorePolicies]
  split
  · rfl
  · split <;> rfl

/-- The history, oldest first, is the ring turned to its head. -/
theorem eventHistory_eq : g.eventHistory = g.history.rotate g.historyHead := by
  rw [eventHistory, historyOrderedLocked]
  refine List.ext_getElem (by simp) fun i h₁ h₂ => ?_
  have hi : i < g.history.length := by simpa using h₁
  have hmod : (g.historyHead + i) % g.history.length < g.history.length :=
    Nat.mod_lt _ (by omega)
  rw [List.getElem_map, List.getElem_range, List.getElem_rotate, List.getD_eq_getElem?_getD,
    List.getElem?_eq_getElem hmod, Option.getD_some]
  simp only [Nat.add_comm]

/-! ### What a restore puts on them -/

theorem ring_recordEventLocked (event : BurstEvent) :
    (g.recordEventLocked event).shelves =
      (CappedRing.push Limits.maxEventHistory g.shelves.1 event, g.shelves.2) := by
  by_cases h : g.history.length < Limits.maxEventHistory
  · have hpush : CappedRing.push Limits.maxEventHistory g.shelves.1 event =
        (g.history ++ [event], g.historyHead) := if_pos h
    rw [hpush, recordEventLocked]
    dsimp only
    rw [if_pos h]
    rfl
  · have hpush : CappedRing.push Limits.maxEventHistory g.shelves.1 event =
        (g.history.set g.historyHead event, (g.historyHead + 1) % Limits.maxEventHistory) := if_neg h
    rw [hpush, recordEventLocked]
    dsimp only
    rw [if_neg h]
    rfl

end

/-- A loop that records events under the authority in force fills the ring and nothing else. -/
theorem foldl_recordEventLocked {α : Type} {event : Governor → α → BurstEvent}
    (hevent : ∀ (g g' : Governor) a, g.context = g'.context → event g a = event g' a) :
    ∀ (as : List α) (g : Governor),
      let g' := as.foldl (fun g a => g.recordEventLocked (event g a)) g
      g'.shelves = ((as.map (event g)).foldl (CappedRing.push Limits.maxEventHistory) g.shelves.1,
        g.shelves.2) ∧ g'.context = g.context
  | [], _ => ⟨rfl, rfl⟩
  | a :: as, g => by
    have hcontext : (g.recordEventLocked (event g a)).context = g.context :=
      congrArg Core.context (g.core_recordEventLocked (event g a))
    have hshelves := g.ring_recordEventLocked (event g a)
    obtain ⟨hfold, hlast⟩ := foldl_recordEventLocked hevent as (g.recordEventLocked (event g a))
    rw [List.foldl_cons, List.map_cons, List.foldl_cons]
    refine ⟨?_, hlast.trans hcontext⟩
    rw [hfold, hshelves]
    have hmap : as.map (event (g.recordEventLocked (event g a))) = as.map (event g) :=
      List.map_congr_left fun b _ => hevent _ _ b hcontext
    rw [hmap]

/-- The events a restore records: committed history as it stood, then what was left unfinished. -/
def recoveredEvents (g : Governor) (acc : RecoveryAccumulator) : List BurstEvent :=
  acc.closedEvents.map g.rebind ++ acc.openEvents.values.map g.fenceUnfinished

theorem shelves_restoreEvents (g : Governor) (acc : RecoveryAccumulator) :
    (g.restoreEvents acc).shelves =
      ((g.recoveredEvents acc).foldl (CappedRing.push Limits.maxEventHistory) g.shelves.1,
        g.shelves.2) := by
  have hrebind : ∀ (g g' : Governor) (e : BurstEvent), g.context = g'.context →
      g.rebind e = g'.rebind e := by
    intro g g' e h
    rw [rebind, rebind, h]
  have hfence : ∀ (g g' : Governor) (e : BurstEvent), g.context = g'.context →
      g.fenceUnfinished e = g'.fenceUnfinished e := by
    intro g g' e h
    rw [fenceUnfinished, fenceUnfinished, hrebind g g' e h]
  obtain ⟨hclosed, hcontext⟩ := foldl_recordEventLocked hrebind acc.closedEvents g
  rw [restoreEvents]
  generalize acc.closedEvents.foldl (fun g event => g.recordEventLocked (g.rebind event)) g = g₁
    at *
  obtain ⟨hopen, -⟩ := foldl_recordEventLocked hfence acc.openEvents.values g₁
  refine hopen.trans ?_
  rw [hclosed, recoveredEvents, List.foldl_append]
  have hmap : acc.openEvents.values.map g₁.fenceUnfinished =
      acc.openEvents.values.map g.fenceUnfinished :=
    List.map_congr_left fun e _ => hfence _ _ e hcontext
  rw [hmap]

/-- A stale intent as it is recorded: fenced by the restart. -/
def fenceStale (g : Governor) (intent : InterventionIntent) : InterventionIntent :=
  { intent with
    state := .fenced
    revocationVerdict := AuthorityVerdict.bootChanged
    stateChangedTick := g.lastTick }

theorem shelves_foldl_fenceStale : ∀ (stale : List InterventionIntent) (g : Governor),
    g.interventionHistory.length + stale.length ≤ Limits.maxInterventions →
      (stale.foldl (fun g intent => g.pushInterventionHistory (g.fenceStale intent)) g).shelves =
        (g.shelves.1, g.interventionHistory ++ stale.map g.fenceStale)
  | [], g, _ => by simp [shelves]
  | intent :: stale, g, hroom => by
    rw [List.length_cons] at hroom
    have hlength : (g.interventionHistory ++ [g.fenceStale intent]).length =
        g.interventionHistory.length + 1 := by
      simp
    have hpush : (g.pushInterventionHistory (g.fenceStale intent)).interventionHistory =
        g.interventionHistory ++ [g.fenceStale intent] := by
      rw [pushInterventionHistory]
      dsimp only
      rw [if_neg (by omega)]
    have hnext := shelves_foldl_fenceStale stale (g.pushInterventionHistory (g.fenceStale intent))
      (by rw [hpush]; omega)
    rw [hpush, List.append_assoc] at hnext
    exact hnext

/-- A table within the bound on intents is recorded without loss. -/
theorem shelves_restoreInterventions (g : Governor) (acc : RecoveryAccumulator)
    (hroom : g.interventionHistory.length + acc.interventions.length ≤ Limits.maxInterventions) :
    (g.restoreInterventions acc).shelves = (g.shelves.1,
      g.interventionHistory ++ (acc.interventions.filter InterventionIntent.live).map g.fenceStale) := by
  have hlen := List.length_filter_le InterventionIntent.live acc.interventions
  exact shelves_foldl_fenceStale _ g (by omega)

/-! ### What a restore reads -/

/-- What `load_snapshot` finds is the intact snapshot, or a payload of no bytes that covers nothing. -/
theorem intactSnapshot_of_read {report : RecoveryReport} {files : Files} {payload : Bytes}
    (h : readSnapshot { formatVersion := stateFormatVersion } files.snapshot =
      .ok (report, payload)) :
    (intactSnapshot files = none ∧ payload = [] ∧ report.snapshotCoveredSeq = 0) ∨
      (intactSnapshot files = some (payload, report.snapshotCoveredSeq) ∧
        report.snapshotPresent = true) := by
  rw [intactSnapshot]
  rw [readSnapshot] at h
  cases hfile : files.snapshot with
  | none =>
    rw [hfile, readBounded] at h
    cases h
    exact Or.inl ⟨rfl, rfl, rfl⟩
  | some bytes =>
    rw [hfile] at h
    by_cases hlen : bytes.length ≤ Limits.maxSnapshotBytes
    · rw [readBounded_of_le hlen] at h
      rw [Option.map_some]
      cases hscan : scanSnapshot bytes with
      | damaged outcome detail =>
        simp only [hscan] at h
        cases h
        exact Or.inl ⟨rfl, rfl, rfl⟩
      | intact body covered =>
        simp only [hscan] at h
        cases h
        exact Or.inr ⟨rfl, rfl⟩
    · rw [readBounded, if_pos (by omega)] at h
      cases h

/-- The accumulator of a restore is what the files say. -/
theorem recover_eq (g : Governor) {s s' : DurableStore} (hopen : s.isOpen) (hf : s.faults = [])
    {replayed : Replayed (List JournaledRecord)}
    (hr : s.replay collectRecord [] = (.ok replayed, s')) :
    (g.recover replayed).1 = RecoveryAccumulator.ofFiles g.hashing s.disk ∧
      (g.recover replayed).2.staleAuthorityItems = 0 := by
  obtain ⟨report, hsnap, hpresent, hcovered, hfold, -⟩ := replay_outcome hopen hf hr
  have hvisited : replayed.visited =
      (journalFormat.split (s.disk.journal.getD [])).map parseRecord := by
    rw [foldlM_collectRecord _ _ (Nat.zero_le _)] at hfold
    split at hfold
    · exact (Except.ok.inj hfold).symm
    · cases hfold
  rw [recover]
  dsimp only
  rw [RecoveryAccumulator.ofFiles, appliedRecords, snapshotState, hcovered, hvisited,
    accumulateSnapshot, hpresent]
  rcases intactSnapshot_of_read hsnap with ⟨hnone, hpayload, hzero⟩ | ⟨hsome, hthere⟩
  · rw [hnone, hpayload, hzero]
    simp only [List.isEmpty_nil, Bool.not_true, Bool.and_false, Bool.false_eq_true, if_false]
    exact ⟨rfl, rfl⟩
  · rw [hsome, hthere]
    dsimp only [Option.map_some, Option.getD_some]
    cases hempty : replayed.snapshotPayload.isEmpty with
    | true => exact ⟨rfl, rfl⟩
    | false =>
      simp only [Bool.not_false, Bool.and_self, if_true, Bool.false_eq_true, if_false]
      cases decodeState replayed.snapshotPayload <;> exact ⟨rfl, rfl⟩

/-! ### What a restore leaves -/

/-- The shelves of a governor that applied a recovery. -/
theorem shelves_applyRecovery (g : Governor) (acc : RecoveryAccumulator) (report : RestoreReport)
    (hroom : g.interventionHistory.length + acc.interventions.length ≤ Limits.maxInterventions) :
    ∃ g₁ : Governor, (g.applyRecovery acc report).1.shelves =
      ((g.recoveredEvents acc).foldl (CappedRing.push Limits.maxEventHistory) g.shelves.1,
        g.interventionHistory ++
          (acc.interventions.filter InterventionIntent.live).map g₁.fenceStale) := by
  have hpolicies := g.shelves_restorePolicies acc report
  have hrebind := g.rebind_restorePolicies acc report
  rw [applyRecovery]
  generalize g.restorePolicies acc report = restored at *
  obtain ⟨g₀, report'⟩ := restored
  dsimp only at hpolicies hrebind ⊢
  have hrecovered : g₀.recoveredEvents acc = g.recoveredEvents acc := by
    have hfence : g₀.fenceUnfinished = g.fenceUnfinished := by
      funext e
      rw [fenceUnfinished, fenceUnfinished, hrebind]
    rw [recoveredEvents, recoveredEvents, hrebind, hfence]
  have hevents := g₀.shelves_restoreEvents acc
  generalize g₀.restoreEvents acc = g₁ at *
  have hretired : g₁.interventionHistory = g.interventionHistory := by
    have hsecond := congrArg Prod.snd (hevents.trans (by rw [hpolicies]))
    exact hsecond
  have hintents := g₁.shelves_restoreInterventions acc (by rw [hretired]; exact hroom)
  generalize g₁.restoreInterventions acc = g₂ at *
  refine ⟨g₁, ?_⟩
  have hcounters : (g₂.restoreCounters acc.counters).shelves = g₂.shelves := rfl
  rw [hcounters, hintents, hevents, hpolicies, hretired, hrecovered]

/-- RESTORED: a fresh governor after a restore. Its shelves hold the recovered events and the stale
    intents of the files, under the authority the restore found. -/
theorem restored_fresh {hashing : Hashing} {config : GovernorConfig} {s : DurableStore}
    (hopen : s.isOpen) (hf : s.faults = []) {report : RestoreReport} {g' : Governor}
    (h : ((new hashing config).bindStore (some s)).restore = (.ok (), report, g')) :
    let acc := RecoveryAccumulator.ofFiles hashing s.disk
    (∃ g₁ : Governor, g'.shelves =
      (((new hashing config).recoveredEvents acc).foldl (CappedRing.push Limits.maxEventHistory) ([], 0),
        (acc.interventions.filter InterventionIntent.live).map g₁.fenceStale)) ∧
    report.staleAuthorityItems = (acc.interventions.filter InterventionIntent.live).length := by
  intro acc
  have hstore : ((new hashing config).bindStore (some s)).store = some s := rfl
  rw [restore, hstore] at h
  dsimp only at h
  cases hr : s.replay collectRecord [] with
  | mk result s' =>
    cases result with
    | error e => simp [hr] at h
    | ok replayed =>
      have hfresh : (((new hashing config).bindStore (some s)).withStore s').shelves =
          (([], 0), []) := rfl
      have hhashing : (((new hashing config).bindStore (some s)).withStore s').hashing =
          hashing := rfl
      have hrecovered : ∀ acc, (((new hashing config).bindStore (some s)).withStore
          s').recoveredEvents acc = (new hashing config).recoveredEvents acc := fun acc => rfl
      simp only [hr] at h
      generalize ((new hashing config).bindStore (some s)).withStore s' = g at *
      obtain ⟨hacc, hzero⟩ := g.recover_eq hopen hf hr
      rw [hhashing] at hacc
      have hroom : acc.interventions.length ≤ Limits.maxInterventions := by
        rw [(RecoveryAccumulator.holds_ofFiles hashing s.disk).interventions]
        exact CappedTable.length_foldl_write _ _
      have hretired : g.interventionHistory = [] := congrArg Prod.snd hfresh
      obtain ⟨g₁, hshelves⟩ := g.shelves_applyRecovery acc (g.recover replayed).2
        (by rw [hretired]; simpa using hroom)
      have hreport : (g.applyRecovery acc (g.recover replayed).2).2.staleAuthorityItems =
          (g.restorePolicies acc (g.recover replayed).2).2.staleAuthorityItems +
            (acc.interventions.filter InterventionIntent.live).length := rfl
      have hkept : (g.restorePolicies acc (g.recover replayed).2).2.staleAuthorityItems = 0 := by
        rw [restorePolicies]
        split
        · exact hzero
        · split <;> exact hzero
      rw [hacc] at h
      rw [hkept, Nat.zero_add] at hreport
      cases h
      refine ⟨⟨g₁, ?_⟩, hreport⟩
      rw [shelves_announceAuthority]
      refine hshelves.trans ?_
      rw [hretired, hfresh, hrecovered]
      rfl

/-! ### No liveness -/

/-- Nothing is live: no stream, no open episode, no live intent, and what ended has ended. -/
structure NoLiveness (g : Governor) : Prop where
  streams : g.streams.keys = []
  episodes : g.openEvents.keys = []
  intents : g.liveInterventions = []
  history : ∀ e ∈ g.eventHistory, e.lifecycle = .closed ∨ e.lifecycle = .fenced
  retired : ∀ i ∈ g.interventionHistory, i.live = false

/-- The committed events that the ring keeps beside the unfinished episodes. -/
def keptEvents (files : Files) : List BurstEvent :=
  (committedEvents files).drop
    ((committedEvents files).length + (unfinishedIds files).length - Limits.maxEventHistory)

theorem length_unfinished (hashing : Hashing) (files : Files) :
    (RecoveryAccumulator.ofFiles hashing files).openEvents.values.length =
      (unfinishedIds files).length := by
  have hholds := RecoveryAccumulator.holds_ofFiles hashing files
  generalize RecoveryAccumulator.ofFiles hashing files = acc at *
  have hperm : acc.openEvents.keys.Perm (unfinishedIds files) := by
    refine (List.perm_ext_iff_of_nodup acc.openEvents.nodup
      ((List.nodup_dedup _).filter _)).mpr fun id => ?_
    change id ∈ acc.openEvents.keys ↔ id ∈ unfinishedIds files
    rw [hholds.unfinished, unfinishedIds, CappedTable.mem_keysWhere]
    constructor
    · intro h
      exact ⟨_, h, rfl⟩
    · rintro ⟨⟨id', opened⟩, hlast, rfl⟩
      have hid : id' = id := CappedTable.key_of_last hlast
      rw [hlast, hid]
  have hlen := hperm.length_eq
  rw [UnorderedMap.keys, List.length_map] at hlen
  rw [UnorderedMap.values, List.length_map, hlen]

/-- The restored history, oldest first. -/
theorem eventHistory_restored {hashing : Hashing} {config : GovernorConfig} {s : DurableStore}
    (hopen : s.isOpen) (hf : s.faults = []) {report : RestoreReport} {g' : Governor}
    (h : ((new hashing config).bindStore (some s)).restore = (.ok (), report, g')) :
    ∃ unfinished : List BurstEvent, g'.eventHistory =
      (keptEvents s.disk).map (new hashing config).rebind ++
        unfinished.map (new hashing config).fenceUnfinished := by
  obtain ⟨⟨g₁, hshelves⟩, -⟩ := restored_fresh hopen hf h
  generalize new hashing config = g₀ at *
  have hcommitted := (RecoveryAccumulator.holds_ofFiles hashing s.disk).committed
  have hunfinished := length_unfinished hashing s.disk
  generalize RecoveryAccumulator.ofFiles hashing s.disk = acc at *
  have hring : (g'.history, g'.historyHead) =
      (g₀.recoveredEvents acc).foldl (CappedRing.push Limits.maxEventHistory) ([], 0) :=
    congrArg Prod.fst hshelves
  have hcap : 0 < Limits.maxEventHistory := by decide
  have hrotate := (CappedRing.rotate_foldl_push hcap (g₀.recoveredEvents acc)).1
  rw [← hring] at hrotate
  have hlen : (g₀.recoveredEvents acc).length =
      (committedEvents s.disk).length + (unfinishedIds s.disk).length := by
    rw [recoveredEvents, List.length_append, List.length_map, List.length_map, hcommitted,
      hunfinished]
  refine ⟨acc.openEvents.values.drop
    ((committedEvents s.disk).length + (unfinishedIds s.disk).length - Limits.maxEventHistory -
      (committedEvents s.disk).length), ?_⟩
  rw [eventHistory_eq, hrotate, hlen, recoveredEvents, List.drop_append, List.length_map, hcommitted,
    keptEvents, List.map_drop, List.map_drop]

theorem terminal_iff (e : BurstEvent) :
    e.isOpen = false ↔ e.lifecycle = .closed ∨ e.lifecycle = .fenced := by
  rw [BurstEvent.isOpen]
  cases e.lifecycle <;> simp

/-- A kept event with an open lifecycle stands in the history as it is. -/
theorem closed_of_noLiveness {hashing : Hashing} {config : GovernorConfig} {s : DurableStore}
    (hopen : s.isOpen) (hf : s.faults = []) {report : RestoreReport} {g' : Governor}
    (h : ((new hashing config).bindStore (some s)).restore = (.ok (), report, g'))
    (hlaw : g'.NoLiveness) : ∀ e ∈ keptEvents s.disk, e.isOpen = false := by
  obtain ⟨unfinished, hhistory⟩ := eventHistory_restored hopen hf h
  intro e he
  have hmem : (new hashing config).rebind e ∈ g'.eventHistory := by
    rw [hhistory]
    exact List.mem_append_left _ (List.mem_map_of_mem he)
  have hclosed := (terminal_iff ((new hashing config).rebind e)).mpr (hlaw.history _ hmem)
  exact hclosed

/-- A record of a closed episode whose payload says that it is open. -/
def openedAsClosed : Bytes :=
  buildRecord .episodeClosed ⟨1⟩ ⟨0⟩
    (encodeEvent { stream := ⟨⟨1⟩, ⟨1⟩, ⟨1⟩⟩, lifecycle := .opened })

end Governor

end Mbg
