import MicroburstGovernor.Governor.Durable
import MicroburstGovernor.Governor.NoLiveness
import MicroburstGovernor.Persist.Acknowledged

/-! Committed history over the lives of a store: any number of restarts and checkpoints.

    A restart reads the history back from the files, a checkpoint writes it to them. What the files
    hold of a terminal event is kept by both: a record stays in the journal until a snapshot that
    has its event replaces it. -/

namespace Mbg

open DurableStore Framing

/-- The recovered events that were already terminal, in the snapshot or by the record of their end. -/
def terminalEvents (files : Files) : List BurstEvent :=
  (committedEvents files).filter fun e => !e.isOpen

theorem mem_terminalEvents {files : Files} {e : BurstEvent} :
    e ∈ terminalEvents files ↔ e ∈ committedEvents files ∧ e.isOpen = false := by
  simp [terminalEvents]

/-! ### What the files hold -/

/-- The events that the records of a journal commit, with what the snapshot covers left out. -/
theorem appliedRecords_eq (files : Files) : appliedRecords files =
    Governor.uncovered (((intactSnapshot files).map Prod.snd).getD 0)
      (AckedStore.framedRecords files) := rfl

/-- A journal that frames at least the same records commits at least the same events. -/
theorem committedEvents_subset {files files' : Files} (hsnapshot : files'.snapshot = files.snapshot)
    (hframed : AckedStore.framedRecords files <+: AckedStore.framedRecords files') :
    committedEvents files ⊆ committedEvents files' := by
  have hintact : intactSnapshot files' = intactSnapshot files := by
    rw [intactSnapshot, intactSnapshot, hsnapshot]
  have hstate : snapshotState files' = snapshotState files := by
    rw [snapshotState, snapshotState, hintact]
  obtain ⟨more, hmore⟩ := hframed
  intro e he
  rw [committedEvents, List.mem_append] at he ⊢
  rw [hstate, appliedRecords_eq, hintact, ← hmore, Governor.uncovered, List.filter_append,
    List.filterMap_append, List.mem_append]
  rw [appliedRecords_eq] at he
  rcases he with he | he
  · exact Or.inl he
  · exact Or.inr (Or.inl he)

theorem terminalEvents_subset {files files' : Files} (hsnapshot : files'.snapshot = files.snapshot)
    (hframed : AckedStore.framedRecords files <+: AckedStore.framedRecords files') :
    terminalEvents files ⊆ terminalEvents files' := by
  intro e he
  obtain ⟨hmem, hclosed⟩ := mem_terminalEvents.mp he
  exact mem_terminalEvents.mpr ⟨committedEvents_subset hsnapshot hframed hmem, hclosed⟩

/-- Whatever is appended to the journal, what it framed before stays. -/
theorem terminalEvents_appended (files : Files) (bytes : Bytes) :
    terminalEvents files ⊆ terminalEvents ((Effect.appendJournal bytes).apply files) := by
  have hsnapshot : ((Effect.appendJournal bytes).apply files).snapshot = files.snapshot := rfl
  exact terminalEvents_subset hsnapshot (AckedStore.framed_appendJournal files bytes)

/-- The files of a store whose journal lost at most what was never verified. -/
theorem terminalEvents_replayed {files files' : Files} (h : files' = files ∨
    ∃ image, files.journal = some image ∧
      files' = { files with journal := some (journalFormat.split image).flatten }) :
    terminalEvents files ⊆ terminalEvents files' := by
  rcases h with rfl | ⟨image, hj, rfl⟩
  · exact fun e he => he
  · refine terminalEvents_subset rfl ?_
    rw [AckedStore.framedRecords, AckedStore.framedRecords, Option.getD_some,
      journalFormat.split_split_flatten, hj, Option.getD_some]

/-- A snapshot holds the terminal events of the state it was written from. -/
theorem terminalEvents_snapshot {state : PersistedState} (h : state.WellFormed)
    (journal : Option Bytes) (covered : RecordSeq) (tick : Tick) {e : BurstEvent}
    (he : e ∈ state.events) (hclosed : e.isOpen = false) : e ∈ terminalEvents
      { journal, snapshot := some (buildSnapshot (encodeState state) covered tick) } := by
  have hscan := scanSnapshot_buildSnapshot h.length_le covered tick
  have hnonempty : (encodeState state).isEmpty = false := by
    have hlength := length_encodeState state
    cases hbytes : encodeState state with
    | nil =>
      rw [hbytes, List.length_nil] at hlength
      omega
    | cons b bytes => rfl
  have hintact : intactSnapshot
      { journal, snapshot := some (buildSnapshot (encodeState state) covered tick) } =
        some (encodeState state, covered.raw) := by
    rw [intactSnapshot]
    dsimp only [Option.map_some]
    rw [hscan]
  have hstate : snapshotState
      { journal, snapshot := some (buildSnapshot (encodeState state) covered tick) } =
        some state := by
    rw [snapshotState, hintact]
    dsimp only
    rw [hnonempty, if_neg Bool.false_ne_true, decodeState_encodeState h]
    rfl
  refine mem_terminalEvents.mpr ⟨List.mem_append_left _ ?_, hclosed⟩
  rw [hstate]
  exact List.mem_filter.mpr ⟨he, by rw [hclosed]; rfl⟩

namespace Governor

/-! ### A governor that has an event in its history and on disk -/

/-- A governor with nothing in flight and its ring within its bound: what it exports is readable. -/
structure Settled (g : Governor) : Prop where
  wellFormed : g.WellFormed
  ring : g.history.length ≤ Limits.maxEventHistory
  quiet : g.openEvents.size = 0

theorem Settled.congr {g g' : Governor} (h : g.Settled) (heq : g'.durable = g.durable) :
    g'.Settled := by
  have hfields := heq
  simp only [durable, Prod.mk.injEq] at hfields
  obtain ⟨-, -, hopen, hhistory, -, -⟩ := hfields
  refine ⟨h.wellFormed.congr heq, ?_, ?_⟩
  · rw [hhistory]
    exact h.ring
  · rw [hopen]
    exact h.quiet

theorem Settled.exportState {g : Governor} (h : g.Settled) : g.exportState.WellFormed := by
  refine h.wellFormed.exportState ?_
  have hring : g.history.length ≤ 4096 := h.ring
  have hmax : Limits.maxEventsPersisted = 65536 := rfl
  have hquiet := h.quiet
  omega

/-- The terminal event stands in the history, and in the files of a store that meets no fault. -/
structure Holds (g : Governor) (e : BurstEvent) : Prop where
  settled : g.Settled
  closed : e.isOpen = false
  history : e ∈ g.eventHistory
  durable : ∃ s, g.store = some s ∧ s.faults = [] ∧ e ∈ terminalEvents s.disk

section

variable {g : Governor} {e : BurstEvent} (h : g.Holds e)

include h

/-- Bookkeeping that leaves the store, too, alone. -/
theorem Holds.congr {g' : Governor} (hdurable : g'.durable = g.durable)
    (hhead : g'.historyHead = g.historyHead) (hstore : g'.store = g.store) : g'.Holds e := by
  have hfields := hdurable
  simp only [Governor.durable, Prod.mk.injEq] at hfields
  obtain ⟨-, -, -, hhistory, -, -⟩ := hfields
  refine ⟨h.settled.congr hdurable, h.closed, ?_, ?_⟩
  · rw [eventHistory_eq, hhistory, hhead, ← eventHistory_eq]
    exact h.history
  · rw [hstore]
    exact h.durable

/-- The store moves on, its files still hold the event. -/
theorem Holds.withStore {s : DurableStore} (hf : s.faults = []) (hmem : e ∈ terminalEvents s.disk) :
    (g.withStore s).Holds e :=
  ⟨h.settled.congr rfl, h.closed, h.history, s, rfl, hf, hmem⟩

theorem holds_countAppend (status : Status) : (g.countAppend status).Holds e := by
  cases status with
  | ok _ => exact h.congr rfl rfl rfl
  | error _ => exact h.congr rfl rfl rfl

theorem holds_storeAppend {s : DurableStore} (hstore : g.store = some s) (type : RecordType)
    (payload : Bytes) (tick : Tick) : (g.storeAppend s type payload tick).2.Holds e := by
  obtain ⟨s', hs', hf, hmem⟩ := h.durable
  obtain rfl : s' = s := Option.some.inj (hs'.symm.trans hstore)
  obtain ⟨hfaults, hdisk⟩ := append_disk hf type g.recordSeq tick payload
  rw [storeAppend]
  generalize s'.append type g.recordSeq tick payload = appended at *
  refine h.withStore hfaults ?_
  rcases hdisk with hdisk | hdisk
  · rw [hdisk]
    exact hmem
  · rw [hdisk]
    exact terminalEvents_appended _ _ hmem

/-- CHECKPOINT: the snapshot has the whole history in it. -/
theorem holds_compactLocked : g.compactLocked.2.Holds e := by
  obtain ⟨s, hstore, hf, hmem⟩ := h.durable
  have hexport := h.settled.exportState
  rw [compactLocked, hstore]
  dsimp only
  rw [if_neg (Nat.not_lt.mpr hexport.length_le)]
  obtain ⟨hfaults, journal, hdisk⟩ := writeSnapshot_disk hf hexport.length_le g.recordSeq g.lastTick
  refine h.withStore hfaults ?_
  rw [hdisk]
  exact terminalEvents_snapshot hexport _ _ _ (List.mem_append_left _ h.history) h.closed

theorem holds_appendRecordLocked (type : RecordType) (payload : Bytes) (tick : Tick) :
    (g.appendRecordLocked type payload tick).Holds e := by
  rw [appendRecordLocked]
  split
  · exact h
  · rename_i s hstore
    dsimp only
    have hnext : ({ g with recordSeq := ⟨g.recordSeq.raw + 1⟩ } : Governor).Holds e :=
      h.congr rfl rfl rfl
    have hfirst := holds_storeAppend hnext hstore type payload tick
    generalize ({ g with recordSeq := ⟨g.recordSeq.raw + 1⟩ } : Governor).storeAppend s type payload
      tick = first at *
    obtain ⟨failure | _, g₁⟩ := first
    · by_cases hfull : failure.code = .capacityExceeded
      · simp only [hfull, if_true]
        have hcompact := holds_compactLocked hfirst
        generalize g₁.compactLocked = compacted at *
        obtain ⟨_ | _, g₂⟩ := compacted
        · exact hcompact.congr rfl rfl rfl
        · dsimp only at hcompact ⊢
          have hcounted : ({ g₂ with stats := { g₂.stats with
              durableCompactions := g₂.stats.durableCompactions + 1 } } : Governor).Holds e :=
            hcompact.congr rfl rfl rfl
          split
          · exact hcounted
          · rename_i s₂ hstore₂
            exact holds_countAppend (holds_storeAppend hcounted hstore₂ type payload tick) _
      · simp only [hfull, if_false]
        exact hfirst.congr rfl rfl rfl
    · exact holds_countAppend hfirst _

theorem holds_announceAuthority : g.announceAuthority.Holds e := by
  have hpush : ∀ emission, (g.pushEmissionLocked emission).Holds e := by
    intro emission
    refine h.congr ?_ ?_ ?_
    all_goals
      rw [pushEmissionLocked]
      split <;> rfl
  rw [announceAuthority]
  split
  · exact holds_appendRecordLocked (hpush _) _ _ _
  · exact hpush _

end

/-! ### What a restart reads and leaves -/

theorem store_foldl {α : Type} {f : Governor → α → Governor} (hf : ∀ g a, (f g a).store = g.store) :
    ∀ (as : List α) (g : Governor), (as.foldl f g).store = g.store
  | [], _ => rfl
  | a :: as, g => (store_foldl hf as (f g a)).trans (hf g a)

theorem store_applyRecovery (g : Governor) (acc : RecoveryAccumulator) (report : RestoreReport) :
    (g.applyRecovery acc report).1.store = g.store := by
  have hrecord : ∀ (g : Governor) (event : BurstEvent), (g.recordEventLocked event).store = g.store := by
    intro g event
    rw [recordEventLocked]
    dsimp only
    split <;> rfl
  have hpolicies : (g.restorePolicies acc report).1.store = g.store := by
    rw [restorePolicies]
    split
    · rfl
    · split <;> rfl
  rw [applyRecovery]
  generalize g.restorePolicies acc report = restored at *
  have hevents : (restored.1.restoreEvents acc).store = restored.1.store := by
    rw [restoreEvents]
    exact (store_foldl (fun g e => hrecord g _) _ _).trans (store_foldl (fun g e => hrecord g _) _ _)
  have hintents : ∀ g : Governor, (g.restoreInterventions acc).store = g.store := by
    intro g
    rw [restoreInterventions]
    refine store_foldl (fun g i => ?_) _ g
    rfl
  exact (hintents _).trans (hevents.trans hpolicies)

/-- A restore that succeeds: what was replayed is applied, then the authority is announced. -/
theorem restore_ok {g g' : Governor} {s : DurableStore} (hstore : g.store = some s)
    {report : RestoreReport} (h : g.restore = (.ok (), report, g')) :
    ∃ replayed acc report', acc.WellFormed ∧
      s.replay collectRecord [] = (.ok replayed, (s.replay collectRecord []).2) ∧
      g' = ((g.withStore (s.replay collectRecord []).2).applyRecovery acc report').1.announceAuthority
      := by
  rw [restore, hstore] at h
  dsimp only at h
  generalize s.replay collectRecord [] = result at *
  obtain ⟨failure | replayed, s'⟩ := result
  · cases h
  · have hacc := (g.withStore s').wellFormed_recover replayed
    simp only [Prod.mk.injEq, true_and] at h
    exact ⟨replayed, _, _, hacc, rfl, h.2.symm⟩

/-- A restore that fails has at most cut off what was never verified. -/
theorem restore_failed {g g' : Governor} {s : DurableStore} (hopen : s.isOpen) (hf : s.faults = [])
    (hstore : g.store = some s) {failure : Failure} {report : RestoreReport}
    (h : g.restore = (.error failure, report, g')) : ∃ s', g'.store = some s' ∧
      terminalEvents s.disk ⊆ terminalEvents s'.disk := by
  obtain ⟨-, hdisk⟩ := AckedStore.replay_disk hopen hf collectRecord []
  rw [restore, hstore] at h
  dsimp only at h
  generalize s.replay collectRecord [] = result at *
  obtain ⟨failure' | replayed, s'⟩ := result
  · simp only [Prod.mk.injEq] at h
    rw [← h.2.2]
    exact ⟨s', rfl, terminalEvents_replayed hdisk⟩
  · cases h

/-- RESTART: an event that the files hold and that the restored history shows stays in both. -/
theorem holds_restore {hashing : Hashing} {config : GovernorConfig} {s : DurableStore}
    (hopen : s.isOpen) (hf : s.faults = []) {report : RestoreReport} {g' : Governor}
    (h : ((new hashing config).bindStore (some s)).restore = (.ok (), report, g')) {e : BurstEvent}
    (he : e ∈ terminalEvents s.disk) (hmem : e ∈ g'.eventHistory) : g'.Holds e := by
  have hstore : ((new hashing config).bindStore (some s)).store = some s := rfl
  obtain ⟨hfaults, hdisk⟩ := AckedStore.replay_disk hopen hf collectRecord []
  obtain ⟨⟨g₁, hshelves⟩, -⟩ := restored_fresh hopen hf h
  obtain ⟨retired, decisionSeq, lastTick, counts, hcore⟩ :=
    ((new hashing config).bindStore (some s)).restored_restore
  have hstep : ((new hashing config).bindStore (some s)).step .restore = g' := by
    rw [step, h]
  rw [hstep] at hcore
  obtain ⟨replayed, acc, report', hacc, -, rfl⟩ := restore_ok hstore h
  have hwell : ((new hashing config).bindStore (some s)).WellFormed :=
    wellFormed_bindStore (wellFormed_new hashing config) _
  have happlied := wellFormed_applyRecovery
    (g := ((new hashing config).bindStore (some s)).withStore (s.replay collectRecord []).2)
    (hwell.congr rfl) hacc report'
  have hkept := store_applyRecovery
    (((new hashing config).bindStore (some s)).withStore (s.replay collectRecord []).2) acc report'
  generalize (((new hashing config).bindStore (some s)).withStore
    (s.replay collectRecord []).2).applyRecovery acc report' = applied at *
  obtain ⟨g, report''⟩ := applied
  dsimp only at *
  rw [shelves_announceAuthority] at hshelves
  rw [core_announceAuthority] at hcore
  have hhistory : g.announceAuthority.eventHistory = g.eventHistory := by
    have hring := congrArg Prod.fst g.shelves_announceAuthority
    rw [eventHistory_eq, eventHistory_eq]
    exact congrArg (fun ring : List BurstEvent × ℕ => ring.1.rotate ring.2) hring
  refine holds_announceAuthority ⟨⟨happlied, ?_, ?_⟩, (mem_terminalEvents.mp he).2, ?_, _, hkept,
    hfaults, terminalEvents_replayed hdisk he⟩
  · have hhistory : g.history = _ := congrArg (fun shelves => shelves.1.1) hshelves
    have hcap : 0 < Limits.maxEventHistory := by decide
    obtain ⟨-, hlength, -⟩ := CappedRing.rotate_foldl_push hcap
      ((new hashing config).recoveredEvents (RecoveryAccumulator.ofFiles hashing s.disk))
    rw [hhistory, hlength]
    exact Nat.min_le_right _ _
  · have hopenEvents : g.openEvents = UnorderedMap.empty := by
      have hfresh : ∀ (c : Core) (adopted : Option PolicySet),
          (adopted.elim c c.adoptPolicies).openEvents = c.openEvents := by
        intro c adopted
        cases adopted <;> rfl
      exact (congrArg Core.openEvents hcore).trans (hfresh _ _)
    rw [hopenEvents]
    rfl
  · rw [← hhistory]
    exact hmem

/-- The authority an event was recorded under. -/
def BoundTo (config : GovernorConfig) (e : BurstEvent) : Prop :=
  e.epoch = config.epoch ∧ e.incarnation = config.incarnation ∧ e.boot = config.boot

instance (config : GovernorConfig) (e : BurstEvent) : Decidable (BoundTo config e) :=
  inferInstanceAs (Decidable (_ ∧ _))

theorem rebind_new (hashing : Hashing) (config : GovernorConfig) (e : BurstEvent) :
    BoundTo config ((new hashing config).rebind e) := ⟨rfl, rfl, rfl⟩

theorem rebind_eq_iff {hashing : Hashing} {config : GovernorConfig} {e : BurstEvent} :
    (new hashing config).rebind e = e ↔ BoundTo config e := by
  constructor
  · intro h
    rw [← h]
    exact rebind_new hashing config e
  · rintro ⟨hepoch, hincarnation, hboot⟩
    have hfields : (new hashing config).rebind e = { e with
        epoch := config.epoch, incarnation := config.incarnation, boot := config.boot } := rfl
    rw [hfields, ← hepoch, ← hincarnation, ← hboot]

/-- Every event of a restored history is bound to the restart's authority. -/
theorem boundTo_of_restored {hashing : Hashing} {config : GovernorConfig} {s : DurableStore}
    (hopen : s.isOpen) (hf : s.faults = []) {report : RestoreReport} {g' : Governor}
    (h : ((new hashing config).bindStore (some s)).restore = (.ok (), report, g')) :
    ∀ e ∈ g'.eventHistory, BoundTo config e := by
  obtain ⟨unfinished, hhistory⟩ := eventHistory_restored hopen hf h
  intro e he
  rw [hhistory, List.mem_append, List.mem_map, List.mem_map] at he
  rcases he with ⟨e', -, rfl⟩ | ⟨e', -, rfl⟩
  · exact rebind_new hashing config e'
  · exact rebind_new hashing config e'

/-- What a restart leaves as it was recorded: an event that its ring keeps, recorded under the very
    authority that the restart is configured with. -/
theorem mem_restored {hashing : Hashing} {config : GovernorConfig} {s : DurableStore}
    (hopen : s.isOpen) (hf : s.faults = []) {report : RestoreReport} {g' : Governor}
    (h : ((new hashing config).bindStore (some s)).restore = (.ok (), report, g')) {e : BurstEvent}
    (hkept : e ∈ keptEvents s.disk) (hbound : BoundTo config e) : e ∈ g'.eventHistory := by
  obtain ⟨unfinished, hhistory⟩ := eventHistory_restored hopen hf h
  rw [hhistory]
  refine List.mem_append_left _ (List.mem_map.mpr ⟨e, hkept, ?_⟩)
  exact rebind_eq_iff.mpr hbound

end Governor

/-! ### The lives of a store -/

/-- A store directory, the governor that runs over it, and every terminal event that was ever
    recovered from it. -/
structure StoreLives where
  files : Files
  governor : Option Governor := none
  recovered : List BurstEvent := []

/-- What may happen between two lives, or in one. -/
inductive LifeEvent where
  /-- The process ends, and a new one opens the store and restores from it. -/
  | restart (hashing : Hashing) (config : GovernorConfig) (store : StoreConfig)
  | checkpoint

namespace StoreLives

/-- The files under a governor, or those it was started over if it has no store. -/
def filesOf (l : StoreLives) (g : Governor) : Files :=
  (g.store.map DurableStore.disk).getD l.files

/-- The store that a restart opens. -/
def reopen (l : StoreLives) (config : StoreConfig) : Status × DurableStore :=
  (DurableStore.ofFiles l.files).openStore config

/-- A restart that can open its store and restore from it runs on; any other does not. -/
def restart (l : StoreLives) (hashing : Hashing) (config : GovernorConfig) (store : StoreConfig) :
    StoreLives :=
  match l.reopen store with
  | (.error _, s) => { l with files := s.disk, governor := none }
  | (.ok (), s) =>
    match ((Governor.new hashing config).bindStore (some s)).restore with
    | (.error _, _, g) => { l with files := l.filesOf g, governor := none }
    | (.ok (), _, g) => ⟨l.filesOf g, some g, l.recovered ++ terminalEvents s.disk⟩

def step (l : StoreLives) : LifeEvent → StoreLives
  | .restart hashing config store => l.restart hashing config store
  | .checkpoint =>
    match l.governor with
    | none => l
    | some g => { l with files := l.filesOf g.checkpoint.2, governor := some g.checkpoint.2 }

/-- Every event that was terminal when it was recovered stands in the history as it was recorded. -/
def Verbatim (l : StoreLives) : Prop :=
  ∀ g, l.governor = some g → ∀ e ∈ l.recovered, e ∈ g.eventHistory

instance (l : StoreLives) : Decidable l.Verbatim :=
  inferInstanceAs (Decidable (∀ g ∈ l.governor, ∀ e ∈ l.recovered, e ∈ g.eventHistory))

/-- The condition on a restart: its ring keeps the terminal events of the files, and these were
    recorded under the authority that it is configured with. -/
def StepOk (l : StoreLives) : LifeEvent → Prop
  | .restart _ config _ => ∀ e ∈ terminalEvents l.files,
    e ∈ Governor.keptEvents l.files ∧ Governor.BoundTo config e
  | .checkpoint => True

instance (l : StoreLives) : ∀ event, Decidable (l.StepOk event)
  | .restart _ config _ => inferInstanceAs (Decidable (∀ e ∈ terminalEvents l.files,
    e ∈ Governor.keptEvents l.files ∧ Governor.BoundTo config e))
  | .checkpoint => isTrue trivial

/-- The invariant: what was recovered is in the files, and the running governor holds it. -/
structure Sound (l : StoreLives) : Prop where
  files : ∀ e ∈ l.recovered, e ∈ terminalEvents l.files
  running : ∀ g, l.governor = some g → ∀ e ∈ l.recovered, g.Holds e

theorem Sound.verbatim {l : StoreLives} (h : l.Sound) : l.Verbatim :=
  fun g hg e he => (h.running g hg e he).history

/-! ### Opening -/

theorem isOpen_openStore {s s' : DurableStore} (hf : s.faults = []) {config : StoreConfig}
    (h : s.openStore config = (.ok (), s')) : s'.isOpen := by
  rw [openStore, nextFault_nil hf] at h
  split_ifs at h
  all_goals cases h
  all_goals rfl

/-- The recovery reads a missing journal as an empty one. -/
theorem kept_congr {files files' : Files} (hsnapshot : files'.snapshot = files.snapshot)
    (hjournal : files'.journal.getD [] = files.journal.getD []) :
    terminalEvents files' = terminalEvents files ∧
      Governor.keptEvents files' = Governor.keptEvents files := by
  have hintact : intactSnapshot files' = intactSnapshot files := by
    rw [intactSnapshot, intactSnapshot, hsnapshot]
  have hstate : snapshotState files' = snapshotState files := by
    rw [snapshotState, snapshotState, hintact]
  have hrecords : appliedRecords files' = appliedRecords files := by
    rw [appliedRecords, appliedRecords, hintact, hjournal]
  have hcommitted : committedEvents files' = committedEvents files := by
    rw [committedEvents, committedEvents, hstate, hrecords]
  have hunfinished : unfinishedIds files' = unfinishedIds files := by
    rw [unfinishedIds, unfinishedIds, flights, flights, hstate, hrecords]
  refine ⟨?_, ?_⟩
  · rw [terminalEvents, terminalEvents, hcommitted]
  · rw [Governor.keptEvents, Governor.keptEvents, hcommitted, hunfinished]

/-! ### Steps -/

theorem reopen_files (l : StoreLives) (store : StoreConfig) : (l.reopen store).2.faults = [] ∧
    terminalEvents (l.reopen store).2.disk = terminalEvents l.files ∧
      Governor.keptEvents (l.reopen store).2.disk = Governor.keptEvents l.files := by
  have hfresh : (DurableStore.ofFiles l.files).disk = l.files := rfl
  obtain ⟨hf, hdisk | ⟨hnone, hdisk⟩⟩ :=
    AckedStore.openStore_disk (s := DurableStore.ofFiles l.files) rfl store
  · refine ⟨hf, kept_congr ?_ ?_⟩
    · rw [reopen, hdisk]
      rfl
    · rw [reopen, hdisk]
      rfl
  · rw [hfresh] at hnone hdisk
    refine ⟨hf, kept_congr ?_ ?_⟩
    · rw [reopen, hdisk]
    · rw [reopen, hdisk, hnone]
      rfl

/-- A process that does not come up leaves the terminal events of the files alone. -/
theorem Sound.stopped {l : StoreLives} (h : l.Sound) {files : Files}
    (hfiles : terminalEvents l.files ⊆ terminalEvents files) :
    ({ l with files, governor := none } : StoreLives).Sound :=
  ⟨fun e he => hfiles (h.files e he), fun g hg => by cases hg⟩

/-- A governor that holds all that was recovered runs on over its own files. -/
theorem Sound.runs (l : StoreLives) {g : Governor} {recovered : List BurstEvent}
    (hall : ∀ e ∈ recovered, g.Holds e) : Sound ⟨l.filesOf g, some g, recovered⟩ := by
  refine ⟨fun e he => ?_, fun g' hg e he => ?_⟩
  · obtain ⟨s, hstore, -, hmem⟩ := (hall e he).durable
    dsimp only [filesOf]
    rw [hstore]
    exact hmem
  · obtain rfl := Option.some.inj hg
    exact hall e he

theorem Sound.restart {l : StoreLives} (h : l.Sound) {hashing : Hashing} {config : GovernorConfig}
    {store : StoreConfig} (hok : l.StepOk (.restart hashing config store)) :
    (l.restart hashing config store).Sound := by
  obtain ⟨hf, hterminal, hkept⟩ := l.reopen_files store
  have hopened : ∀ s, l.reopen store = (.ok (), s) → s.isOpen :=
    fun s hs => isOpen_openStore rfl hs
  rw [StoreLives.restart]
  generalize l.reopen store = opened at *
  obtain ⟨failure | _, s⟩ := opened
  · exact h.stopped fun e he => by rwa [hterminal]
  · have hopen := hopened s rfl
    dsimp only at hf hterminal hkept ⊢
    generalize hresult : ((Governor.new hashing config).bindStore (some s)).restore = result at *
    obtain ⟨failure | _, report, g⟩ := result
    · obtain ⟨s', hstore, hfiles⟩ := Governor.restore_failed hopen hf rfl hresult
      refine h.stopped fun e he => ?_
      rw [filesOf, hstore]
      exact hfiles (by rwa [hterminal])
    · have hall : ∀ e ∈ l.recovered ++ terminalEvents s.disk, g.Holds e := by
        intro e he
        have hdisk : e ∈ terminalEvents s.disk := by
          rcases List.mem_append.mp he with hold | hnew
          · rw [hterminal]
            exact h.files e hold
          · exact hnew
        obtain ⟨hring, hbound⟩ := hok e (by rwa [← hterminal])
        rw [← hkept] at hring
        exact Governor.holds_restore hopen hf hresult hdisk
          (Governor.mem_restored hopen hf hresult hring hbound)
      exact Sound.runs l hall

/-- CHECKPOINT: the snapshot has every event that was recovered. -/
theorem Sound.checkpoint {l : StoreLives} (h : l.Sound) : (l.step .checkpoint).Sound := by
  rw [step]
  cases hg : l.governor with
  | none => exact h
  | some g =>
    exact Sound.runs l fun e he => Governor.holds_compactLocked (h.running g hg e he)

theorem sound_step (l : StoreLives) (event : LifeEvent) (h : l.Sound) (hok : l.StepOk event) :
    (l.step event).Sound := by
  cases event with
  | restart hashing config store => exact h.restart hok
  | checkpoint => exact h.checkpoint

theorem sound_initial (files : Files) : ({ files } : StoreLives).Sound :=
  ⟨by simp, fun g hg => by cases hg⟩

/-- VERBATIM: in any number of restarts and checkpoints, every restart under the authority of the
    terminal events it recovers and within the bound of its history, every recovered terminal event
    stands in the history as it was recorded. -/
theorem history_verbatim (files : Files) (events : List LifeEvent)
    (hok : Runs.Meets step StepOk { files } events) : (Runs.run step { files } events).Verbatim :=
  (Runs.run_invariant (fun l event h hok => sound_step l event h hok) (sound_initial files)
    hok).verbatim

/-- No other authority will do: a restart that runs on and shows what it recovered as it was recorded
    is configured with the authority of every terminal event of the files. -/
theorem boundTo_of_verbatim {l : StoreLives} {hashing : Hashing} {config : GovernorConfig}
    {store : StoreConfig} {g : Governor}
    (hg : (l.step (.restart hashing config store)).governor = some g)
    (h : (l.step (.restart hashing config store)).Verbatim) :
    ∀ e ∈ terminalEvents l.files, Governor.BoundTo config e := by
  intro e he
  obtain ⟨hf, hterminal, -⟩ := l.reopen_files store
  have hopened : ∀ s, l.reopen store = (.ok (), s) → s.isOpen := fun s hs => isOpen_openStore rfl hs
  rw [step, StoreLives.restart] at hg h
  generalize l.reopen store = opened at *
  obtain ⟨failure | _, s⟩ := opened
  · cases hg
  · have hopen := hopened s rfl
    dsimp only at hf hterminal hg h
    generalize hresult : ((Governor.new hashing config).bindStore (some s)).restore = result at *
    obtain ⟨failure | _, report, g'⟩ := result
    · cases hg
    · rw [← hterminal] at he
      exact Governor.boundTo_of_restored hopen hf hresult e
        (h g' rfl e (List.mem_append_right _ he))

/-- The record of an episode that closed in the first epoch. -/
def closedInFirstEpoch : Files where
  journal := some (buildRecord .episodeClosed ⟨1⟩ ⟨0⟩
    (encodeEvent { stream := ⟨⟨1⟩, ⟨1⟩, ⟨1⟩⟩, lifecycle := .closed, epoch := ⟨1⟩ }))

/-- Two restarts in the same epoch, and a checkpoint. -/
theorem history_verbatim_same_epoch : (Runs.run step { files := closedInFirstEpoch }
    [.restart Hashing.back { epoch := ⟨1⟩ } { directory := "store" },
      .restart Hashing.back { epoch := ⟨1⟩ } { directory := "store" }, .checkpoint]).Verbatim :=
  history_verbatim closedInFirstEpoch _ (by decide +kernel)

/-- A restart in the next epoch shows the same episode as one of that epoch. -/
theorem nextEpoch_rewrites : ¬ ∀ files events,
    (Runs.run step ({ files } : StoreLives) events).Verbatim := by
  intro hlaw
  have hverbatim := hlaw closedInFirstEpoch
    [.restart Hashing.back { epoch := ⟨2⟩ } { directory := "store" }]
  exact absurd hverbatim (by decide +kernel)

end StoreLives

end Mbg
