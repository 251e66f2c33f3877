import MicroburstGovernor.Governor.Ops

/-! Recovery: what durable state rebuilds, and what it never does. -/

namespace Mbg

/-- Everything recovery can rebuild from durable state; live authority is never part of it. -/
structure RecoveryAccumulator where
  openEvents : UnorderedMap EventId BurstEvent := UnorderedMap.empty
  closedEvents : List BurstEvent := []
  interventionIndex : UnorderedMap InterventionId ℕ := UnorderedMap.empty
  interventions : List InterventionIntent := []
  fallback : Option Policy := none
  overrides : List PolicyOverride := []
  generation : PolicyGeneration := default
  counters : PersistedState := {}

namespace RecoveryAccumulator

/-- The latest durable state of an intent, within the bound on their number. -/
def addIntent (acc : RecoveryAccumulator) (intent : InterventionIntent) : RecoveryAccumulator :=
  match acc.interventionIndex.find? intent.id with
  | none =>
    if acc.interventions.length ≥ Limits.maxInterventions then acc
    else
      { acc with
        interventionIndex :=
          acc.interventionIndex.emplace (.back _) intent.id acc.interventions.length
        interventions := acc.interventions ++ [intent] }
  | some i => { acc with interventions := acc.interventions.set i intent }

/-- An event of a snapshot: in flight, or terminal. -/
def addEvent (hashing : Hashing) (acc : RecoveryAccumulator) (event : BurstEvent) :
    RecoveryAccumulator :=
  if event.isOpen then
    { acc with openEvents := acc.openEvents.assign hashing.recovered event.id event }
  else { acc with closedEvents := acc.closedEvents ++ [event] }

def accumulateStateLocked (hashing : Hashing) (acc : RecoveryAccumulator)
    (state : PersistedState) : RecoveryAccumulator :=
  let acc :=
    { acc with
      fallback := some state.policies.fallback
      overrides := state.policies.overrides
      generation := state.policies.generation }
  let acc := state.events.foldl (addEvent hashing) acc
  let acc := state.interventions.foldl addIntent acc
  { acc with counters := state }

open ByteReader in
/-- The payload of a policy record: a generation and a policy. -/
def readPolicyRecord : ReaderM (UInt32 × Except Failure Policy) := do
  return (← u32, ← decodePolicy)

open ByteReader in
/-- The payload of an authority record: epoch, incarnation and boot. -/
def readAuthorityRecord : ReaderM (UInt32 × UInt64 × UInt64) := do
  return (← u32, ← u64, ← u64)

/-- Applies one journal record; a payload that does not decode changes nothing. -/
def accumulateRecordLocked (hashing : Hashing) (acc : RecoveryAccumulator)
    (record : JournaledRecord) : RecoveryAccumulator :=
  let reader := ByteReader.of record.payload
  match record.type with
  | .policyInstalled =>
    match (readPolicyRecord reader).1 with
    | (generation, .ok policy) => { acc with fallback := some policy, generation := ⟨generation⟩ }
    | _ => acc
  | .episodeOpened =>
    match (decodeEvent reader).1 with
    | .ok event =>
      { acc with openEvents := acc.openEvents.assign hashing.recovered event.id event }
    | .error _ => acc
  | .episodeClosed | .episodeFenced =>
    match (decodeEvent reader).1 with
    | .ok event =>
      { acc with
        openEvents := acc.openEvents.erase event.id
        closedEvents := acc.closedEvents ++ [event] }
    | .error _ => acc
  | .interventionRequested | .interventionStateChanged =>
    match (decodeIntent reader).1 with
    | .ok intent => acc.addIntent intent
    | .error _ => acc
  | .authorityBound =>
    let authority := (readAuthorityRecord reader).1
    { acc with
      counters :=
        { acc.counters with
          epoch := ⟨authority.1⟩, incarnation := ⟨authority.2.1⟩, boot := ⟨authority.2.2⟩ } }
  | .checkpoint | .unknown | .episodeUpdated => acc

end RecoveryAccumulator

namespace Governor

/-- The visitor of `restore`: collects the records, up to a bound on their number. -/
def collectRecord (records : List JournaledRecord) (record : JournaledRecord) :
    Except Failure (List JournaledRecord) :=
  if records.length ≥ Limits.maxRecoveredRecords then
    Status.failure .oversized "journal record count exceeds the bound"
  else .ok (records ++ [record])

/-- The visitor takes every record of a journal within the bound, and refuses a longer one. -/
theorem foldlM_collectRecord : ∀ (records start : List JournaledRecord),
    start.length ≤ Limits.maxRecoveredRecords → records.foldlM collectRecord start =
      if start.length + records.length ≤ Limits.maxRecoveredRecords then .ok (start ++ records)
      else Status.failure .oversized "journal record count exceeds the bound"
  | [], start, h => by simp [h, pure, Except.pure]
  | r :: rs, start, h => by
    rw [List.foldlM_cons, collectRecord]
    by_cases hfull : start.length ≥ Limits.maxRecoveredRecords
    · rw [if_pos hfull, if_neg (by rw [List.length_cons]; omega)]
      rfl
    · have hlen : (start ++ [r]).length = start.length + 1 := by simp
      have ih := foldlM_collectRecord rs (start ++ [r]) (by omega)
      rw [if_neg hfull]
      simp only [bind, Except.bind]
      rw [ih, hlen, List.length_cons, List.append_assoc, List.singleton_append, Nat.add_assoc,
        Nat.add_comm 1]

/-- The report on what the replay found, before anything is applied. -/
def reportReplay (recovery : RecoveryReport) : RestoreReport where
  snapshotPresent := recovery.snapshotPresent
  recordsApplied := recovery.recordsReplayed
  recoveryOutcome := recovery.outcome.toText
  detail := recovery.detail
  ambiguousOutcomes :=
    if recovery.outcome = .truncatedTail ∨ recovery.outcome = .corruptTail then 1 else 0

/-- The snapshot's state, if it is present and decodes; one that does not is ambiguous. -/
def accumulateSnapshot (hashing : Hashing) (recovery : RecoveryReport) (payload : Bytes)
    (report : RestoreReport) : RecoveryAccumulator × RestoreReport :=
  if recovery.snapshotPresent && !payload.isEmpty then
    match decodeState payload with
    | .error e =>
      ({}, { report with
              ambiguousOutcomes := report.ambiguousOutcomes + 1
              detail := report.detail ++ "; snapshot payload rejected: " ++ e.detail })
    | .ok state => (RecoveryAccumulator.accumulateStateLocked hashing {} state, report)
  else ({}, report)

/-- The records the snapshot does not cover. -/
def uncovered (covered : UInt64) (records : List JournaledRecord) : List JournaledRecord :=
  records.filter fun record => !(record.seq.raw ≤ covered)

/-- Durable configuration is restored. -/
def restorePolicies (g : Governor) (acc : RecoveryAccumulator) (report : RestoreReport) :
    Governor × RestoreReport :=
  match acc.fallback with
  | none => (g, report)
  | some fallback =>
    match PolicySet.restore fallback acc.overrides acc.generation with
    | .ok policies =>
      (g.adoptPolicies policies,
        { report with
          configurationItems := report.configurationItems + (1 + acc.overrides.length) })
    | .error _ => (g, { report with ambiguousOutcomes := report.ambiguousOutcomes + 1 })

/-- An event rebound to the authority of this incarnation. -/
def rebind (g : Governor) (event : BurstEvent) : BurstEvent :=
  { event with
    epoch := g.context.epoch, incarnation := g.context.incarnation, boot := g.context.boot }

/-- An unfinished episode, fenced by the restart. -/
def fenceUnfinished (g : Governor) (event : BurstEvent) : BurstEvent :=
  { g.rebind event with
    lifecycle := .fenced
    closeReason := CloseReason.restart
    closedTick := event.metrics.lastUpdateTick
    revision := event.revision + 1 }

/-- Committed history first, then the unfinished episodes as fenced. -/
def restoreEvents (g : Governor) (acc : RecoveryAccumulator) : Governor :=
  let g := acc.closedEvents.foldl (fun g event => g.recordEventLocked (g.rebind event)) g
  acc.openEvents.values.foldl (fun g event => g.recordEventLocked (g.fenceUnfinished event)) g

/-- Stale live authority is recorded as fenced, never resumed. -/
def restoreInterventions (g : Governor) (acc : RecoveryAccumulator) : Governor :=
  (acc.interventions.filter InterventionIntent.live).foldl (fun g intent =>
    g.pushInterventionHistory
      { intent with
        state := .fenced
        revocationVerdict := AuthorityVerdict.bootChanged
        stateChangedTick := g.lastTick }) g

/-- The counters: statistics are taken over, sequences and the last tick only rise. -/
def restoreCounters (g : Governor) (counters : PersistedState) : Governor :=
  { g with
    stats :=
      { g.stats with
        decisions := counters.decisions
        episodesOpened := counters.episodesOpened
        episodesClosed := counters.episodesClosed
        episodesFenced := counters.episodesFenced
        interventionsRequested := counters.interventionsRequested
        interventionsRevoked := counters.interventionsRevoked }
    decisionSeq :=
      if counters.lastDecisionSeq.raw > g.decisionSeq.raw then counters.lastDecisionSeq
      else g.decisionSeq
    recordSeq :=
      if counters.lastRecordSeq.raw > g.recordSeq.raw then counters.lastRecordSeq else g.recordSeq
    lastTick :=
      if counters.lastTick.value > g.lastTick.value then counters.lastTick else g.lastTick }

/-- The accumulated durable state of a replay. -/
def recover (g : Governor) (replayed : DurableStore.Replayed (List JournaledRecord)) :
    RecoveryAccumulator × RestoreReport :=
  let recovery := replayed.report
  let (acc, report) :=
    accumulateSnapshot g.hashing recovery replayed.snapshotPayload (reportReplay recovery)
  ((uncovered recovery.snapshotCoveredSeq replayed.visited).foldl
    (RecoveryAccumulator.accumulateRecordLocked g.hashing) acc, report)

/-- Applies what was accumulated to the governor. -/
def applyRecovery (g : Governor) (acc : RecoveryAccumulator) (report : RestoreReport) :
    Governor × RestoreReport :=
  let (g, report) := g.restorePolicies acc report
  let g := g.restoreEvents acc
  let g := g.restoreInterventions acc
  let g := g.restoreCounters acc.counters
  let unfinished := acc.openEvents.size
  (g,
    { report with
      historyItems := report.historyItems + acc.closedEvents.length + unfinished
      unfinishedAttempts := report.unfinishedAttempts + unfinished
      staleAuthorityItems :=
        report.staleAuthorityItems + (acc.interventions.filter InterventionIntent.live).length
      evidenceRequiringRevalidation :=
        (g.history.map fun event => event.stream.resource).dedup.length })

/-- Announces and journals the authority this incarnation starts with. -/
def announceAuthority (g : Governor) : Governor :=
  let g := g.pushEmissionLocked
    { kind := .authorityBound, epoch := g.context.epoch, incarnation := g.context.incarnation,
      tick := g.lastTick }
  if g.config.enableJournal then
    g.appendRecordLocked .authorityBound g.authorityPayload g.lastTick
  else g

/-- Rebuilds durable configuration and history from the bound store. -/
def restore (g : Governor) : Status × RestoreReport × Governor :=
  match g.store with
  | none => (Status.failure .notFound "no durable store is bound", {}, g)
  | some store =>
    match store.replay collectRecord [] with
    | (.error e, store) => (.error e, {}, g.withStore store)
    | (.ok replayed, store) =>
      let g := g.withStore store
      let (acc, report) := g.recover replayed
      let (g, report) := g.applyRecovery acc report
      (.ok (), report, g.announceAuthority)

/-! ### Public operations as steps -/

/-- A public operation of the governor that changes its state. -/
inductive Op where
  | ingest (sample : Sample)
  | advance (now : Tick)
  | installPolicy (policy : Policy)
  | setResourcePolicy (resource : ResourceId) (policy : Policy)
  | removeResourcePolicy (resource : ResourceId)
  | bindAuthority (epoch : Epoch) (incarnation : IncarnationId) (boot : BootId)
  | setResourceGeneration (resource : ResourceId) (generation : ResourceGeneration)
  | setInterventionsEnabled (enabled : Bool)
  | bindStore (store : Option DurableStore)
  | checkpoint
  | restore
  | drainEmissions

/-- One public call; its result is dropped, its state kept. -/
def step (g : Governor) : Op → Governor
  | .ingest sample => (g.ingest sample).2
  | .advance now => (g.advance now).2
  | .installPolicy policy => (g.installPolicy policy).2
  | .setResourcePolicy resource policy => (g.setResourcePolicy resource policy).2
  | .removeResourcePolicy resource => (g.removeResourcePolicy resource).2
  | .bindAuthority epoch incarnation boot => (g.bindAuthority epoch incarnation boot).2
  | .setResourceGeneration resource generation => (g.setResourceGeneration resource generation).2
  | .setInterventionsEnabled enabled => g.setInterventionsEnabled enabled
  | .bindStore store => g.bindStore store
  | .checkpoint => g.checkpoint.2
  | .restore => g.restore.2.2
  | .drainEmissions => g.drainEmissions.2

end Governor

end Mbg
