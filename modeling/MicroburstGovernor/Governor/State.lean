import MicroburstGovernor.Detect.Detector
import MicroburstGovernor.Lib.OrderedMap
import MicroburstGovernor.Persist.Snapshot
import MicroburstGovernor.Persist.Store

/-! The governor's state, its bounded buffers and the durable record path. -/

namespace Mbg

/-- A change for the operator, the journal or a downstream consumer to observe. -/
inductive EmissionKind where
  | episodeOpened | episodeClosed | episodeFenced | interventionRequested
  | interventionStateChanged | policyInstalled | authorityBound
  deriving DecidableEq, Repr, Inhabited

structure Emission where
  kind : EmissionKind := .episodeOpened
  tick : Tick := {}
  event : BurstEvent := {}
  intervention : InterventionIntent := {}
  policyGeneration : PolicyGeneration := default
  epoch : Epoch := default
  incarnation : IncarnationId := default
  deriving DecidableEq, Repr, Inhabited

structure GovernorStats where
  samplesIngested : UInt64 := 0
  samplesRejected : UInt64 := 0
  samplesDuplicate : UInt64 := 0
  samplesReordered : UInt64 := 0
  samplesDiscontinuity : UInt64 := 0
  evaluations : UInt64 := 0
  decisions : UInt64 := 0
  episodesOpened : UInt64 := 0
  episodesClosed : UInt64 := 0
  episodesFenced : UInt64 := 0
  interventionsRequested : UInt64 := 0
  interventionsRefreshed : UInt64 := 0
  interventionsRevoked : UInt64 := 0
  interventionsExpired : UInt64 := 0
  interventionsSuppressed : UInt64 := 0
  policyChanges : UInt64 := 0
  authorityChanges : UInt64 := 0
  emissionsEmitted : UInt64 := 0
  emissionsDropped : UInt64 := 0
  eventsEvicted : UInt64 := 0
  streams : UInt64 := 0
  durableRecordsWritten : UInt64 := 0
  durableAppendFailures : UInt64 := 0
  durableCompactions : UInt64 := 0
  deriving DecidableEq, Repr, Inhabited

structure GovernorConfig where
  policy : Policy := makeDefaultPolicy
  epoch : Epoch := ⟨1⟩
  incarnation : IncarnationId := default
  boot : BootId := default
  enableInterventions : Bool := true
  enableJournal : Bool := true
  deriving DecidableEq, Repr, Inhabited

/-- One stream: its detector and the tick up to which its decisions were processed. -/
structure StreamEntry where
  detector : Detector := {}
  lastProcessed : Tick := {}
  hasProcessed : Bool := false
  deriving Inhabited

/-- Everything ever pushed into the bounded buffers, also what they dropped since. No operation reads
    it: it is what a property about a whole run speaks about. -/
structure Ledger where
  emitted : List Emission := []
  recorded : List BurstEvent := []
  retired : List InterventionIntent := []

/-- Where the governor's hash tables put their entries. -/
structure Hashing where
  openEvents : Placement (EventId × BurstEvent)
  interventions : Placement (InterventionId × InterventionIntent)
  recovered : Placement (EventId × BurstEvent)

def Hashing.back : Hashing := ⟨.back _, .back _, .back _⟩

/-- The governor of one process incarnation. -/
structure Governor where
  hashing : Hashing := Hashing.back
  config : GovernorConfig := {}
  policies : PolicySet := PolicySet.initial
  streams : OrderedMap StreamKey StreamEntry := OrderedMap.empty
  resourceGenerations : UnorderedMap ResourceId ResourceGeneration := UnorderedMap.empty
  openEvents : UnorderedMap EventId BurstEvent := UnorderedMap.empty
  history : List BurstEvent := []
  historyHead : ℕ := 0
  interventions : UnorderedMap InterventionId InterventionIntent := UnorderedMap.empty
  interventionHistory : List InterventionIntent := []
  emissions : List Emission := []
  stats : GovernorStats := {}
  context : AuthorityContext := {}
  decisionSeq : DecisionSeq := default
  recordSeq : RecordSeq := default
  store : Option DurableStore := none
  lastTick : Tick := {}
  ledger : Ledger := {}

namespace Governor

/-- A fresh governor; a configured policy that does not validate leaves the default in force. -/
def new (hashing : Hashing) (config : GovernorConfig) : Governor :=
  let policies :=
    match PolicySet.initial.setFallback config.policy with
    | .ok policies => policies
    | .error _ => PolicySet.initial
  { hashing, config, policies
    context :=
      { policyGeneration := policies.generation, policyDigest := policies.digest
        epoch := config.epoch, incarnation := config.incarnation, boot := config.boot } }

/-- The resource generation last observed for a resource, unset if there is none. -/
def observedGeneration (g : Governor) (resource : ResourceId) : ResourceGeneration :=
  (g.resourceGenerations.find? resource).getD default

/-- The live interventions. -/
def liveInterventions (g : Governor) : List InterventionIntent :=
  g.interventions.values.filter InterventionIntent.live

/-- Durable records are written: a store is bound and journaling is enabled. -/
def journaling (g : Governor) : Bool := g.store.isSome && g.config.enableJournal

/-! ### Bounded buffers -/

def pushEmissionLocked (g : Governor) (emission : Emission) : Governor :=
  let g :=
    if g.emissions.length ≥ Limits.maxPendingEmissions then
      { g with
        emissions := g.emissions.tail
        stats := { g.stats with emissionsDropped := g.stats.emissionsDropped + 1 } }
    else g
  { g with
    emissions := g.emissions ++ [emission]
    stats := { g.stats with emissionsEmitted := g.stats.emissionsEmitted + 1 }
    ledger := { g.ledger with emitted := g.ledger.emitted ++ [emission] } }

def drainEmissions (g : Governor) : List Emission × Governor :=
  (g.emissions, { g with emissions := [] })

/-- Records a terminal episode: the ring grows to its bound, then the oldest is overwritten. -/
def recordEventLocked (g : Governor) (event : BurstEvent) : Governor :=
  let g := { g with ledger := { g.ledger with recorded := g.ledger.recorded ++ [event] } }
  if g.history.length < Limits.maxEventHistory then { g with history := g.history ++ [event] }
  else
    { g with
      history := g.history.set g.historyHead event
      historyHead := (g.historyHead + 1) % Limits.maxEventHistory
      stats := { g.stats with eventsEvicted := g.stats.eventsEvicted + 1 } }

/-- The history, oldest first. -/
def historyOrderedLocked (g : Governor) : List BurstEvent :=
  (List.range g.history.length).map fun i =>
    g.history.getD ((g.historyHead + i) % g.history.length) default

def eventHistory (g : Governor) : List BurstEvent := g.historyOrderedLocked

/-- Appends to the intervention history, which drops its oldest entry past the bound. -/
def pushInterventionHistory (g : Governor) (intent : InterventionIntent) : Governor :=
  let history := g.interventionHistory ++ [intent]
  { g with
    interventionHistory :=
      if history.length > Limits.maxInterventions then history.tail else history
    ledger := { g.ledger with retired := g.ledger.retired ++ [intent] } }

/-! ### Durable records -/

/-- The governor over another state of its bound store. -/
def withStore (g : Governor) (store : DurableStore) : Governor := { g with store := some store }

/-- The historical and live intents, the newest within the bound. -/
def collectPersistedInterventionsLocked (g : Governor) : List InterventionIntent :=
  let out := g.interventionHistory ++ g.interventions.values
  out.drop (out.length - Limits.maxInterventions)

/-- The state a checkpoint persists: in-flight episodes stand in it as open. -/
def exportState (g : Governor) : PersistedState where
  boot := g.context.boot
  epoch := g.context.epoch
  incarnation := g.context.incarnation
  policies := g.policies
  events := g.historyOrderedLocked ++ g.openEvents.values
  interventions := g.collectPersistedInterventionsLocked
  lastDecisionSeq := g.decisionSeq
  lastRecordSeq := g.recordSeq
  lastTick := g.lastTick
  decisions := g.stats.decisions
  episodesOpened := g.stats.episodesOpened
  episodesClosed := g.stats.episodesClosed
  episodesFenced := g.stats.episodesFenced
  interventionsRequested := g.stats.interventionsRequested
  interventionsRevoked := g.stats.interventionsRevoked

/-- Writes the exported state as a snapshot covering every sequence assigned so far. -/
def compactLocked (g : Governor) : Status × Governor :=
  match g.store with
  | none => (Status.failure .notFound "no durable store is bound", g)
  | some store =>
    let payload := encodeState g.exportState
    if payload.length > Limits.maxSnapshotBytes then
      (Status.failure .oversized "checkpoint payload exceeds the bound", g)
    else
      let (status, store) := store.writeSnapshot payload g.recordSeq g.lastTick
      (status, g.withStore store)

def checkpoint (g : Governor) : Status × Governor := g.compactLocked

/-- One append to the bound store. -/
def storeAppend (g : Governor) (store : DurableStore) (type : RecordType) (payload : Bytes)
    (tick : Tick) : Status × Governor :=
  let (status, store) := store.append type g.recordSeq tick payload
  (status, g.withStore store)

def countAppendFailure (g : Governor) : Governor :=
  { g with
    stats := { g.stats with durableAppendFailures := g.stats.durableAppendFailures + 1 } }

def countAppend (g : Governor) (status : Status) : Governor :=
  match status with
  | .ok () =>
    { g with stats := { g.stats with durableRecordsWritten := g.stats.durableRecordsWritten + 1 } }
  | .error _ => g.countAppendFailure

/-- Appends a record under the next sequence; a full journal is compacted and tried once more. -/
def appendRecordLocked (g : Governor) (type : RecordType) (payload : Bytes) (tick : Tick) :
    Governor :=
  match g.store with
  | none => g
  | some store =>
    let g := { g with recordSeq := ⟨g.recordSeq.raw + 1⟩ }
    match g.storeAppend store type payload tick with
    | (.error failure, g) =>
      if failure.code = .capacityExceeded then
        match g.compactLocked with
        | (.ok (), g) =>
          let g :=
            { g with stats := { g.stats with durableCompactions := g.stats.durableCompactions + 1 } }
          match g.store with
          | none => g
          | some store =>
            let (status, g) := g.storeAppend store type payload tick
            g.countAppend status
        | (.error _, g) => g.countAppendFailure
      else g.countAppendFailure
    | (status, g) => g.countAppend status

/-- Journals a record when journaling is on. -/
def journalRecord (g : Governor) (type : RecordType) (payload : Bytes) (tick : Tick) : Governor :=
  if g.journaling then g.appendRecordLocked type payload tick else g

/-- The payload of an authority record: the authority in force. -/
def authorityPayload (g : Governor) : Bytes :=
  [ByteWriter.u32 g.context.epoch.raw, ByteWriter.u64 g.context.incarnation.raw,
    ByteWriter.u64 g.context.boot.raw].flatten

end Governor

end Mbg
