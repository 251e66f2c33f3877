import MicroburstGovernor.Governor.Interventions

/-! The governor's public operations: configuration, evidence, time and the bound store. -/

namespace Mbg

namespace Governor

/-! ### Decision processing -/

/-- The detector's episode, bound to the authority in force. -/
def boundEpisode (g : Governor) (d : Detector) : BurstEvent :=
  { d.episode with
    epoch := g.context.epoch, incarnation := g.context.incarnation, boot := g.context.boot }

/-- The event of a decision that names one. -/
def decisionEvent (g : Governor) (d : Detector) (decision : DetectionDecision) : BurstEvent :=
  if decision.opened || decision.updated || decision.closed then
    let event := { g.boundEpisode d with lastSeq := g.decisionSeq }
    if decision.opened then { event with openedSeq := g.decisionSeq } else event
  else {}

/-- An opening decision: the episode enters the table, is announced and journaled. -/
def openEpisodeLocked (g : Governor) (event : BurstEvent) (now : Tick) : Governor :=
  let g :=
    { g with
      openEvents := g.openEvents.assign g.hashing.openEvents event.id event
      stats := { g.stats with episodesOpened := g.stats.episodesOpened + 1 } }
  let g := g.pushEmissionLocked { kind := .episodeOpened, event, tick := now }
  g.journalRecord .episodeOpened (encodeEvent event) now

/-- A closing decision: the episode leaves the table, its intents lose their justification, then
    it is recorded, announced and journaled. -/
def closeEpisodeLocked (g : Governor) (event : BurstEvent) (fenced : Bool) (now : Tick) :
    Governor :=
  let g := { g with openEvents := g.openEvents.erase event.id }
  let (g, _) := g.refreshAuthorityLocked now event.id
  let g := g.recordEventLocked event
  let g :=
    if fenced then
      { g with stats := { g.stats with episodesFenced := g.stats.episodesFenced + 1 } }
    else { g with stats := { g.stats with episodesClosed := g.stats.episodesClosed + 1 } }
  let g := g.pushEmissionLocked
    { kind := if fenced then .episodeFenced else .episodeClosed, event, tick := now }
  g.journalRecord (if fenced then .episodeFenced else .episodeClosed) (encodeEvent event) now

/-- Mirrors a detector's decision: the open table, the history, the journal, the intents. -/
def processDecisionLocked (g : Governor) (d : Detector) (decision : DetectionDecision)
    (now : Tick) : Governor :=
  let g :=
    { g with
      stats :=
        { g.stats with
          evaluations := g.stats.evaluations + 1, decisions := g.stats.decisions + 1 }
      decisionSeq := ⟨g.decisionSeq.raw + 1⟩ }
  let event := g.decisionEvent d decision
  let g :=
    if decision.opened then g.openEpisodeLocked event now
    else if decision.updated && !decision.closed then
      { g with openEvents := g.openEvents.assign g.hashing.openEvents event.id event }
    else g
  let g := if decision.closed then g.closeEpisodeLocked event decision.fenced now else g
  if decision.classification.isPositive && !decision.suppressedByCooldown then
    g.maybeRequestInterventionsLocked decision now
  else g

/-! ### Evidence -/

/-- What the governor did with an offered sample. -/
structure IngestOutcome where
  status : Status := .ok ()
  accept : WindowAccept := .accepted
  classification : Classification := .unknown
  evaluated : Bool := false
  decision : DetectionDecision := {}

def rejectSample (g : Governor) : Governor :=
  { g with stats := { g.stats with samplesRejected := g.stats.samplesRejected + 1 } }

/-- Counts a sample under what the window made of it. -/
def countAccept (g : Governor) (accept : WindowAccept) : Governor :=
  let stats := g.stats
  { g with
    stats := match accept with
      | .duplicate => { stats with samplesDuplicate := stats.samplesDuplicate + 1 }
      | .reordered => { stats with samplesReordered := stats.samplesReordered + 1 }
      | .discontinuity => { stats with samplesDiscontinuity := stats.samplesDiscontinuity + 1 }
      | .accepted | .capacityChanged =>
        { stats with samplesIngested := stats.samplesIngested + 1 } }

def setEntry (g : Governor) (key : StreamKey) (entry : StreamEntry) : Governor :=
  { g with streams := g.streams.insert key entry }

/-- The entry of a stream: the one there is, or a fresh one if a stream fits. -/
def findOrCreate (g : Governor) (key : StreamKey) : Except Failure (StreamEntry × Governor) :=
  match g.streams.find? key with
  | some entry => .ok (entry, g)
  | none =>
    if g.streams.size ≥ Limits.maxStreams then
      Status.failure .capacityExceeded "stream capacity exhausted"
    else
      let entry : StreamEntry :=
        { detector :=
            Detector.configure {} key (g.policies.resolve key.resource) g.policies.generation }
      let g := g.setEntry key entry
      .ok (entry, { g with stats := { g.stats with streams := g.streams.size.toUInt64 } })

/-- The declared resource generation becomes the observed one. -/
def observeGeneration (g : Governor) (sample : Sample) : Governor :=
  if sample.resourceGeneration.valid then
    { g with
      resourceGenerations :=
        g.resourceGenerations.assign (.back _) sample.stream.resource sample.resourceGeneration }
  else g

/-- A decision not processed yet: after the last processed tick of its stream. -/
def StreamEntry.unprocessed (entry : StreamEntry) (tick : Tick) : Bool :=
  !entry.hasProcessed || tickAfter entry.lastProcessed tick

/-- Mirrors a decision if its stream has not processed its tick yet. -/
def mirrorDecision (g : Governor) (key : StreamKey) (entry : StreamEntry)
    (decision : DetectionDecision) (now : Tick) : Governor × Bool :=
  if StreamEntry.unprocessed entry decision.tick then
    let entry := { entry with hasProcessed := true, lastProcessed := decision.tick }
    ((g.setEntry key entry).processDecisionLocked entry.detector decision now, true)
  else (g.setEntry key entry, false)

def raiseLastTick (g : Governor) (tick : Tick) : Governor :=
  if tick.value > g.lastTick.value then { g with lastTick := tick } else g

def ingest (g : Governor) (sample : Sample) : IngestOutcome × Governor :=
  match validateSample sample with
  | .error e => ({ status := .error e }, g.rejectSample)
  | .ok () =>
  match g.findOrCreate sample.stream with
  | .error e => ({ status := .error e }, g.rejectSample)
  | .ok (entry, g) =>
  let g := g.observeGeneration sample
  match entry.detector.ingest sample with
  | .error e => ({ status := .error e }, g.rejectSample)
  | .ok (detector, decision) =>
    let entry := { entry with detector }
    let g := g.countAccept detector.lastAccept
    let (g, evaluated) := g.mirrorDecision sample.stream entry decision decision.tick
    let g := if evaluated then g.raiseLastTick decision.tick else g
    -- authority is revalidated on every accepted sample
    let (g, _) := g.refreshAuthorityLocked decision.tick
    ({ accept := detector.lastAccept, classification := decision.classification, evaluated,
       decision }, g)

structure AdvanceResult where
  streamsEvaluated : ℕ := 0
  decisionsChanged : ℕ := 0
  interventionsChanged : ℕ := 0
  deriving DecidableEq, Repr

/-- One stream of an advance: evaluated unless its clock is already there. -/
def advanceStream (now : Tick) (acc : Governor × AdvanceResult) (key : StreamKey) :
    Governor × AdvanceResult :=
  let (g, result) := acc
  match g.streams.find? key with
  | none => acc
  | some entry =>
    if !entry.detector.freshAt now then acc
    else
      let (detector, decision) := entry.detector.advance now
      let (g, changed) := g.mirrorDecision key { entry with detector } decision now
      (g,
        { result with
          streamsEvaluated := result.streamsEvaluated + 1
          decisionsChanged :=
            if changed then result.decisionsChanged + 1 else result.decisionsChanged })

/-- Advances logical time for every known stream, in key order. -/
def advance (g : Governor) (now : Tick) : AdvanceResult × Governor :=
  let (g, result) := g.streams.keys.foldl (advanceStream now) (g, {})
  let (g, revoked) := g.refreshAuthorityLocked now
  ({ result with interventionsChanged := revoked }, g.raiseLastTick now)

/-! ### Configuration -/

/-- The policy set and the authority context that mirrors it. -/
def adoptPolicies (g : Governor) (policies : PolicySet) : Governor :=
  { g with
    policies
    context :=
      { g.context with policyGeneration := policies.generation, policyDigest := policies.digest } }

def countPolicyChange (g : Governor) : Governor :=
  { g with stats := { g.stats with policyChanges := g.stats.policyChanges + 1 } }

/-- Rearms one stream under the policy now in force for it; an open episode is fenced. -/
def rearmStream (g : Governor) (key : StreamKey) : Governor :=
  match g.streams.find? key with
  | none => g
  | some entry =>
    let policy := g.policies.resolve entry.detector.key.resource
    let (detector, fenced) := entry.detector.rearm policy g.policies.generation g.lastTick
    let g := g.setEntry key { entry with detector }
    if fenced.isSome then
      let event := { g.boundEpisode detector with lifecycle := .fenced }
      let g := { g with openEvents := g.openEvents.erase event.id }
      let g := g.recordEventLocked event
      let g := { g with stats := { g.stats with episodesFenced := g.stats.episodesFenced + 1 } }
      g.pushEmissionLocked { kind := .episodeFenced, event, tick := g.lastTick }
    else g

def installPolicy (g : Governor) (policy : Policy) : Status × Governor :=
  match g.policies.setFallback policy with
  | .error e => (.error e, g)
  | .ok policies =>
    let g := (g.adoptPolicies policies).countPolicyChange
    let g := g.streams.keys.foldl rearmStream g
    let (g, _) := g.refreshAuthorityLocked g.lastTick
    let g := g.pushEmissionLocked
      { kind := .policyInstalled, policyGeneration := g.policies.generation,
        epoch := g.context.epoch, incarnation := g.context.incarnation, tick := g.lastTick }
    let payload := ByteWriter.u32 g.policies.generation.raw ++ encodePolicy g.policies.fallback
    (.ok (), g.journalRecord .policyInstalled payload g.lastTick)

/-- The streams whose detector measures a resource. -/
def streamsOf (g : Governor) (resource : ResourceId) : List StreamKey :=
  g.streams.keys.filter fun key =>
    (g.streams.find? key).any fun entry => entry.detector.key.resource = resource

def setResourcePolicy (g : Governor) (resource : ResourceId) (policy : Policy) :
    Status × Governor :=
  match g.policies.setOverride resource policy with
  | .error e => (.error e, g)
  | .ok policies =>
    let g := (g.adoptPolicies policies).countPolicyChange
    let g := (g.streamsOf resource).foldl rearmStream g
    (.ok (), (g.refreshAuthorityLocked g.lastTick).1)

def removeResourcePolicy (g : Governor) (resource : ResourceId) : Status × Governor :=
  match g.policies.removeOverride resource with
  | .error e => (.error e, g)
  | .ok policies =>
    let g := (g.adoptPolicies policies).countPolicyChange
    (.ok (), (g.refreshAuthorityLocked g.lastTick).1)

def bindAuthority (g : Governor) (epoch : Epoch) (incarnation : IncarnationId) (boot : BootId) :
    Status × Governor :=
  if !epoch.valid ∨ epoch.raw = 0 then
    (Status.failure .invalidArgument "authority epoch must be non-zero", g)
  else
    let g :=
      { g with
        context := { g.context with epoch, incarnation, boot }
        stats := { g.stats with authorityChanges := g.stats.authorityChanges + 1 } }
    let (g, _) := g.refreshAuthorityLocked g.lastTick
    let g := g.pushEmissionLocked
      { kind := .authorityBound, epoch, incarnation, tick := g.lastTick }
    (.ok (), g.journalRecord .authorityBound g.authorityPayload g.lastTick)

def setResourceGeneration (g : Governor) (resource : ResourceId)
    (generation : ResourceGeneration) : Status × Governor :=
  if !resource.valid then
    (Status.failure .invalidArgument "resource identity is invalid", g)
  else
    let g :=
      { g with
        resourceGenerations := g.resourceGenerations.assign (.back _) resource generation }
    (.ok (), (g.refreshAuthorityLocked g.lastTick).1)

/-- Withdrawing the mandate revokes every live intent; renewing it resurrects none. -/
def setInterventionsEnabled (g : Governor) (enabled : Bool) : Governor :=
  let wasEnabled := g.config.enableInterventions
  let g := { g with config := { g.config with enableInterventions := enabled } }
  if !enabled && wasEnabled then
    g.revokeAllLiveLocked AuthorityVerdict.interventionsDisabled g.lastTick
  else g

/-- Binds a store; the next record sequence follows the last one the store object appended. -/
def bindStore (g : Governor) (store : Option DurableStore) : Governor :=
  match store with
  | none => { g with store := none }
  | some s =>
    { g with
      store := some s
      recordSeq := if s.lastSequence.valid then s.lastSequence else ⟨0⟩ }

end Governor

end Mbg
