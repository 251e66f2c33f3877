import MicroburstGovernor.Governor.State

/-! Bounded corrective intents: requesting, refreshing, revalidating and retiring them. -/

namespace Mbg

/-- Deterministic intervention identity of an event, a kind and a creation tick. -/
def makeInterventionId (event : EventId) (kind : InterventionKind) (issued : Tick) :
    InterventionId :=
  let h := hashFields 0x1D1E2D3C4B5A6978 [event.raw, kind.raw.toUInt64, issued.value]
  ⟨if h = ~~~0 then h ^^^ 0x9E3779B97F4A7C15 else h⟩

/-- Severity scaled magnitude, inside (0, maximum]. -/
def scaleMagnitude (maximum : UInt32) (severity : SeverityClass) : UInt32 :=
  let scaled := (maximum.toUInt64 * severity.raw.toUInt64 + 3) / 4
  (max (min scaled maximum.toUInt64) 1).toUInt32

namespace Governor

/-! ### Retiring -/

/-- Retires an intent where it stands: it leaves force, enters the history and is journaled. -/
def retireInterventionLocked (g : Governor) (intent : InterventionIntent)
    (verdict : AuthorityVerdict) (now : Tick) : Governor :=
  let intent :=
    { intent with
      state := if verdict = AuthorityVerdict.expired then .expired else .revoked
      revocationVerdict := verdict
      stateChangedTick := now }
  let g := { g with interventions := g.interventions.update intent.id intent }
  let g :=
    if verdict = AuthorityVerdict.expired then
      { g with
        stats := { g.stats with interventionsExpired := g.stats.interventionsExpired + 1 } }
    else
      { g with
        stats := { g.stats with interventionsRevoked := g.stats.interventionsRevoked + 1 } }
  let g := g.pushInterventionHistory intent
  let g := g.pushEmissionLocked
    { kind := .interventionStateChanged, intervention := intent, tick := now }
  g.journalRecord .interventionStateChanged (encodeIntent intent) now

/-- The state of a loop over the intents: those to erase at its end, and how many were retired. -/
structure Sweep where
  governor : Governor
  retire : List InterventionId := []
  revoked : ℕ := 0

/-- The end of a sweep: what was collected is erased. -/
def Sweep.finish (s : Sweep) : Governor :=
  { s.governor with
    interventions := s.retire.foldl UnorderedMap.erase s.governor.interventions }

/-- The verdict on an intent: its authority, then whether the episode that justified it is open. -/
def verdictFor (g : Governor) (intent : InterventionIntent) (now : Tick) : AuthorityVerdict :=
  let verdict : AuthorityVerdict := evaluateAuthority intent.authority g.context
    (g.observedGeneration intent.stream.resource) now
  if verdict = AuthorityVerdict.valid ∧ !g.openEvents.contains intent.event then
    AuthorityVerdict.eventClosed
  else verdict

/-- One turn of `refresh_authority_locked`. -/
def refreshIntent (now : Tick) (onlyEvent : EventId) (s : Sweep) (id : InterventionId) : Sweep :=
  match s.governor.interventions.find? id with
  | none => s
  | some intent =>
    if onlyEvent.valid ∧ intent.event ≠ onlyEvent then s
    else if !intent.live then { s with retire := s.retire ++ [id] }
    else
      let verdict := s.governor.verdictFor intent now
      if verdict = AuthorityVerdict.valid then s
      else
        { governor := s.governor.retireInterventionLocked intent verdict now
          retire := s.retire ++ [id]
          revoked := s.revoked + 1 }

/-- Re-evaluates every intent, or those of one event, against the authority in force. -/
def refreshAuthorityLocked (g : Governor) (now : Tick) (onlyEvent : EventId := default) :
    Governor × ℕ :=
  let sweep := g.interventions.keys.foldl (refreshIntent now onlyEvent) { governor := g }
  (sweep.finish, sweep.revoked)

/-- One turn of `revoke_all_live_locked`. -/
def revokeIntent (verdict : AuthorityVerdict) (now : Tick) (s : Sweep) (id : InterventionId) :
    Sweep :=
  match s.governor.interventions.find? id with
  | none => s
  | some intent =>
    if !intent.live then { s with retire := s.retire ++ [id] }
    else
      { governor := s.governor.retireInterventionLocked intent verdict now
        retire := s.retire ++ [id]
        revoked := s.revoked + 1 }

def revokeAllLiveLocked (g : Governor) (verdict : AuthorityVerdict) (now : Tick) : Governor :=
  (g.interventions.keys.foldl (revokeIntent verdict now) { governor := g }).finish

/-! ### Requesting -/

def suppressIntervention (g : Governor) : Governor :=
  { g with
    stats := { g.stats with interventionsSuppressed := g.stats.interventionsSuppressed + 1 } }

/-- The state of the loop over the kinds: the live intents counted so far. -/
structure Requesting where
  governor : Governor
  liveForStream : ℕ
  liveTotal : ℕ

/-- The live intent of an event and a kind, if there is one. -/
def liveIntentFor (g : Governor) (event : EventId) (kind : InterventionKind) :
    Option InterventionIntent :=
  g.interventions.values.find? fun i => i.live && i.event = event && i.kind = kind

/-- Renews a live intent: its expiry moves to the new tick, its magnitude only rises. -/
def refreshedIntent (g : Governor) (decision : DetectionDecision) (now : Tick)
    (limit : InterventionKindLimit) (intent : InterventionIntent) : InterventionIntent :=
  { intent with
    magnitudePermille :=
      max intent.magnitudePermille (scaleMagnitude limit.magnitudePermille decision.severity)
    authority :=
      { intent.authority with expiryTick := addTicksSaturating now limit.ttlTicks }
    state := .active
    stateChangedTick := now
    seq := g.decisionSeq
    justificationSeverity := severityMax intent.justificationSeverity decision.severity }

/-- A new intent for an event, bound to the authority in force. -/
def newIntent (g : Governor) (decision : DetectionDecision) (now : Tick) (kind : InterventionKind)
    (limit : InterventionKindLimit) : InterventionIntent where
  id := makeInterventionId decision.event kind now
  event := decision.event
  stream := decision.stream
  kind := kind
  state := .requested
  magnitudePermille :=
    min (scaleMagnitude limit.magnitudePermille decision.severity) Limits.maxMagnitudePermille
  ttlTicks := ⟨limit.ttlTicks⟩
  authority :=
    { policyGeneration := g.context.policyGeneration
      policyDigest := g.context.policyDigest
      evidenceGeneration := ⟨hashCombine decision.event.raw decision.tick.value⟩
      resourceGeneration := g.observedGeneration decision.stream.resource
      epoch := g.context.epoch
      incarnation := g.context.incarnation
      boot := g.context.boot
      issuedTick := now
      expiryTick := addTicksSaturating now limit.ttlTicks }
  seq := g.decisionSeq
  justificationSeverity := decision.severity
  trigger := ReasonCode.interventionRequested
  stateChangedTick := now

def renewIntervention (g : Governor) (decision : DetectionDecision) (now : Tick)
    (limit : InterventionKindLimit) (intent : InterventionIntent) : Governor :=
  let intent := g.refreshedIntent decision now limit intent
  let g :=
    { g with
      interventions := g.interventions.update intent.id intent
      stats := { g.stats with interventionsRefreshed := g.stats.interventionsRefreshed + 1 } }
  let g := g.pushEmissionLocked
    { kind := .interventionStateChanged, intervention := intent, tick := now }
  g.journalRecord .interventionStateChanged (encodeIntent intent) now

def issueIntervention (g : Governor) (decision : DetectionDecision) (now : Tick)
    (kind : InterventionKind) (limit : InterventionKindLimit) : Governor :=
  let intent := g.newIntent decision now kind limit
  let g :=
    { g with
      interventions := g.interventions.emplace g.hashing.interventions intent.id intent
      stats := { g.stats with interventionsRequested := g.stats.interventionsRequested + 1 } }
  let g := g.pushEmissionLocked
    { kind := .interventionRequested, intervention := intent, tick := now }
  g.journalRecord .interventionRequested (encodeIntent intent) now

/-- The policy does not ask for this kind under this decision. -/
def kindSuppressed (policy : InterventionPolicy) (limit : InterventionKindLimit)
    (decision : DetectionDecision) : Bool :=
  !limit.enabled || !severityAtLeast decision.severity limit.minSeverity ||
    (policy.requireAuthoritativeEvidence && decision.authority ≠ .authoritative)

/-- One kind: suppressed, refreshed, out of capacity, or requested. -/
def requestKind (decision : DetectionDecision) (now : Tick) (policy : InterventionPolicy)
    (r : Requesting) (kind : InterventionKind) : Requesting :=
  let limit := policy.kinds kind
  if kindSuppressed policy limit decision then
    { r with governor := r.governor.suppressIntervention }
  else match r.governor.liveIntentFor decision.event kind with
  | some intent => { r with governor := r.governor.renewIntervention decision now limit intent }
  | none =>
    if r.liveForStream ≥ policy.maxConcurrentPerStream.toNat ∨
        r.liveTotal ≥ policy.maxConcurrentTotal.toNat ∨
        r.governor.interventions.size ≥ Limits.maxInterventions then
      { r with governor := r.governor.suppressIntervention }
    else
      { governor := r.governor.issueIntervention decision now kind limit
        liveForStream := r.liveForStream + 1
        liveTotal := r.liveTotal + 1 }

/-- Requests or refreshes the intents a positive decision justifies. -/
def maybeRequestInterventionsLocked (g : Governor) (decision : DetectionDecision) (now : Tick) :
    Governor :=
  if !g.config.enableInterventions then g.suppressIntervention
  else
    let policy := (g.policies.resolve decision.stream.resource).intervention
    let live := g.liveInterventions
    let start : Requesting :=
      { governor := g
        liveForStream := live.countP fun i => i.stream = decision.stream
        liveTotal := live.length }
    (InterventionKind.all.foldl (requestKind decision now policy) start).governor

end Governor

end Mbg
