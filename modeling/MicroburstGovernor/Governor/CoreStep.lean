import MicroburstGovernor.Governor.Core
import MicroburstGovernor.Lib.Runs
import MicroburstGovernor.Governor.Recovery

/-! The public operations on the core of a governor, and that the governor's do the same to it. -/

namespace Mbg

namespace Core

/-- A governor with this core and empty buffers: the pure parts of the operations read no more. -/
def shell (c : Core) : Governor where
  hashing := c.hashing
  config := c.config
  policies := c.policies
  streams := c.streams
  resourceGenerations := c.resourceGenerations
  openEvents := c.openEvents
  interventions := c.interventions
  context := c.context
  decisionSeq := c.decisionSeq
  lastTick := c.lastTick

/-! ### Requesting -/

def renew (c : Core) (decision : DetectionDecision) (now : Tick) (limit : InterventionKindLimit)
    (intent : InterventionIntent) : Core :=
  let intent := c.shell.refreshedIntent decision now limit intent
  { c with interventions := c.interventions.update intent.id intent }

def issue (c : Core) (decision : DetectionDecision) (now : Tick) (kind : InterventionKind)
    (limit : InterventionKindLimit) : Core :=
  let intent := c.shell.newIntent decision now kind limit
  { c with
    interventions := c.interventions.emplace c.hashing.interventions intent.id intent
    requested := c.requested ++ [intent] }

/-- The state of the loop over the kinds. -/
structure Requesting where
  core : Core
  liveForStream : ℕ
  liveTotal : ℕ

def requestKind (decision : DetectionDecision) (now : Tick) (policy : InterventionPolicy)
    (r : Requesting) (kind : InterventionKind) : Requesting :=
  let limit := policy.kinds kind
  if Governor.kindSuppressed policy limit decision then r
  else match r.core.shell.liveIntentFor decision.event kind with
  | some intent => { r with core := r.core.renew decision now limit intent }
  | none =>
    if r.liveForStream ≥ policy.maxConcurrentPerStream.toNat ∨
        r.liveTotal ≥ policy.maxConcurrentTotal.toNat ∨
        r.core.interventions.size ≥ Limits.maxInterventions then r
    else
      { core := r.core.issue decision now kind limit
        liveForStream := r.liveForStream + 1
        liveTotal := r.liveTotal + 1 }

def startRequesting (c : Core) (decision : DetectionDecision) : Requesting where
  core := c
  liveForStream := c.shell.liveInterventions.countP fun i => i.stream = decision.stream
  liveTotal := c.shell.liveInterventions.length

def maybeRequest (c : Core) (decision : DetectionDecision) (now : Tick) : Core :=
  if c.config.enableInterventions then
    let policy := (c.policies.resolve decision.stream.resource).intervention
    (InterventionKind.all.foldl (requestKind decision now policy) (c.startRequesting decision)).core
  else c

/-! ### Episodes -/

def openEpisode (c : Core) (event : BurstEvent) (now : Tick) : Core :=
  { c with
    openEvents := c.openEvents.assign c.hashing.openEvents event.id event
    episodes := c.episodes ++ [{ kind := .episodeOpened, event, tick := now }]
    counts := { c.counts with opened := c.counts.opened + 1 } }

/-- The end of an episode is announced and counted. -/
def endEpisode (c : Core) (event : BurstEvent) (fenced : Bool) (now : Tick) : Core :=
  { c with
    episodes := c.episodes ++
      [{ kind := if fenced then .episodeFenced else .episodeClosed, event, tick := now }]
    counts :=
      if fenced then { c.counts with fenced := c.counts.fenced + 1 }
      else { c.counts with closed := c.counts.closed + 1 } }

def closeEpisode (c : Core) (event : BurstEvent) (fenced : Bool) (now : Tick) : Core :=
  ({ c with openEvents := c.openEvents.erase event.id }.refresh now event.id).endEpisode event fenced
    now

/-- The mirror of a decision in the table of open episodes. -/
def mirrorEpisode (c : Core) (event : BurstEvent) (decision : DetectionDecision) (now : Tick) :
    Core :=
  let c :=
    if decision.opened then c.openEpisode event now
    else if decision.updated && !decision.closed then
      { c with openEvents := c.openEvents.assign c.hashing.openEvents event.id event }
    else c
  if decision.closed then c.closeEpisode event decision.fenced now else c

def processDecision (c : Core) (d : Detector) (decision : DetectionDecision) (now : Tick) : Core :=
  let c := { c with decisionSeq := ⟨c.decisionSeq.raw + 1⟩ }
  let c := c.mirrorEpisode (c.shell.decisionEvent d decision) decision now
  if decision.classification.isPositive && !decision.suppressedByCooldown then
    c.maybeRequest decision now
  else c

/-! ### Evidence and time -/

def setEntry (c : Core) (key : StreamKey) (entry : StreamEntry) : Core :=
  { c with streams := c.streams.insert key entry }

/-- The entry of a stream that a sample creates. -/
def freshEntry (c : Core) (key : StreamKey) : StreamEntry where
  detector := Detector.configure {} key (c.policies.resolve key.resource) c.policies.generation

def findOrCreate (c : Core) (key : StreamKey) : Option (StreamEntry × Core) :=
  match c.streams.find? key with
  | some entry => some (entry, c)
  | none =>
    if c.streams.size ≥ Limits.maxStreams then none
    else some (c.freshEntry key, c.setEntry key (c.freshEntry key))

def observeGeneration (c : Core) (sample : Sample) : Core :=
  if sample.resourceGeneration.valid then
    { c with
      resourceGenerations :=
        c.resourceGenerations.assign (.back _) sample.stream.resource sample.resourceGeneration }
  else c

def mirrorDecision (c : Core) (key : StreamKey) (entry : StreamEntry)
    (decision : DetectionDecision) (now : Tick) : Core :=
  if Governor.StreamEntry.unprocessed entry decision.tick then
    (c.setEntry key { entry with hasProcessed := true, lastProcessed := decision.tick }).processDecision
      entry.detector decision now
  else c.setEntry key entry

def raiseLastTick (c : Core) (tick : Tick) : Core :=
  if tick.value > c.lastTick.value then { c with lastTick := tick } else c

def ingest (c : Core) (sample : Sample) : Core :=
  match validateSample sample with
  | .error _ => c
  | .ok () =>
  match c.findOrCreate sample.stream with
  | none => c
  | some (entry, c) =>
  let c := c.observeGeneration sample
  match entry.detector.ingest sample with
  | .error _ => c
  | .ok (detector, decision) =>
    let entry := { entry with detector }
    let c := c.mirrorDecision sample.stream entry decision decision.tick
    let c :=
      if Governor.StreamEntry.unprocessed entry decision.tick then c.raiseLastTick decision.tick
      else c
    c.refresh decision.tick

def advanceStream (now : Tick) (c : Core) (key : StreamKey) : Core :=
  match c.streams.find? key with
  | none => c
  | some entry =>
    if !entry.detector.freshAt now then c
    else
      let (detector, decision) := entry.detector.advance now
      c.mirrorDecision key { entry with detector } decision now

def advance (c : Core) (now : Tick) : Core :=
  ((c.streams.keys.foldl (advanceStream now) c).refresh now).raiseLastTick now

/-! ### Configuration -/

def adoptPolicies (c : Core) (policies : PolicySet) : Core :=
  { c with
    policies
    context :=
      { c.context with policyGeneration := policies.generation, policyDigest := policies.digest } }

def rearmStream (c : Core) (key : StreamKey) : Core :=
  match c.streams.find? key with
  | none => c
  | some entry =>
    let policy := c.policies.resolve entry.detector.key.resource
    let (detector, fenced) := entry.detector.rearm policy c.policies.generation c.lastTick
    let c := c.setEntry key { entry with detector }
    if fenced.isSome then
      let event := { c.shell.boundEpisode detector with lifecycle := .fenced }
      { c with openEvents := c.openEvents.erase event.id }.endEpisode event true c.lastTick
    else c

def rearm (c : Core) (keys : List StreamKey) : Core := keys.foldl rearmStream c

def installPolicy (c : Core) (policy : Policy) : Core :=
  match c.policies.setFallback policy with
  | .error _ => c
  | .ok policies =>
    let c := (c.adoptPolicies policies).rearm c.streams.keys
    c.refresh c.lastTick

def setResourcePolicy (c : Core) (resource : ResourceId) (policy : Policy) : Core :=
  match c.policies.setOverride resource policy with
  | .error _ => c
  | .ok policies =>
    let c := (c.adoptPolicies policies).rearm ((c.adoptPolicies policies).shell.streamsOf resource)
    c.refresh c.lastTick

def removeResourcePolicy (c : Core) (resource : ResourceId) : Core :=
  match c.policies.removeOverride resource with
  | .error _ => c
  | .ok policies => (c.adoptPolicies policies).refresh c.lastTick

def bindAuthority (c : Core) (epoch : Epoch) (incarnation : IncarnationId) (boot : BootId) : Core :=
  if !epoch.valid ∨ epoch.raw = 0 then c
  else { c with context := { c.context with epoch, incarnation, boot } }.refresh c.lastTick

def setResourceGeneration (c : Core) (resource : ResourceId) (generation : ResourceGeneration) :
    Core :=
  if !resource.valid then c
  else
    { c with
      resourceGenerations := c.resourceGenerations.assign (.back _) resource generation }.refresh
        c.lastTick

def setInterventionsEnabled (c : Core) (enabled : Bool) : Core :=
  let wasEnabled := c.config.enableInterventions
  let c := { c with config := { c.config with enableInterventions := enabled } }
  if !enabled && wasEnabled then c.sweep (revokeFate .interventionsDisabled) c.lastTick else c

/-- What a public operation does to the core; recovery is not one of its functions. -/
def step (c : Core) : Governor.Op → Core
  | .ingest sample => c.ingest sample
  | .advance now => c.advance now
  | .installPolicy policy => c.installPolicy policy
  | .setResourcePolicy resource policy => c.setResourcePolicy resource policy
  | .removeResourcePolicy resource => c.removeResourcePolicy resource
  | .bindAuthority epoch incarnation boot => c.bindAuthority epoch incarnation boot
  | .setResourceGeneration resource generation => c.setResourceGeneration resource generation
  | .setInterventionsEnabled enabled => c.setInterventionsEnabled enabled
  | .bindStore _ | .checkpoint | .restore | .drainEmissions => c

end Core

/-! ### Identities in the table -/

namespace Core

theorem keyed_sweep {c : Core} (h : c.Keyed) (fate : InterventionIntent → Fate) (now : Tick) :
    (c.sweep fate now).Keyed := fun e he => h e (UnorderedMap.mem_filter.mp he).1

theorem keyed_refresh {c : Core} (h : c.Keyed) (now : Tick) (onlyEvent : EventId) :
    (c.refresh now onlyEvent).Keyed := keyed_sweep h _ now

theorem keyed_renew {c : Core} (h : c.Keyed) (decision : DetectionDecision) (now : Tick)
    (limit : InterventionKindLimit) (intent : InterventionIntent) :
    (c.renew decision now limit intent).Keyed := by
  intro e he
  obtain ⟨v, hv, heq⟩ := UnorderedMap.mem_mapValues.mp he
  rw [← heq]
  split
  · rename_i hid
    exact hid.symm
  · exact h _ hv

theorem keyed_issue {c : Core} (h : c.Keyed) (decision : DetectionDecision) (now : Tick)
    (kind : InterventionKind) (limit : InterventionKindLimit) :
    (c.issue decision now kind limit).Keyed := by
  intro e he
  dsimp only [issue] at he
  by_cases hmem : (c.shell.newIntent decision now kind limit).id ∈ c.interventions.keys
  · rw [UnorderedMap.emplace, dif_pos (UnorderedMap.contains_iff.mpr hmem)] at he
    exact h e he
  · rcases (UnorderedMap.mem_emplace _ hmem).mp he with rfl | he
    · rfl
    · exact h e he

/-- What a loop over the kinds keeps, from kind to kind: what renewing and issuing keep, each under
    its guard. -/
theorem foldl_requestKind_induct {P : List InterventionKind → Requesting → Prop}
    {decision : DetectionDecision} {now : Tick} {policy : InterventionPolicy}
    (hskip : ∀ r kind kinds, P (kind :: kinds) r → P kinds r)
    (hrenew : ∀ r kind kinds intent, P (kind :: kinds) r →
      Governor.kindSuppressed policy (policy.kinds kind) decision = false →
      r.core.shell.liveIntentFor decision.event kind = some intent →
      P kinds { r with core := r.core.renew decision now (policy.kinds kind) intent })
    (hissue : ∀ r kind kinds, P (kind :: kinds) r →
      Governor.kindSuppressed policy (policy.kinds kind) decision = false →
      r.core.shell.liveIntentFor decision.event kind = none →
      r.liveForStream < policy.maxConcurrentPerStream.toNat →
      r.liveTotal < policy.maxConcurrentTotal.toNat →
      r.core.interventions.size < Limits.maxInterventions →
      P kinds ⟨r.core.issue decision now kind (policy.kinds kind), r.liveForStream + 1,
        r.liveTotal + 1⟩) :
    ∀ (kinds : List InterventionKind) (r : Requesting), P kinds r →
      P [] (kinds.foldl (requestKind decision now policy) r)
  | [], _, h => h
  | kind :: kinds, r, h => by
    refine foldl_requestKind_induct hskip hrenew hissue kinds _ ?_
    rw [requestKind]
    split
    · exact hskip r kind kinds h
    · rename_i hsuppressed
      simp only [Bool.not_eq_true] at hsuppressed
      split
      · rename_i intent hlive
        exact hrenew r kind kinds intent h hsuppressed hlive
      · rename_i hlive
        split
        · exact hskip r kind kinds h
        · rename_i hroom
          simp only [not_or, Nat.not_le, ge_iff_le] at hroom
          exact hissue r kind kinds h hsuppressed hlive hroom.1 hroom.2.1 hroom.2.2

theorem maybeRequest_induct {P : Core → Prop} {decision : DetectionDecision} {now : Tick}
    (hrenew : ∀ (c : Core) kind limit intent, P c →
      c.shell.liveIntentFor decision.event kind = some intent → P (c.renew decision now limit intent))
    (hissue : ∀ (c : Core) kind limit, P c → P (c.issue decision now kind limit)) {c : Core}
    (h : P c) : P (c.maybeRequest decision now) := by
  rw [maybeRequest]
  split
  · exact foldl_requestKind_induct (P := fun _ r => P r.core) (fun _ _ _ h => h)
      (fun r kind _ intent h _ hlive => hrenew r.core kind _ intent h hlive)
      (fun r kind _ h _ _ _ _ _ => hissue r.core kind _ h) _ _ h
  · exact h

theorem keyed_mirrorEpisode {c : Core} (h : c.Keyed) (event : BurstEvent)
    (decision : DetectionDecision) (now : Tick) : (c.mirrorEpisode event decision now).Keyed := by
  unfold mirrorEpisode
  extract_lets c₁
  have h₁ : c₁.Keyed := by
    dsimp only [c₁]
    split
    · exact h
    · split <;> exact h
  split
  · exact keyed_refresh (c := { c₁ with openEvents := c₁.openEvents.erase event.id }) h₁ now event.id
  · exact h₁

theorem keyed_processDecision {c : Core} (h : c.Keyed) (d : Detector)
    (decision : DetectionDecision) (now : Tick) : (c.processDecision d decision now).Keyed := by
  unfold processDecision
  extract_lets c₁ c₂
  have h₂ : c₂.Keyed := keyed_mirrorEpisode (c := c₁) h _ decision now
  split
  · exact maybeRequest_induct (P := Keyed)
      (fun _ _ limit intent h _ => keyed_renew h decision now limit intent)
      (fun _ kind limit h => keyed_issue h decision now kind limit) h₂
  · exact h₂

theorem keyed_mirrorDecision {c : Core} (h : c.Keyed) (key : StreamKey) (entry : StreamEntry)
    (decision : DetectionDecision) (now : Tick) :
    (c.mirrorDecision key entry decision now).Keyed := by
  rw [mirrorDecision]
  split
  · exact keyed_processDecision (c := c.setEntry key _) h _ decision now
  · exact h

theorem keyed_findOrCreate {c : Core} (h : c.Keyed) {key : StreamKey} {found : StreamEntry × Core}
    (hfound : c.findOrCreate key = some found) : found.2.Keyed := by
  rw [findOrCreate] at hfound
  split at hfound
  · obtain rfl := Option.some.inj hfound
    exact h
  · split at hfound
    · cases hfound
    · obtain rfl := Option.some.inj hfound
      exact h

theorem keyed_ingest {c : Core} (h : c.Keyed) (sample : Sample) : (c.ingest sample).Keyed := by
  rw [ingest]
  split
  · exact h
  · split
    · exact h
    · rename_i entry c₁ hfound
      have h₁ : (c₁.observeGeneration sample).Keyed := by
        rw [observeGeneration]
        split <;> exact keyed_findOrCreate h hfound
      dsimp only
      split
      · exact h₁
      · apply keyed_refresh
        rename_i detector decision _
        have h₂ := keyed_mirrorDecision h₁ sample.stream { entry with detector } decision
          decision.tick
        split
        · rw [raiseLastTick]
          split <;> exact h₂
        · exact h₂

theorem keyed_advanceStream {c : Core} (h : c.Keyed) (now : Tick) (key : StreamKey) :
    (advanceStream now c key).Keyed := by
  rw [advanceStream]
  split
  · exact h
  · split
    · exact h
    · exact keyed_mirrorDecision h key _ _ now

theorem keyed_advance {c : Core} (h : c.Keyed) (now : Tick) : (c.advance now).Keyed := by
  have hfold : ∀ (keys : List StreamKey) (c : Core), c.Keyed →
      (keys.foldl (advanceStream now) c).Keyed := by
    intro keys
    induction keys with
    | nil => exact fun _ h => h
    | cons key keys ih => exact fun c h => ih _ (keyed_advanceStream h now key)
  rw [advance, raiseLastTick]
  have h' := keyed_refresh (hfold c.streams.keys c h) now default
  split <;> exact h'

theorem keyed_rearm (keys : List StreamKey) {c : Core} (h : c.Keyed) : (c.rearm keys).Keyed := by
  rw [rearm]
  induction keys generalizing c with
  | nil => exact h
  | cons key keys ih =>
    refine ih ?_
    rw [rearmStream]
    split
    · exact h
    · dsimp only
      split <;> exact h

theorem keyed_step {c : Core} (h : c.Keyed) (op : Governor.Op) : (c.step op).Keyed := by
  cases op with
  | ingest sample => exact keyed_ingest h sample
  | advance now => exact keyed_advance h now
  | installPolicy policy =>
    rw [step, installPolicy]
    split
    · exact h
    · exact keyed_refresh (keyed_rearm _ (c := c.adoptPolicies _) h) _ _
  | setResourcePolicy resource policy =>
    rw [step, setResourcePolicy]
    split
    · exact h
    · exact keyed_refresh (keyed_rearm _ (c := c.adoptPolicies _) h) _ _
  | removeResourcePolicy resource =>
    rw [step, removeResourcePolicy]
    split
    · exact h
    · exact keyed_refresh (c := c.adoptPolicies _) h _ _
  | bindAuthority epoch incarnation boot =>
    rw [step, bindAuthority]
    split
    · exact h
    · apply keyed_refresh
      exact h
  | setResourceGeneration resource generation =>
    rw [step, setResourceGeneration]
    split
    · exact h
    · apply keyed_refresh
      exact h
  | setInterventionsEnabled enabled =>
    rw [step, setInterventionsEnabled]
    dsimp only
    split
    · apply keyed_sweep
      exact h
    · exact h
  | bindStore store => exact h
  | checkpoint => exact h
  | restore => exact h
  | drainEmissions => exact h

end Core

namespace Governor

/-! ### The governor's operations on the core -/

variable {g : Governor}

theorem core_renewIntervention (decision : DetectionDecision) (now : Tick)
    (limit : InterventionKindLimit) (intent : InterventionIntent) :
    (g.renewIntervention decision now limit intent).core =
      g.core.renew decision now limit intent := by
  rw [renewIntervention]
  dsimp only
  rw [core_journalRecord, core_pushEmissionLocked]
  rfl

theorem core_issueIntervention (decision : DetectionDecision) (now : Tick) (kind : InterventionKind)
    (limit : InterventionKindLimit) :
    (g.issueIntervention decision now kind limit).core =
      g.core.issue decision now kind limit := by
  rw [issueIntervention]
  dsimp only
  rw [core_journalRecord, core_pushEmissionLocked]
  rfl

/-- The core of a loop over the kinds. -/
def Requesting.core (r : Requesting) : Core.Requesting :=
  ⟨r.governor.core, r.liveForStream, r.liveTotal⟩

theorem core_requestKind (decision : DetectionDecision) (now : Tick) (policy : InterventionPolicy)
    (r : Requesting) (kind : InterventionKind) :
    (requestKind decision now policy r kind).core =
      Core.requestKind decision now policy r.core kind := by
  have hlive : r.core.core.shell.liveIntentFor decision.event kind =
      r.governor.liveIntentFor decision.event kind := rfl
  rw [requestKind, Core.requestKind, hlive]
  split
  · rfl
  · cases r.governor.liveIntentFor decision.event kind with
    | some intent => simp only [Requesting.core, core_renewIntervention]
    | none =>
      by_cases hfull : r.liveForStream ≥ policy.maxConcurrentPerStream.toNat ∨
          r.liveTotal ≥ policy.maxConcurrentTotal.toNat ∨
          r.governor.interventions.size ≥ Limits.maxInterventions
      · simp only [Requesting.core, hfull, if_true, core_suppressIntervention]
        exact (if_pos hfull).symm
      · simp only [Requesting.core, hfull, if_false, core_issueIntervention]
        exact (if_neg hfull).symm

theorem core_maybeRequestInterventionsLocked (decision : DetectionDecision) (now : Tick) :
    (g.maybeRequestInterventionsLocked decision now).core = g.core.maybeRequest decision now := by
  have hfold : ∀ (policy : InterventionPolicy) (kinds : List InterventionKind) (r : Requesting),
      (kinds.foldl (requestKind decision now policy) r).core =
        kinds.foldl (Core.requestKind decision now policy) r.core := by
    intro policy kinds
    induction kinds with
    | nil => exact fun _ => rfl
    | cons kind kinds ih =>
      intro r
      rw [List.foldl_cons, List.foldl_cons, ih, core_requestKind]
  rw [maybeRequestInterventionsLocked, Core.maybeRequest]
  have hconfig : g.core.config = g.config := rfl
  rw [hconfig]
  cases g.config.enableInterventions with
  | false => rfl
  | true => exact congrArg Core.Requesting.core (hfold _ _ _)

theorem core_openEpisodeLocked (event : BurstEvent) (now : Tick) :
    (g.openEpisodeLocked event now).core = g.core.openEpisode event now := by
  rw [openEpisodeLocked]
  dsimp only
  rw [core_journalRecord, core_pushEmissionLocked]
  rfl

/-- The end of an episode, counted and announced. -/
theorem core_announceEnd (event : BurstEvent) (fenced : Bool) (now : Tick) :
    ((if fenced then
        { g with stats := { g.stats with episodesFenced := g.stats.episodesFenced + 1 } }
      else
        { g with stats := { g.stats with episodesClosed := g.stats.episodesClosed + 1 } }
      ).pushEmissionLocked
        { kind := if fenced then .episodeFenced else .episodeClosed, event, tick := now }).core =
      g.core.endEpisode event fenced now := by
  rw [core_pushEmissionLocked]
  cases fenced <;> rfl

theorem core_closeEpisodeLocked (hkeyed : g.core.Keyed) (event : BurstEvent) (fenced : Bool)
    (now : Tick) :
    (g.closeEpisodeLocked event fenced now).core = g.core.closeEpisode event fenced now := by
  have hrefresh := core_refreshAuthorityLocked
    (g := { g with openEvents := g.openEvents.erase event.id }) hkeyed now event.id
  rw [closeEpisodeLocked]
  dsimp only
  rw [core_journalRecord, core_announceEnd, core_recordEventLocked, hrefresh]
  rfl

theorem core_processDecisionLocked (hkeyed : g.core.Keyed) (d : Detector)
    (decision : DetectionDecision) (now : Tick) :
    (g.processDecisionLocked d decision now).core = g.core.processDecision d decision now := by
  unfold processDecisionLocked
  extract_lets stats g₀ event g₁ g₂
  have h₀ : g₀.core = { g.core with decisionSeq := ⟨g.core.decisionSeq.raw + 1⟩ } := rfl
  have hevent : event = g₀.core.shell.decisionEvent d decision := rfl
  have h₁ : g₁.core = if decision.opened then g₀.core.openEpisode event now
      else if decision.updated && !decision.closed then
        { g₀.core with
          openEvents := g₀.core.openEvents.assign g₀.core.hashing.openEvents event.id event }
      else g₀.core := by
    dsimp only [g₁]
    cases decision.opened with
    | true => exact core_openEpisodeLocked event now
    | false => cases decision.updated && !decision.closed <;> rfl
  have hkeyed₁ : g₁.core.Keyed := by
    rw [h₁]
    split
    · exact hkeyed
    · split <;> exact hkeyed
  have h₂ : g₂.core = g₀.core.mirrorEpisode event decision now := by
    rw [Core.mirrorEpisode, ← h₁]
    dsimp only [g₂]
    cases decision.closed with
    | true => exact core_closeEpisodeLocked hkeyed₁ event decision.fenced now
    | false => rfl
  rw [Core.processDecision, ← h₀, ← hevent, ← h₂]
  cases decision.classification.isPositive && !decision.suppressedByCooldown with
  | true => exact core_maybeRequestInterventionsLocked decision now
  | false => rfl

theorem core_mirrorDecision (hkeyed : g.core.Keyed) (key : StreamKey) (entry : StreamEntry)
    (decision : DetectionDecision) (now : Tick) :
    (g.mirrorDecision key entry decision now).1.core =
        g.core.mirrorDecision key entry decision now ∧
      (g.mirrorDecision key entry decision now).2 =
        StreamEntry.unprocessed entry decision.tick := by
  rw [mirrorDecision, Core.mirrorDecision]
  cases StreamEntry.unprocessed entry decision.tick with
  | true => exact ⟨core_processDecisionLocked (g := g.setEntry key _) hkeyed _ decision now, rfl⟩
  | false => exact ⟨rfl, rfl⟩

theorem core_findOrCreate (key : StreamKey) :
    g.core.findOrCreate key = (g.findOrCreate key).toOption.map fun found =>
      (found.1, found.2.core) := by
  have hstreams : g.core.streams = g.streams := rfl
  rw [Core.findOrCreate, findOrCreate, hstreams]
  cases g.streams.find? key with
  | some entry => rfl
  | none =>
    dsimp only
    split <;> rfl

theorem core_observeGeneration (sample : Sample) :
    (g.observeGeneration sample).core = g.core.observeGeneration sample := by
  rw [observeGeneration, Core.observeGeneration]
  split <;> rfl

theorem core_raiseLastTick (tick : Tick) :
    (g.raiseLastTick tick).core = g.core.raiseLastTick tick := by
  have hlast : g.core.lastTick = g.lastTick := rfl
  rw [raiseLastTick, Core.raiseLastTick, hlast]
  split <;> rfl

theorem core_countAccept (accept : WindowAccept) : (g.countAccept accept).core = g.core := by
  cases accept <;> rfl

theorem core_ingest (hkeyed : g.core.Keyed) (sample : Sample) :
    (g.ingest sample).2.core = g.core.ingest sample := by
  rw [ingest, Core.ingest]
  cases validateSample sample with
  | error failure => rfl
  | ok _ =>
    dsimp only
    have hfound := core_findOrCreate (g := g) sample.stream
    have hkept : ∀ found, g.core.findOrCreate sample.stream = some found → found.2.Keyed :=
      fun _ => Core.keyed_findOrCreate hkeyed
    rw [hfound] at hkept ⊢
    clear hfound
    generalize g.findOrCreate sample.stream = found at *
    cases found with
    | error failure => rfl
    | ok found =>
      obtain ⟨entry, g₁⟩ := found
      have hobserved := core_observeGeneration (g := g₁) sample
      have hkeyed₁ : (g₁.observeGeneration sample).core.Keyed := by
        rw [hobserved, Core.observeGeneration]
        split <;> exact hkept _ rfl
      dsimp only [Except.toOption, Option.map_some]
      rw [← hobserved]
      generalize g₁.observeGeneration sample = g₂ at *
      cases entry.detector.ingest sample with
      | error failure => rfl
      | ok result =>
        obtain ⟨detector, decision⟩ := result
        dsimp only
        have hcount := g₂.core_countAccept detector.lastAccept
        generalize g₂.countAccept detector.lastAccept = g₃ at *
        rw [← hcount] at hkeyed₁ ⊢
        obtain ⟨hmirror, hevaluated⟩ := core_mirrorDecision hkeyed₁ sample.stream
          { entry with detector } decision decision.tick
        have hkeyed₄ := Core.keyed_mirrorDecision hkeyed₁ sample.stream { entry with detector }
          decision decision.tick
        rw [← hmirror] at hkeyed₄ ⊢
        rw [← hevaluated]
        generalize g₃.mirrorDecision sample.stream { entry with detector } decision decision.tick =
          mirrored at *
        obtain ⟨g₄, evaluated⟩ := mirrored
        cases evaluated with
        | false => exact core_refreshAuthorityLocked hkeyed₄ decision.tick default
        | true =>
          simp only [if_true]
          rw [← core_raiseLastTick]
          apply core_refreshAuthorityLocked
          rw [core_raiseLastTick, Core.raiseLastTick]
          split <;> exact hkeyed₄

theorem core_advance (hkeyed : g.core.Keyed) (now : Tick) :
    (g.advance now).2.core = g.core.advance now := by
  have hturn : ∀ (acc : Governor × AdvanceResult) (key : StreamKey), acc.1.core.Keyed →
      (advanceStream now acc key).1.core = Core.advanceStream now acc.1.core key := by
    rintro ⟨g, result⟩ key hkeyed
    rw [advanceStream, Core.advanceStream]
    have hstreams : g.core.streams = g.streams := rfl
    rw [hstreams]
    cases g.streams.find? key with
    | none => rfl
    | some entry =>
      dsimp only
      cases entry.detector.freshAt now with
      | false => rfl
      | true =>
        exact (core_mirrorDecision hkeyed key { entry with detector := (entry.detector.advance now).1 }
          (entry.detector.advance now).2 now).1
  have hfold : ∀ (keys : List StreamKey) (acc : Governor × AdvanceResult), acc.1.core.Keyed →
      (keys.foldl (advanceStream now) acc).1.core =
          keys.foldl (Core.advanceStream now) acc.1.core ∧
        (keys.foldl (advanceStream now) acc).1.core.Keyed := by
    intro keys
    induction keys with
    | nil => exact fun _ h => ⟨rfl, h⟩
    | cons key keys ih =>
      intro acc h
      have hstep := hturn acc key h
      have hkeyed' := Core.keyed_advanceStream h now key
      rw [← hstep] at hkeyed'
      rw [List.foldl_cons, List.foldl_cons, ← hstep]
      exact ih _ hkeyed'
  obtain ⟨hcore, hkeyed'⟩ := hfold g.streams.keys (g, {}) hkeyed
  rw [advance, Core.advance]
  have hkeys : g.core.streams.keys = g.streams.keys := rfl
  rw [hkeys, ← hcore]
  generalize g.streams.keys.foldl (advanceStream now) (g, {}) = advanced at *
  dsimp only
  rw [core_raiseLastTick, core_refreshAuthorityLocked hkeyed']

theorem core_rearmStream (key : StreamKey) : (g.rearmStream key).core = g.core.rearmStream key := by
  have hstreams : g.core.streams = g.streams := rfl
  rw [rearmStream, Core.rearmStream, hstreams]
  cases g.streams.find? key with
  | none => rfl
  | some entry =>
    dsimp only
    have hdetector : entry.detector.rearm (g.core.policies.resolve entry.detector.key.resource)
        g.core.policies.generation g.core.lastTick =
      entry.detector.rearm (g.policies.resolve entry.detector.key.resource)
        g.policies.generation g.lastTick := rfl
    rw [hdetector]
    generalize entry.detector.rearm (g.policies.resolve entry.detector.key.resource)
        g.policies.generation g.lastTick = rearmed
    obtain ⟨detector, _ | fenced⟩ := rearmed
    · rfl
    · simp only [Option.isSome_some, if_true]
      have hlast : ∀ (g : Governor) (event : BurstEvent),
          (g.recordEventLocked event).lastTick = g.lastTick := fun g event =>
        congrArg Core.lastTick (g.core_recordEventLocked event)
      refine (core_announceEnd _ true _).trans ?_
      rw [core_recordEventLocked, hlast]
      rfl

theorem core_foldl_rearmStream (keys : List StreamKey) :
    (keys.foldl rearmStream g).core = g.core.rearm keys := by
  rw [Core.rearm]
  induction keys generalizing g with
  | nil => rfl
  | cons key keys ih => rw [List.foldl_cons, List.foldl_cons, ih, core_rearmStream]

theorem core_installPolicy (hkeyed : g.core.Keyed) (policy : Policy) :
    (g.installPolicy policy).2.core = g.core.installPolicy policy := by
  have hpolicies : g.core.policies = g.policies := rfl
  rw [installPolicy, Core.installPolicy, hpolicies]
  cases g.policies.setFallback policy with
  | error failure => rfl
  | ok policies =>
    dsimp only
    have hkeys : (g.adoptPolicies policies).countPolicyChange.streams.keys =
        g.core.streams.keys := rfl
    have hrearm := core_foldl_rearmStream (g := (g.adoptPolicies policies).countPolicyChange)
      g.core.streams.keys
    rw [hkeys]
    generalize g.core.streams.keys.foldl rearmStream (g.adoptPolicies policies).countPolicyChange =
      g₂ at *
    have hkeyed₂ : g₂.core.Keyed := by
      rw [hrearm]
      exact Core.keyed_rearm _ (c := g.core.adoptPolicies policies) hkeyed
    rw [core_journalRecord, core_pushEmissionLocked, Core.emit_of_other rfl (by simp),
      core_refreshAuthorityLocked hkeyed₂]
    exact congrArg (fun c : Core => c.refresh c.lastTick) hrearm

theorem core_setResourcePolicy (hkeyed : g.core.Keyed) (resource : ResourceId) (policy : Policy) :
    (g.setResourcePolicy resource policy).2.core = g.core.setResourcePolicy resource policy := by
  have hpolicies : g.core.policies = g.policies := rfl
  rw [setResourcePolicy, Core.setResourcePolicy, hpolicies]
  cases g.policies.setOverride resource policy with
  | error failure => rfl
  | ok policies =>
    dsimp only
    have hkeys : (g.adoptPolicies policies).countPolicyChange.streamsOf resource =
        (g.core.adoptPolicies policies).shell.streamsOf resource := rfl
    rw [hkeys]
    generalize (g.core.adoptPolicies policies).shell.streamsOf resource = keys
    have hrearm := core_foldl_rearmStream (g := (g.adoptPolicies policies).countPolicyChange) keys
    generalize keys.foldl rearmStream (g.adoptPolicies policies).countPolicyChange = g₂ at *
    have hkeyed₂ : g₂.core.Keyed := by
      rw [hrearm]
      exact Core.keyed_rearm _ (c := g.core.adoptPolicies policies) hkeyed
    rw [core_refreshAuthorityLocked hkeyed₂]
    exact congrArg (fun c : Core => c.refresh c.lastTick) hrearm

theorem core_removeResourcePolicy (hkeyed : g.core.Keyed) (resource : ResourceId) :
    (g.removeResourcePolicy resource).2.core = g.core.removeResourcePolicy resource := by
  have hpolicies : g.core.policies = g.policies := rfl
  rw [removeResourcePolicy, Core.removeResourcePolicy, hpolicies]
  cases g.policies.removeOverride resource with
  | error failure => rfl
  | ok policies =>
    exact core_refreshAuthorityLocked (g := (g.adoptPolicies policies).countPolicyChange) hkeyed
      g.lastTick default

theorem core_bindAuthority (hkeyed : g.core.Keyed) (epoch : Epoch) (incarnation : IncarnationId)
    (boot : BootId) :
    (g.bindAuthority epoch incarnation boot).2.core =
      g.core.bindAuthority epoch incarnation boot := by
  rw [bindAuthority, Core.bindAuthority]
  split
  · rfl
  · dsimp only
    rw [core_journalRecord, core_pushEmissionLocked, Core.emit_of_other rfl (by simp)]
    exact core_refreshAuthorityLocked (g := { g with
      context := { g.context with epoch, incarnation, boot }
      stats := { g.stats with authorityChanges := g.stats.authorityChanges + 1 } }) hkeyed _ _

theorem core_setResourceGeneration (hkeyed : g.core.Keyed) (resource : ResourceId)
    (generation : ResourceGeneration) :
    (g.setResourceGeneration resource generation).2.core =
      g.core.setResourceGeneration resource generation := by
  rw [setResourceGeneration, Core.setResourceGeneration]
  split
  · rfl
  · exact core_refreshAuthorityLocked (g := { g with
      resourceGenerations := g.resourceGenerations.assign (.back _) resource generation }) hkeyed _ _

theorem core_setInterventionsEnabled (hkeyed : g.core.Keyed) (enabled : Bool) :
    (g.setInterventionsEnabled enabled).core = g.core.setInterventionsEnabled enabled := by
  have hconfig : g.core.config = g.config := rfl
  rw [setInterventionsEnabled, Core.setInterventionsEnabled, hconfig]
  dsimp only
  split
  · exact core_revokeAllLiveLocked (g := { g with
      config := { g.config with enableInterventions := enabled } }) hkeyed _ _
  · rfl

theorem core_bindStore (store : Option DurableStore) : (g.bindStore store).core = g.core := by
  cases store <;> rfl

/-- REFINEMENT: but for recovery, every public operation is its step on the core. -/
theorem core_step (hkeyed : g.core.Keyed) {op : Op} (hop : op ≠ .restore) :
    (g.step op).core = g.core.step op := by
  cases op with
  | ingest sample => exact core_ingest hkeyed sample
  | advance now => exact core_advance hkeyed now
  | installPolicy policy => exact core_installPolicy hkeyed policy
  | setResourcePolicy resource policy => exact core_setResourcePolicy hkeyed resource policy
  | removeResourcePolicy resource => exact core_removeResourcePolicy hkeyed resource
  | bindAuthority epoch incarnation boot => exact core_bindAuthority hkeyed epoch incarnation boot
  | setResourceGeneration resource generation =>
    exact core_setResourceGeneration hkeyed resource generation
  | setInterventionsEnabled enabled => exact core_setInterventionsEnabled hkeyed enabled
  | bindStore store => exact core_bindStore store
  | checkpoint => exact g.core_compactLocked
  | restore => exact absurd rfl hop
  | drainEmissions => rfl

end Governor

/-! ### Recovery -/

/-- What recovery does to the core: it adopts the durable policy set if there is one, adds retired
    intents and sets the counters; streams, open episodes and live intents stay as they are. -/
def Core.Restored (c : Core) (adopted : Option PolicySet) (c' : Core) : Prop :=
  ∃ (retired : List InterventionIntent) (decisionSeq : DecisionSeq) (lastTick : Tick)
    (counts : EpisodeCounts), c' = { adopted.elim c c.adoptPolicies with
      retired := c.retired ++ retired, decisionSeq, lastTick, counts }

namespace Governor

theorem core_foldl_recordEventLocked {α : Type} (event : Governor → α → BurstEvent) :
    ∀ (as : List α) (g : Governor),
      (as.foldl (fun g a => g.recordEventLocked (event g a)) g).core = g.core
  | [], _ => rfl
  | a :: as, g => by
    rw [List.foldl_cons, core_foldl_recordEventLocked event as, core_recordEventLocked]

theorem core_restoreEvents (g : Governor) (acc : RecoveryAccumulator) :
    (g.restoreEvents acc).core = g.core := by
  rw [restoreEvents]
  rw [core_foldl_recordEventLocked fun g event => g.fenceUnfinished event,
    core_foldl_recordEventLocked fun g event => g.rebind event]

theorem core_restoreInterventions (g : Governor) (acc : RecoveryAccumulator) :
    ∃ retired, (g.restoreInterventions acc).core =
      { g.core with retired := g.core.retired ++ retired } := by
  rw [restoreInterventions]
  generalize acc.interventions.filter InterventionIntent.live = intents
  induction intents generalizing g with
  | nil => exact ⟨[], by simp⟩
  | cons intent intents ih =>
    rw [List.foldl_cons]
    obtain ⟨retired, h⟩ := ih (g.pushInterventionHistory
      { intent with
        state := .fenced
        revocationVerdict := AuthorityVerdict.bootChanged
        stateChangedTick := g.lastTick })
    rw [core_pushInterventionHistory] at h
    exact ⟨_, h.trans (by rw [List.append_assoc])⟩

/-- The policy set that accumulated durable state amounts to. -/
def accumulatedPolicies (acc : RecoveryAccumulator) : Option PolicySet :=
  acc.fallback.bind fun fallback =>
    (PolicySet.restore fallback acc.overrides acc.generation).toOption

/-- The policy set a recovery finds in the bound store's files. -/
def durablePolicies (g : Governor) : Option PolicySet :=
  g.store.bind fun store =>
    (store.replay collectRecord []).1.toOption.bind fun replayed =>
      accumulatedPolicies (g.recover replayed).1

theorem accumulatedPolicies_restored {acc : RecoveryAccumulator} {policies : PolicySet}
    (h : accumulatedPolicies acc = some policies) : ∃ fallback overrides generation,
      PolicySet.restore fallback overrides generation = .ok policies := by
  obtain ⟨fallback, -, h⟩ := Option.bind_eq_some_iff.mp h
  cases hrestore : PolicySet.restore fallback acc.overrides acc.generation with
  | error failure => rw [hrestore] at h; cases h
  | ok policies' =>
    rw [hrestore] at h
    cases h
    exact ⟨_, _, _, hrestore⟩

theorem durablePolicies_restored {g : Governor} {policies : PolicySet}
    (h : g.durablePolicies = some policies) : ∃ fallback overrides generation,
      PolicySet.restore fallback overrides generation = .ok policies := by
  obtain ⟨store, -, h⟩ := Option.bind_eq_some_iff.mp h
  obtain ⟨replayed, -, h⟩ := Option.bind_eq_some_iff.mp h
  exact accumulatedPolicies_restored h

theorem core_restorePolicies (g : Governor) (acc : RecoveryAccumulator) (report : RestoreReport) :
    (g.restorePolicies acc report).1.core =
      (accumulatedPolicies acc).elim g.core g.core.adoptPolicies := by
  rw [restorePolicies, accumulatedPolicies]
  cases acc.fallback with
  | none => rfl
  | some fallback =>
    dsimp only [Option.bind_some]
    cases PolicySet.restore fallback acc.overrides acc.generation <;> rfl

theorem core_announceAuthority (g : Governor) : g.announceAuthority.core = g.core := by
  rw [announceAuthority]
  split
  · rw [core_appendRecordLocked, core_pushEmissionLocked, Core.emit_of_other rfl (by simp)]
  · rw [core_pushEmissionLocked, Core.emit_of_other rfl (by simp)]

theorem restored_applyRecovery (g : Governor) (acc : RecoveryAccumulator)
    (report : RestoreReport) :
    g.core.Restored (accumulatedPolicies acc) (g.applyRecovery acc report).1.core := by
  have hpolicies := g.core_restorePolicies acc report
  rw [applyRecovery]
  generalize (g.restorePolicies acc report) = restored at *
  obtain ⟨g₀, report'⟩ := restored
  dsimp only at hpolicies ⊢
  have hevents := g₀.core_restoreEvents acc
  generalize g₀.restoreEvents acc = g₁ at *
  obtain ⟨retired, hintents⟩ := g₁.core_restoreInterventions acc
  generalize g₁.restoreInterventions acc = g₂ at *
  have hcounters : (g₂.restoreCounters acc.counters).core = { g₂.core with
      decisionSeq := (g₂.restoreCounters acc.counters).decisionSeq
      lastTick := (g₂.restoreCounters acc.counters).lastTick
      counts := ⟨acc.counters.episodesOpened, acc.counters.episodesClosed,
        acc.counters.episodesFenced⟩ } := rfl
  have hretired : ((accumulatedPolicies acc).elim g.core g.core.adoptPolicies).retired =
      g.core.retired := by
    cases accumulatedPolicies acc <;> rfl
  refine ⟨retired, (g₂.restoreCounters acc.counters).decisionSeq,
    (g₂.restoreCounters acc.counters).lastTick,
    ⟨acc.counters.episodesOpened, acc.counters.episodesClosed, acc.counters.episodesFenced⟩,
    hcounters.trans ?_⟩
  rw [hintents, hevents, hpolicies, hretired]

/-- REFINEMENT of recovery. -/
theorem restored_restore (g : Governor) :
    g.core.Restored g.durablePolicies (g.step .restore).core := by
  have hrefl : g.core.Restored none g.core :=
    ⟨[], g.decisionSeq, g.lastTick, g.core.counts, by simp; rfl⟩
  change g.core.Restored g.durablePolicies g.restore.2.2.core
  rw [restore, durablePolicies]
  cases hstore : g.store with
  | none => exact hrefl
  | some store =>
    dsimp only [Option.bind_some]
    generalize store.replay collectRecord [] = result
    obtain ⟨failure | replayed, store'⟩ := result
    · exact hrefl
    · dsimp only [Except.toOption, Option.bind_some]
      rw [core_announceAuthority]
      exact (g.withStore store').restored_applyRecovery _ _

theorem Core.Restored.keyed {c c' : Core} {adopted : Option PolicySet}
    (h : c.Restored adopted c') (hk : c.Keyed) : c'.Keyed := by
  obtain ⟨_, _, _, _, rfl⟩ := h
  cases adopted <;> exact hk

/-! ### Runs -/

/-- What every guarded step keeps on the core holds at the end of every guarded run. -/
theorem run_core {ok : Governor → Op → Prop} {I : Core → Prop}
    (hstep : ∀ g op, op ≠ .restore → ok g op → g.core.Keyed → I g.core → I (g.core.step op))
    (hrestore : ∀ g c', ok g .restore → g.core.Restored g.durablePolicies c' → g.core.Keyed →
      I g.core → I c')
    {g : Governor} (hkeyed : g.core.Keyed) (hI : I g.core) {ops : List Op}
    (hok : Runs.Meets step ok g ops) :
    (Runs.run step g ops).core.Keyed ∧ I (Runs.run step g ops).core := by
  refine Runs.run_invariant (I := fun g => g.core.Keyed ∧ I g.core) ?_ ⟨hkeyed, hI⟩ hok
  rintro g op ⟨hkeyed, hI⟩ hok
  by_cases hop : op = .restore
  · subst hop
    have h := g.restored_restore
    exact ⟨Core.Restored.keyed h hkeyed, hrestore g _ hok h hkeyed hI⟩
  · rw [core_step hkeyed hop]
    exact ⟨Core.keyed_step hkeyed op, hstep g op hop hok hkeyed hI⟩

theorem keyed_new (hashing : Hashing) (config : GovernorConfig) :
    (Governor.new hashing config).core.Keyed := fun e he => by cases he

end Governor

end Mbg
