import MicroburstGovernor.Detect.WellFormed
import MicroburstGovernor.Governor.IntentBounds
import MicroburstGovernor.Persist.Checkpoint

/-! Every checkpoint of a reachable governor is read back as it was written.

    The decoder checks what it reads. A governor only ever holds policies, episodes and intents that
    meet these checks: the invariant of this file, kept by every operation. -/

namespace Mbg

namespace Governor

/-- What a checkpoint persists, and what later checkpoints come from, meets the decoder's checks. -/
structure WellFormed (g : Governor) : Prop where
  policies : g.policies.Restorable
  indexed : g.policies.Indexed
  detectors : ∀ key entry, g.streams.find? key = some entry → entry.detector.WellFormed
  openEvents : g.openEvents.All BurstEvent.WellFormed
  history : ∀ e ∈ g.history, e.WellFormed
  interventions : g.interventions.All InterventionIntent.WellFormed
  retired : ∀ i ∈ g.interventionHistory, i.WellFormed

/-- What of a governor the invariant is about. -/
def durable (g : Governor) : PolicySet × OrderedMap StreamKey StreamEntry ×
    UnorderedMap EventId BurstEvent × List BurstEvent ×
      UnorderedMap InterventionId InterventionIntent × List InterventionIntent :=
  (g.policies, g.streams, g.openEvents, g.history, g.interventions, g.interventionHistory)

theorem WellFormed.congr {g g' : Governor} (h : g.WellFormed) (heq : g'.durable = g.durable) :
    g'.WellFormed := by
  simp only [durable, Prod.mk.injEq] at heq
  obtain ⟨hpolicies, hstreams, hopen, hhistory, hintents, hretired⟩ := heq
  constructor
  · rw [hpolicies]; exact h.policies
  · rw [hpolicies]; exact h.indexed
  · rw [hstreams]; exact h.detectors
  · rw [hopen]; exact h.openEvents
  · rw [hhistory]; exact h.history
  · rw [hintents]; exact h.interventions
  · rw [hretired]; exact h.retired

/-- A governor that retired an intent and did not journal it yet. -/
def retiring (g : Governor) (intent : InterventionIntent) (verdict : AuthorityVerdict) (now : Tick) :
    Governor :=
  let intent := Core.retiredIntent intent verdict now
  let g := { g with interventions := g.interventions.update intent.id intent }
  let g :=
    if verdict = AuthorityVerdict.expired then
      { g with
        stats := { g.stats with interventionsExpired := g.stats.interventionsExpired + 1 } }
    else
      { g with
        stats := { g.stats with interventionsRevoked := g.stats.interventionsRevoked + 1 } }
  (g.pushInterventionHistory intent).pushEmissionLocked
    { kind := .interventionStateChanged, intervention := intent, tick := now }

theorem retireInterventionLocked_eq (g : Governor) (intent : InterventionIntent)
    (verdict : AuthorityVerdict) (now : Tick) : g.retireInterventionLocked intent verdict now =
      (g.retiring intent verdict now).journalRecord .interventionStateChanged
        (encodeIntent (Core.retiredIntent intent verdict now)) now := rfl

/-! ### Bookkeeping -/

section

variable {g : Governor} (h : g.WellFormed)

include h

theorem wellFormed_pushEmissionLocked (e : Emission) : (g.pushEmissionLocked e).WellFormed := by
  refine h.congr ?_
  rw [pushEmissionLocked]
  split <;> rfl

theorem wellFormed_appendRecordLocked (type : RecordType) (payload : Bytes) (tick : Tick) :
    (g.appendRecordLocked type payload tick).WellFormed := by
  refine appendRecordLocked_induct (P := WellFormed) ?_ ?_ ?_ h type payload tick
  · intro g store h
    exact h.congr rfl
  · intro g recordSeq h
    exact h.congr rfl
  · intro g written failures compactions h
    exact h.congr rfl

theorem wellFormed_journalRecord (type : RecordType) (payload : Bytes) (tick : Tick) :
    (g.journalRecord type payload tick).WellFormed := by
  rw [journalRecord]
  split
  · exact wellFormed_appendRecordLocked h type payload tick
  · exact h

theorem wellFormed_recordEventLocked {event : BurstEvent} (he : event.WellFormed) :
    (g.recordEventLocked event).WellFormed := by
  rw [recordEventLocked]
  dsimp only
  split
  · refine ⟨h.policies, h.indexed, h.detectors, h.openEvents, fun e hmem => ?_, h.interventions,
      h.retired⟩
    rcases List.mem_append.mp hmem with hold | hnew
    · exact h.history e hold
    · rw [List.mem_singleton.mp hnew]
      exact he
  · refine ⟨h.policies, h.indexed, h.detectors, h.openEvents, fun e hmem => ?_, h.interventions,
      h.retired⟩
    rcases List.mem_or_eq_of_mem_set hmem with hold | rfl
    · exact h.history e hold
    · exact he

theorem wellFormed_pushInterventionHistory {intent : InterventionIntent} (hi : intent.WellFormed) :
    (g.pushInterventionHistory intent).WellFormed := by
  have happend : ∀ i ∈ g.interventionHistory ++ [intent], i.WellFormed := by
    intro i hmem
    rcases List.mem_append.mp hmem with hold | hnew
    · exact h.retired i hold
    · rw [List.mem_singleton.mp hnew]
      exact hi
  refine ⟨h.policies, h.indexed, h.detectors, h.openEvents, h.history, h.interventions,
    fun i hmem => ?_⟩
  rw [pushInterventionHistory] at hmem
  dsimp only at hmem
  split at hmem
  · exact happend i (List.mem_of_mem_tail hmem)
  · exact happend i hmem

/-! ### Retiring intents -/

theorem wellFormed_retiring {intent : InterventionIntent} (hi : intent.WellFormed)
    (verdict : AuthorityVerdict) (now : Tick) : (g.retiring intent verdict now).WellFormed := by
  have hretired : (Core.retiredIntent intent verdict now).WellFormed :=
    ⟨hi.magnitude, hi.severity, hi.stream⟩
  rw [retiring]
  dsimp only
  generalize Core.retiredIntent intent verdict now = retired at *
  have hupdated : { g with
      interventions := g.interventions.update retired.id retired }.WellFormed :=
    ⟨h.policies, h.indexed, h.detectors, h.openEvents, h.history, h.interventions.update hretired,
      h.retired⟩
  refine wellFormed_pushEmissionLocked (wellFormed_pushInterventionHistory ?_ hretired) _
  refine hupdated.congr ?_
  split <;> rfl

theorem wellFormed_retireInterventionLocked {intent : InterventionIntent} (hi : intent.WellFormed)
    (verdict : AuthorityVerdict) (now : Tick) :
    (g.retireInterventionLocked intent verdict now).WellFormed := by
  rw [retireInterventionLocked_eq]
  exact wellFormed_journalRecord (wellFormed_retiring h hi verdict now) _ _ _

end

theorem wellFormed_finish {s : Sweep} (h : s.governor.WellFormed) : s.finish.WellFormed :=
  ⟨h.policies, h.indexed, h.detectors, h.openEvents, h.history,
    UnorderedMap.All.foldl_erase s.retire h.interventions, h.retired⟩

/-- A turn of a sweep that decides by `fate`. -/
theorem wellFormed_sweepTurn {s : Sweep} (h : s.governor.WellFormed)
    (fate : InterventionIntent → Core.Fate) (now : Tick) (id : InterventionId) :
    (sweepTurn fate now s id).governor.WellFormed := by
  rw [sweepTurn]
  cases hfind : s.governor.interventions.find? id with
  | none => exact h
  | some intent =>
    dsimp only
    cases fate intent with
    | keep => exact h
    | drop => exact h
    | retire verdict => exact wellFormed_retireInterventionLocked h (h.interventions.find? hfind) _ _

theorem wellFormed_refreshIntent {s : Sweep} (h : s.governor.WellFormed) (now : Tick)
    (onlyEvent : EventId) (id : InterventionId) :
    (refreshIntent now onlyEvent s id).governor.WellFormed := by
  rw [refreshIntent_eq (c := s.governor.core) rfl]
  exact wellFormed_sweepTurn h _ now id

theorem wellFormed_refreshAuthorityLocked {g : Governor} (h : g.WellFormed) (now : Tick)
    (onlyEvent : EventId := default) : (g.refreshAuthorityLocked now onlyEvent).1.WellFormed := by
  rw [refreshAuthorityLocked]
  refine wellFormed_finish ?_
  have hfold : ∀ (ids : List InterventionId) (s : Sweep), s.governor.WellFormed →
      (ids.foldl (refreshIntent now onlyEvent) s).governor.WellFormed := by
    intro ids
    induction ids with
    | nil => exact fun s hs => hs
    | cons id ids ih => exact fun s hs => ih _ (wellFormed_refreshIntent hs now onlyEvent id)
  exact hfold _ _ h

theorem wellFormed_revokeAllLiveLocked {g : Governor} (h : g.WellFormed)
    (verdict : AuthorityVerdict) (now : Tick) : (g.revokeAllLiveLocked verdict now).WellFormed := by
  rw [revokeAllLiveLocked, revokeIntent_eq]
  refine wellFormed_finish ?_
  have hfold : ∀ (ids : List InterventionId) (s : Sweep), s.governor.WellFormed →
      (ids.foldl (sweepTurn (Core.revokeFate verdict) now) s).governor.WellFormed := by
    intro ids
    induction ids with
    | nil => exact fun s hs => hs
    | cons id ids ih => exact fun s hs => ih _ (wellFormed_sweepTurn hs _ now id)
  exact hfold _ _ h

/-! ### Requesting intents -/

theorem wellFormed_suppressIntervention {g : Governor} (h : g.WellFormed) :
    g.suppressIntervention.WellFormed := h.congr rfl

/-- A limit whose scaled magnitudes the decoder accepts. -/
def Decodable (limit : InterventionKindLimit) : Prop :=
  ∀ severity, scaleMagnitude limit.magnitudePermille severity ≤ Limits.maxMagnitudePermille

/-- The limits of an enabled kind of a valid policy are decodable. -/
theorem decodable_of_validate {policy : Policy} (h : PolicySet.validate policy = .ok ())
    {kind : InterventionKind} (henabled : (policy.intervention.kinds kind).enabled = true) :
    Decodable (policy.intervention.kinds kind) := by
  intro severity
  obtain ⟨-, hscaled, hmaximum⟩ := Core.scaled_bounds h henabled severity
  exact UInt32.le_trans hscaled hmaximum

theorem wellFormed_refreshedIntent (g : Governor) {decision : DetectionDecision}
    (hseverity : isValidSeverity decision.severity.raw) (now : Tick) {limit : InterventionKindLimit}
    (hlimit : Decodable limit) {intent : InterventionIntent} (hi : intent.WellFormed) :
    (g.refreshedIntent decision now limit intent).WellFormed := by
  refine ⟨?_, severityMax_valid hi.severity hseverity, hi.stream⟩
  simp only [refreshedIntent]
  exact (magnitude_max (UInt32.zero_le) hi.magnitude (hlimit decision.severity)).2

theorem wellFormed_newIntent (g : Governor) {decision : DetectionDecision}
    (hseverity : isValidSeverity decision.severity.raw) (hstream : decision.stream.valid) (now : Tick)
    (kind : InterventionKind) {limit : InterventionKindLimit} (hlimit : Decodable limit) :
    (g.newIntent decision now kind limit).WellFormed := by
  refine ⟨?_, hseverity, hstream⟩
  simp only [newIntent]
  exact (magnitude_min (UInt32.zero_le) (hlimit decision.severity) (UInt32.le_refl _)).2

/-- A governor that renewed an intent and did not journal it yet. -/
def renewing (g : Governor) (decision : DetectionDecision) (now : Tick)
    (limit : InterventionKindLimit) (intent : InterventionIntent) : Governor :=
  let intent := g.refreshedIntent decision now limit intent
  pushEmissionLocked
    { g with
      interventions := g.interventions.update intent.id intent
      stats := { g.stats with interventionsRefreshed := g.stats.interventionsRefreshed + 1 } }
    { kind := .interventionStateChanged, intervention := intent, tick := now }

theorem renewIntervention_eq (g : Governor) (decision : DetectionDecision) (now : Tick)
    (limit : InterventionKindLimit) (intent : InterventionIntent) :
    g.renewIntervention decision now limit intent =
      (g.renewing decision now limit intent).journalRecord .interventionStateChanged
        (encodeIntent (g.refreshedIntent decision now limit intent)) now := rfl

/-- A governor that issued an intent and did not journal it yet. -/
def issuing (g : Governor) (decision : DetectionDecision) (now : Tick) (kind : InterventionKind)
    (limit : InterventionKindLimit) : Governor :=
  let intent := g.newIntent decision now kind limit
  pushEmissionLocked
    { g with
      interventions := g.interventions.emplace g.hashing.interventions intent.id intent
      stats := { g.stats with interventionsRequested := g.stats.interventionsRequested + 1 } }
    { kind := .interventionRequested, intervention := intent, tick := now }

theorem issueIntervention_eq (g : Governor) (decision : DetectionDecision) (now : Tick)
    (kind : InterventionKind) (limit : InterventionKindLimit) :
    g.issueIntervention decision now kind limit =
      (g.issuing decision now kind limit).journalRecord .interventionRequested
        (encodeIntent (g.newIntent decision now kind limit)) now := rfl

section

variable {g : Governor} {decision : DetectionDecision} (h : g.WellFormed)
  (hseverity : isValidSeverity decision.severity.raw)

include h hseverity

theorem wellFormed_renewing (now : Tick) {limit : InterventionKindLimit}
    (hlimit : Decodable limit) {intent : InterventionIntent} (hi : intent.WellFormed) :
    (g.renewing decision now limit intent).WellFormed := by
  have hrenewed := g.wellFormed_refreshedIntent hseverity now hlimit hi
  rw [renewing]
  dsimp only
  generalize g.refreshedIntent decision now limit intent = renewed at *
  refine wellFormed_pushEmissionLocked ?_ _
  exact ⟨h.policies, h.indexed, h.detectors, h.openEvents, h.history,
    h.interventions.update hrenewed, h.retired⟩

theorem wellFormed_renewIntervention (now : Tick) {limit : InterventionKindLimit}
    (hlimit : Decodable limit) {intent : InterventionIntent} (hi : intent.WellFormed) :
    (g.renewIntervention decision now limit intent).WellFormed := by
  rw [renewIntervention_eq]
  exact wellFormed_journalRecord (wellFormed_renewing h hseverity now hlimit hi) _ _ _

theorem wellFormed_issuing (hstream : decision.stream.valid) (now : Tick)
    (kind : InterventionKind) {limit : InterventionKindLimit} (hlimit : Decodable limit) :
    (g.issuing decision now kind limit).WellFormed := by
  have hnew := g.wellFormed_newIntent hseverity hstream now kind hlimit
  rw [issuing]
  dsimp only
  generalize g.newIntent decision now kind limit = intent at *
  refine wellFormed_pushEmissionLocked ?_ _
  exact ⟨h.policies, h.indexed, h.detectors, h.openEvents, h.history,
    h.interventions.emplace hnew _, h.retired⟩

theorem wellFormed_issueIntervention (hstream : decision.stream.valid) (now : Tick)
    (kind : InterventionKind) {limit : InterventionKindLimit} (hlimit : Decodable limit) :
    (g.issueIntervention decision now kind limit).WellFormed := by
  rw [issueIntervention_eq]
  exact wellFormed_journalRecord (wellFormed_issuing h hseverity hstream now kind hlimit) _ _ _

end

/-- One kind: whatever is renewed or issued under an enabled limit is well formed. -/
theorem wellFormed_requestKind {r : Requesting} (h : r.governor.WellFormed)
    {decision : DetectionDecision} (hseverity : isValidSeverity decision.severity.raw)
    (hstream : decision.stream.valid) (now : Tick) {policy : InterventionPolicy}
    (hpolicy : ∀ kind, (policy.kinds kind).enabled = true → Decodable (policy.kinds kind))
    (kind : InterventionKind) : (requestKind decision now policy r kind).governor.WellFormed := by
  rw [requestKind]
  split
  · exact wellFormed_suppressIntervention h
  · rename_i hsuppressed
    have hlimit : Decodable (policy.kinds kind) := by
      refine hpolicy kind ?_
      rw [kindSuppressed] at hsuppressed
      simp only [Bool.or_eq_true, not_or, Bool.not_eq_true, Bool.not_eq_false'] at hsuppressed
      exact hsuppressed.1.1
    split
    · rename_i intent hlive
      have hmem : intent ∈ r.governor.interventions.values := List.mem_of_find?_eq_some hlive
      exact wellFormed_renewIntervention h hseverity now hlimit (h.interventions _ hmem)
    · split
      · exact wellFormed_suppressIntervention h
      · exact wellFormed_issueIntervention h hseverity hstream now kind hlimit

theorem wellFormed_maybeRequest {g : Governor} (h : g.WellFormed) {decision : DetectionDecision}
    (hseverity : isValidSeverity decision.severity.raw) (hstream : decision.stream.valid)
    (now : Tick) : (g.maybeRequestInterventionsLocked decision now).WellFormed := by
  have hpolicy : ∀ kind, ((g.policies.resolve decision.stream.resource).intervention.kinds
      kind).enabled = true → Decodable ((g.policies.resolve
        decision.stream.resource).intervention.kinds kind) := fun kind henabled =>
    decodable_of_validate (h.policies.valid _ (g.policies.resolve_mem_installed _)) henabled
  rw [maybeRequestInterventionsLocked]
  split
  · exact wellFormed_suppressIntervention h
  · have hfold : ∀ (kinds : List InterventionKind) (r : Requesting), r.governor.WellFormed →
        (kinds.foldl (requestKind decision now
          (g.policies.resolve decision.stream.resource).intervention) r).governor.WellFormed := by
      intro kinds
      induction kinds with
      | nil => exact fun r hr => hr
      | cons kind kinds ih =>
        exact fun r hr => ih _ (wellFormed_requestKind hr hseverity hstream now hpolicy kind)
    exact hfold _ _ h

/-! ### Episodes -/

theorem wellFormed_boundEpisode (g : Governor) {d : Detector} (h : d.episode.WellFormed) :
    (g.boundEpisode d).WellFormed :=
  ⟨h.stream, h.severity, h.authority, h.completeness⟩

/-- The event of a decision that is about an episode. -/
theorem wellFormed_decisionEvent (g : Governor) {d : Detector} {decision : DetectionDecision}
    (h : Detector.Sound d decision) (hmirrors : decision.mirrors = true) :
    (g.decisionEvent d decision).WellFormed := by
  have hbound := g.wellFormed_boundEpisode (h.episode (Or.inr hmirrors))
  have hmirrors' : (decision.opened || decision.updated || decision.closed) = true := hmirrors
  rw [decisionEvent, if_pos hmirrors']
  generalize g.boundEpisode d = event at *
  dsimp only
  split
  · exact ⟨hbound.stream, hbound.severity, hbound.authority, hbound.completeness⟩
  · exact ⟨hbound.stream, hbound.severity, hbound.authority, hbound.completeness⟩

section

variable {g : Governor} (h : g.WellFormed) {event : BurstEvent} (he : event.WellFormed)

include h he

theorem wellFormed_assignOpen : { g with
    openEvents := g.openEvents.assign g.hashing.openEvents event.id event }.WellFormed :=
  ⟨h.policies, h.indexed, h.detectors, h.openEvents.assign he _, h.history, h.interventions,
    h.retired⟩

theorem wellFormed_openEpisodeLocked (now : Tick) : (g.openEpisodeLocked event now).WellFormed := by
  rw [openEpisodeLocked]
  refine wellFormed_journalRecord (wellFormed_pushEmissionLocked ?_ _) _ _ _
  exact (wellFormed_assignOpen h he).congr rfl

theorem wellFormed_closeEpisodeLocked (fenced : Bool) (now : Tick) :
    (g.closeEpisodeLocked event fenced now).WellFormed := by
  have herased : { g with openEvents := g.openEvents.erase event.id }.WellFormed :=
    ⟨h.policies, h.indexed, h.detectors, h.openEvents.erase, h.history, h.interventions, h.retired⟩
  rw [closeEpisodeLocked]
  refine wellFormed_journalRecord (wellFormed_pushEmissionLocked ?_ _) _ _ _
  refine (wellFormed_recordEventLocked
    (wellFormed_refreshAuthorityLocked herased now event.id) he).congr ?_
  split <;> rfl

end

theorem wellFormed_processDecisionLocked {g : Governor} (h : g.WellFormed) {d : Detector}
    {decision : DetectionDecision} (hd : Detector.Sound d decision) (now : Tick) :
    (g.processDecisionLocked d decision now).WellFormed := by
  have hstream : decision.stream.valid := by rw [hd.stream]; exact hd.key
  unfold processDecisionLocked
  extract_lets _ g₁ event g₂ g₃
  have h₁ : g₁.WellFormed := h.congr rfl
  have hevent : decision.mirrors = true → event.WellFormed := g₁.wellFormed_decisionEvent hd
  have h₂ : g₂.WellFormed := by
    dsimp only [g₂]
    split
    · rename_i hopened
      exact wellFormed_openEpisodeLocked h₁
        (hevent (by rw [DetectionDecision.mirrors, hopened]; rfl)) now
    · split
      · rename_i hupdated
        rw [Bool.and_eq_true] at hupdated
        exact wellFormed_assignOpen h₁
          (hevent (by rw [DetectionDecision.mirrors, hupdated.1, Bool.or_true]; rfl))
      · exact h₁
  have h₃ : g₃.WellFormed := by
    dsimp only [g₃]
    split
    · rename_i hclosed
      exact wellFormed_closeEpisodeLocked h₂
        (hevent (by rw [DetectionDecision.mirrors, hclosed, Bool.or_true])) _ now
    · exact h₂
  split
  · exact wellFormed_maybeRequest h₃ hd.severity hstream now
  · exact h₃

/-! ### Evidence and time -/

theorem wellFormed_setEntry {g : Governor} (h : g.WellFormed) (key : StreamKey) {entry : StreamEntry}
    (hentry : entry.detector.WellFormed) : (g.setEntry key entry).WellFormed := by
  refine ⟨h.policies, h.indexed, fun key' entry' hfind => ?_, h.openEvents, h.history,
    h.interventions, h.retired⟩
  have hinsert := OrderedMap.find?_insert g.streams key key' entry
  rw [setEntry] at hfind
  dsimp only at hfind
  rw [hinsert] at hfind
  split at hfind
  · rw [← Option.some.inj hfind]
    exact hentry
  · exact h.detectors key' entry' hfind

theorem wellFormed_findOrCreate {g : Governor} (h : g.WellFormed) {key : StreamKey}
    (hkey : key.valid) {entry : StreamEntry} {g' : Governor}
    (hfound : g.findOrCreate key = .ok (entry, g')) :
    entry.detector.WellFormed ∧ g'.WellFormed := by
  rw [findOrCreate] at hfound
  cases hfind : g.streams.find? key with
  | some old =>
    simp only [hfind, Except.ok.injEq, Prod.mk.injEq] at hfound
    obtain ⟨rfl, rfl⟩ := hfound
    exact ⟨h.detectors key _ hfind, h⟩
  | none =>
    simp only [hfind] at hfound
    split at hfound
    · cases hfound
    · have hfresh := Detector.wellFormed_configure hkey {} (g.policies.resolve key.resource)
        g.policies.generation
      generalize Detector.configure {} key (g.policies.resolve key.resource)
        g.policies.generation = fresh at *
      have hset : (g.setEntry key { detector := fresh }).WellFormed := wellFormed_setEntry h key hfresh
      rw [Except.ok.injEq, Prod.mk.injEq] at hfound
      obtain ⟨rfl, rfl⟩ := hfound
      exact ⟨hfresh, hset.congr rfl⟩

theorem wellFormed_observeGeneration {g : Governor} (h : g.WellFormed) (sample : Sample) :
    (g.observeGeneration sample).WellFormed := by
  refine h.congr ?_
  rw [observeGeneration]
  split <;> rfl

theorem wellFormed_raiseLastTick {g : Governor} (h : g.WellFormed) (tick : Tick) :
    (g.raiseLastTick tick).WellFormed := by
  refine h.congr ?_
  rw [raiseLastTick]
  split <;> rfl

theorem wellFormed_mirrorDecision {g : Governor} (h : g.WellFormed) (key : StreamKey)
    {entry : StreamEntry} (hentry : entry.detector.WellFormed) {decision : DetectionDecision}
    (hd : Detector.Sound entry.detector decision) (now : Tick) :
    (g.mirrorDecision key entry decision now).1.WellFormed := by
  have hmarked : ({ entry with hasProcessed := true, lastProcessed := decision.tick } :
    StreamEntry).detector.WellFormed := hentry
  rw [mirrorDecision]
  split
  · exact wellFormed_processDecisionLocked (wellFormed_setEntry h key hmarked) hd now
  · exact wellFormed_setEntry h key hentry

theorem wellFormed_ingest {g : Governor} (h : g.WellFormed) (sample : Sample) :
    (g.ingest sample).2.WellFormed := by
  rw [ingest]
  cases hvalid : validateSample sample with
  | error e => exact h.congr rfl
  | ok _ =>
    cases hfound : g.findOrCreate sample.stream with
    | error e => exact h.congr rfl
    | ok found =>
      obtain ⟨entry, g₁⟩ := found
      obtain ⟨hentry, h₁⟩ := wellFormed_findOrCreate h (valid_of_validateSample hvalid) hfound
      have h₂ := wellFormed_observeGeneration h₁ sample
      cases hingest : entry.detector.ingest sample with
      | error e =>
        simp only [hingest]
        exact h₂.congr rfl
      | ok result =>
        obtain ⟨detector, decision⟩ := result
        obtain ⟨hdetector, hsound⟩ := Detector.wellFormed_ingest hentry hingest
        simp only [hingest]
        have h₃ : ((g₁.observeGeneration sample).countAccept detector.lastAccept).WellFormed :=
          h₂.congr rfl
        have hentry' : ({ entry with detector } : StreamEntry).detector.WellFormed := hdetector
        have h₄ := wellFormed_mirrorDecision h₃ sample.stream hentry' hsound decision.tick
        generalize ((g₁.observeGeneration sample).countAccept detector.lastAccept).mirrorDecision
          sample.stream { entry with detector } decision decision.tick = mirrored at *
        obtain ⟨g₄, evaluated⟩ := mirrored
        dsimp only at h₄ ⊢
        refine wellFormed_refreshAuthorityLocked ?_ _
        split
        · exact wellFormed_raiseLastTick h₄ _
        · exact h₄

theorem wellFormed_advanceStream {acc : Governor × AdvanceResult} (h : acc.1.WellFormed)
    (now : Tick) (key : StreamKey) : (advanceStream now acc key).1.WellFormed := by
  rw [advanceStream]
  obtain ⟨g, result⟩ := acc
  dsimp only at h ⊢
  cases hfind : g.streams.find? key with
  | none => exact h
  | some entry =>
    dsimp only
    split
    · exact h
    · obtain ⟨hdetector, hsound⟩ := Detector.wellFormed_evaluate (h.detectors key entry hfind) now
      rw [Detector.advance]
      generalize entry.detector.evaluate now = evaluated at *
      exact wellFormed_mirrorDecision h key hdetector hsound now

theorem wellFormed_advance {g : Governor} (h : g.WellFormed) (now : Tick) :
    (g.advance now).2.WellFormed := by
  have hfold : ∀ (keys : List StreamKey) (acc : Governor × AdvanceResult), acc.1.WellFormed →
      (keys.foldl (advanceStream now) acc).1.WellFormed := by
    intro keys
    induction keys with
    | nil => exact fun acc hacc => hacc
    | cons key keys ih => exact fun acc hacc => ih _ (wellFormed_advanceStream hacc now key)
  rw [advance]
  exact wellFormed_raiseLastTick (wellFormed_refreshAuthorityLocked (hfold _ (g, {}) h) now) now

/-! ### Configuration -/

theorem wellFormed_adoptPolicies {g : Governor} (h : g.WellFormed) {policies : PolicySet}
    (hrestorable : policies.Restorable) (hindexed : policies.Indexed) :
    (g.adoptPolicies policies).WellFormed :=
  ⟨hrestorable, hindexed, h.detectors, h.openEvents, h.history, h.interventions, h.retired⟩

theorem wellFormed_rearmStream {g : Governor} (h : g.WellFormed) (key : StreamKey) :
    (g.rearmStream key).WellFormed := by
  rw [rearmStream]
  cases hfind : g.streams.find? key with
  | none => exact h
  | some entry =>
    obtain ⟨hdetector, hfenced⟩ := Detector.wellFormed_rearm (h.detectors key entry hfind)
      (g.policies.resolve entry.detector.key.resource) g.policies.generation g.lastTick
    dsimp only
    generalize entry.detector.rearm (g.policies.resolve entry.detector.key.resource)
      g.policies.generation g.lastTick = rearmed at *
    obtain ⟨detector, fenced⟩ := rearmed
    dsimp only at hdetector hfenced ⊢
    have hset : (g.setEntry key { entry with detector }).WellFormed :=
      wellFormed_setEntry h key hdetector
    generalize g.setEntry key { entry with detector } = g₁ at *
    split
    · rename_i hsome
      have hbound := g₁.wellFormed_boundEpisode (hfenced hsome)
      have hevent : ({ g₁.boundEpisode detector with lifecycle := .fenced } :
          BurstEvent).WellFormed :=
        ⟨hbound.stream, hbound.severity, hbound.authority, hbound.completeness⟩
      have herased : ∀ id, { g₁ with openEvents := g₁.openEvents.erase id }.WellFormed := fun id =>
        ⟨hset.policies, hset.indexed, hset.detectors, hset.openEvents.erase, hset.history,
          hset.interventions, hset.retired⟩
      refine wellFormed_pushEmissionLocked ?_ _
      exact (wellFormed_recordEventLocked (herased _) hevent).congr rfl
    · exact hset

theorem wellFormed_foldl_rearmStream : ∀ (keys : List StreamKey) {g : Governor}, g.WellFormed →
    (keys.foldl rearmStream g).WellFormed
  | [], _, h => h
  | key :: keys, _, h => wellFormed_foldl_rearmStream keys (wellFormed_rearmStream h key)

theorem wellFormed_installPolicy {g : Governor} (h : g.WellFormed) (policy : Policy) :
    (g.installPolicy policy).2.WellFormed := by
  rw [installPolicy]
  cases hset : g.policies.setFallback policy with
  | error e => exact h
  | ok policies =>
    have hadopted : (g.adoptPolicies policies).countPolicyChange.WellFormed :=
      (wellFormed_adoptPolicies h (PolicySet.restorable_setFallback h.policies hset)
        (PolicySet.indexed_setFallback h.indexed hset)).congr rfl
    dsimp only
    refine wellFormed_journalRecord (wellFormed_pushEmissionLocked ?_ _) _ _ _
    exact wellFormed_refreshAuthorityLocked (wellFormed_foldl_rearmStream _ hadopted) _

theorem wellFormed_setResourcePolicy {g : Governor} (h : g.WellFormed) (resource : ResourceId)
    (policy : Policy) : (g.setResourcePolicy resource policy).2.WellFormed := by
  rw [setResourcePolicy]
  cases hset : g.policies.setOverride resource policy with
  | error e => exact h
  | ok policies =>
    have hadopted : (g.adoptPolicies policies).countPolicyChange.WellFormed :=
      (wellFormed_adoptPolicies h (PolicySet.restorable_setOverride h.policies h.indexed hset)
        (PolicySet.indexed_setOverride h.indexed hset)).congr rfl
    exact wellFormed_refreshAuthorityLocked (wellFormed_foldl_rearmStream _ hadopted) _

theorem wellFormed_removeResourcePolicy {g : Governor} (h : g.WellFormed) (resource : ResourceId) :
    (g.removeResourcePolicy resource).2.WellFormed := by
  rw [removeResourcePolicy]
  cases hset : g.policies.removeOverride resource with
  | error e => exact h
  | ok policies =>
    have hadopted : (g.adoptPolicies policies).countPolicyChange.WellFormed :=
      (wellFormed_adoptPolicies h (PolicySet.restorable_removeOverride h.policies hset)
        (PolicySet.indexed_removeOverride h.indexed hset)).congr rfl
    exact wellFormed_refreshAuthorityLocked hadopted _

theorem wellFormed_bindAuthority {g : Governor} (h : g.WellFormed) (epoch : Epoch)
    (incarnation : IncarnationId) (boot : BootId) :
    (g.bindAuthority epoch incarnation boot).2.WellFormed := by
  rw [bindAuthority]
  split
  · exact h
  · refine wellFormed_journalRecord (wellFormed_pushEmissionLocked ?_ _) _ _ _
    refine wellFormed_refreshAuthorityLocked ?_ _
    exact h.congr rfl

theorem wellFormed_setResourceGeneration {g : Governor} (h : g.WellFormed) (resource : ResourceId)
    (generation : ResourceGeneration) :
    (g.setResourceGeneration resource generation).2.WellFormed := by
  rw [setResourceGeneration]
  split
  · exact h
  · refine wellFormed_refreshAuthorityLocked ?_ _
    exact h.congr rfl

theorem wellFormed_setInterventionsEnabled {g : Governor} (h : g.WellFormed) (enabled : Bool) :
    (g.setInterventionsEnabled enabled).WellFormed := by
  rw [setInterventionsEnabled]
  dsimp only
  split
  · refine wellFormed_revokeAllLiveLocked ?_ _ _
    exact h.congr rfl
  · exact h.congr rfl

theorem wellFormed_bindStore {g : Governor} (h : g.WellFormed) (store : Option DurableStore) :
    (g.bindStore store).WellFormed := by
  cases store with
  | none => exact h.congr rfl
  | some store => exact h.congr rfl

theorem wellFormed_checkpoint {g : Governor} (h : g.WellFormed) : g.checkpoint.2.WellFormed := by
  refine h.congr ?_
  rw [checkpoint, compactLocked]
  split
  · rfl
  · dsimp only
    split <;> rfl

end Governor

/-! ### Recovery -/

namespace RecoveryAccumulator

/-- What a recovery accumulates was decoded, so it meets the decoder's checks. -/
structure WellFormed (acc : RecoveryAccumulator) : Prop where
  openEvents : acc.openEvents.All BurstEvent.WellFormed
  closedEvents : ∀ e ∈ acc.closedEvents, e.WellFormed
  interventions : ∀ i ∈ acc.interventions, i.WellFormed

theorem wellFormed_empty : ({} : RecoveryAccumulator).WellFormed :=
  ⟨UnorderedMap.all_empty, by simp, by simp⟩

variable {acc : RecoveryAccumulator} (h : acc.WellFormed)

include h

theorem wellFormed_addIntent {intent : InterventionIntent} (hi : intent.WellFormed) :
    (acc.addIntent intent).WellFormed := by
  rw [addIntent]
  split
  · split
    · exact h
    · refine ⟨h.openEvents, h.closedEvents, fun i hmem => ?_⟩
      rcases List.mem_append.mp hmem with hold | hnew
      · exact h.interventions i hold
      · rw [List.mem_singleton.mp hnew]
        exact hi
  · refine ⟨h.openEvents, h.closedEvents, fun i hmem => ?_⟩
    rcases List.mem_or_eq_of_mem_set hmem with hold | rfl
    · exact h.interventions i hold
    · exact hi

theorem wellFormed_commit {event : BurstEvent} (he : event.WellFormed)
    {openEvents : UnorderedMap EventId BurstEvent} (hopen : openEvents.All BurstEvent.WellFormed) :
    { acc with openEvents, closedEvents := acc.closedEvents ++ [event] }.WellFormed := by
  refine ⟨hopen, fun e hmem => ?_, h.interventions⟩
  rcases List.mem_append.mp hmem with hold | hnew
  · exact h.closedEvents e hold
  · rw [List.mem_singleton.mp hnew]
    exact he

theorem wellFormed_addEvent (hashing : Hashing) {event : BurstEvent} (he : event.WellFormed) :
    (acc.addEvent hashing event).WellFormed := by
  rw [addEvent]
  split
  · exact ⟨h.openEvents.assign he _, h.closedEvents, h.interventions⟩
  · exact wellFormed_commit h he h.openEvents

theorem wellFormed_accumulateRecord (hashing : Hashing) (record : JournaledRecord) :
    (acc.accumulateRecordLocked hashing record).WellFormed := by
  have hevent := ByteReader.wellFormed_of_decodeEvent (.of record.payload)
  have hintent := ByteReader.wellFormed_of_decodeIntent (.of record.payload)
  rw [accumulateRecordLocked]
  cases record.type with
  | policyInstalled =>
    dsimp only
    split
    · exact ⟨h.openEvents, h.closedEvents, h.interventions⟩
    · exact h
  | episodeOpened =>
    dsimp only
    cases hdecode : (decodeEvent (.of record.payload)).1 with
    | error e => exact h
    | ok event => exact ⟨h.openEvents.assign (hevent event hdecode) _, h.closedEvents, h.interventions⟩
  | episodeClosed | episodeFenced =>
    dsimp only
    cases hdecode : (decodeEvent (.of record.payload)).1 with
    | error e => exact h
    | ok event => exact wellFormed_commit h (hevent event hdecode) h.openEvents.erase
  | interventionRequested | interventionStateChanged =>
    dsimp only
    cases hdecode : (decodeIntent (.of record.payload)).1 with
    | error e => exact h
    | ok intent => exact wellFormed_addIntent h (hintent intent hdecode)
  | authorityBound => exact ⟨h.openEvents, h.closedEvents, h.interventions⟩
  | checkpoint | unknown | episodeUpdated => exact h

omit h

theorem wellFormed_accumulateState (hashing : Hashing) {state : PersistedState}
    (hs : state.WellFormed) : (accumulateStateLocked hashing {} state).WellFormed := by
  have hevents : ∀ (events : List BurstEvent) (acc : RecoveryAccumulator),
      (∀ e ∈ events, e.WellFormed) → acc.WellFormed →
        (events.foldl (addEvent hashing) acc).WellFormed := by
    intro events
    induction events with
    | nil => exact fun acc _ hacc => hacc
    | cons event events ih =>
      intro acc hall hacc
      rw [List.forall_mem_cons] at hall
      exact ih _ hall.2 (wellFormed_addEvent hacc hashing hall.1)
  have hintents : ∀ (intents : List InterventionIntent) (acc : RecoveryAccumulator),
      (∀ i ∈ intents, i.WellFormed) → acc.WellFormed → (intents.foldl addIntent acc).WellFormed := by
    intro intents
    induction intents with
    | nil => exact fun acc _ hacc => hacc
    | cons intent intents ih =>
      intro acc hall hacc
      rw [List.forall_mem_cons] at hall
      exact ih _ hall.2 (wellFormed_addIntent hacc hall.1)
  rw [accumulateStateLocked]
  have hstart : ({
      fallback := some state.policies.fallback
      overrides := state.policies.overrides
      generation := state.policies.generation } : RecoveryAccumulator).WellFormed :=
    ⟨UnorderedMap.all_empty, by simp, by simp⟩
  have h := hintents _ _ hs.interventions (hevents _ _ hs.events hstart)
  exact ⟨h.openEvents, h.closedEvents, h.interventions⟩

theorem wellFormed_records (hashing : Hashing) : ∀ (records : List JournaledRecord)
    {acc : RecoveryAccumulator}, acc.WellFormed →
      (records.foldl (accumulateRecordLocked hashing) acc).WellFormed
  | [], _, h => h
  | record :: records, _, h =>
    wellFormed_records hashing records (wellFormed_accumulateRecord h hashing record)

end RecoveryAccumulator

namespace Governor

theorem wellFormed_recover (g : Governor)
    (replayed : DurableStore.Replayed (List JournaledRecord)) :
    (g.recover replayed).1.WellFormed := by
  have hsnapshot : (accumulateSnapshot g.hashing replayed.report replayed.snapshotPayload
      (reportReplay replayed.report)).1.WellFormed := by
    rw [accumulateSnapshot]
    split
    · cases hdecode : decodeState replayed.snapshotPayload with
      | error e => exact RecoveryAccumulator.wellFormed_empty
      | ok state =>
        exact RecoveryAccumulator.wellFormed_accumulateState _
          (wellFormed_of_decodeState hdecode)
    · exact RecoveryAccumulator.wellFormed_empty
  exact RecoveryAccumulator.wellFormed_records g.hashing _ hsnapshot

theorem wellFormed_restorePolicies {g : Governor} (h : g.WellFormed) (acc : RecoveryAccumulator)
    (report : RestoreReport) : (g.restorePolicies acc report).1.WellFormed := by
  rw [restorePolicies]
  cases acc.fallback with
  | none => exact h
  | some fallback =>
    dsimp only
    cases hrestore : PolicySet.restore fallback acc.overrides acc.generation with
    | error e => exact h
    | ok policies =>
      exact wellFormed_adoptPolicies h (PolicySet.restorable_restore hrestore)
        (PolicySet.restore_ok hrestore).1

theorem wellFormed_restoreEvents {g : Governor} (h : g.WellFormed) {acc : RecoveryAccumulator}
    (hacc : acc.WellFormed) : (g.restoreEvents acc).WellFormed := by
  have hfold : ∀ (event : Governor → BurstEvent → BurstEvent),
      (∀ g e, BurstEvent.WellFormed e → (event g e).WellFormed) → ∀ (events : List BurstEvent)
      {g : Governor}, (∀ e ∈ events, e.WellFormed) → g.WellFormed →
        (events.foldl (fun g e => g.recordEventLocked (event g e)) g).WellFormed := by
    intro event hevent events
    induction events with
    | nil => exact fun _ hg => hg
    | cons e events ih =>
      intro g hall hg
      rw [List.forall_mem_cons] at hall
      exact ih hall.2 (wellFormed_recordEventLocked hg (hevent g e hall.1))
  rw [restoreEvents]
  refine hfold fenceUnfinished (fun g e he => ?_) _ hacc.openEvents
    (hfold rebind (fun g e he => ?_) _ hacc.closedEvents h)
  · exact ⟨he.stream, he.severity, he.authority, he.completeness⟩
  · exact ⟨he.stream, he.severity, he.authority, he.completeness⟩

theorem wellFormed_restoreInterventions {g : Governor} (h : g.WellFormed)
    {acc : RecoveryAccumulator} (hacc : acc.WellFormed) :
    (g.restoreInterventions acc).WellFormed := by
  have hlive : ∀ i ∈ acc.interventions.filter InterventionIntent.live, i.WellFormed :=
    fun i hi => hacc.interventions i (List.mem_of_mem_filter hi)
  rw [restoreInterventions]
  generalize acc.interventions.filter InterventionIntent.live = intents at *
  induction intents generalizing g with
  | nil => exact h
  | cons intent intents ih =>
    rw [List.forall_mem_cons] at hlive
    refine ih (wellFormed_pushInterventionHistory h ?_) hlive.2
    exact ⟨hlive.1.magnitude, hlive.1.severity, hlive.1.stream⟩

theorem wellFormed_announceAuthority {g : Governor} (h : g.WellFormed) :
    g.announceAuthority.WellFormed := by
  rw [announceAuthority]
  split
  · exact wellFormed_appendRecordLocked (wellFormed_pushEmissionLocked h _) _ _ _
  · exact wellFormed_pushEmissionLocked h _

theorem wellFormed_applyRecovery {g : Governor} (h : g.WellFormed) {acc : RecoveryAccumulator}
    (hacc : acc.WellFormed) (report : RestoreReport) : (g.applyRecovery acc report).1.WellFormed := by
  have hpolicies := wellFormed_restorePolicies h acc report
  rw [applyRecovery]
  generalize g.restorePolicies acc report = restored at *
  have hintents := wellFormed_restoreInterventions (wellFormed_restoreEvents hpolicies hacc) hacc
  exact hintents.congr rfl

theorem wellFormed_restore {g : Governor} (h : g.WellFormed) : g.restore.2.2.WellFormed := by
  rw [restore]
  cases g.store with
  | none => exact h
  | some store =>
    dsimp only
    generalize store.replay collectRecord [] = result
    obtain ⟨failure | replayed, store'⟩ := result
    · exact h.congr rfl
    · have hstore : (g.withStore store').WellFormed := h.congr rfl
      have hacc := (g.withStore store').wellFormed_recover replayed
      exact wellFormed_announceAuthority (wellFormed_applyRecovery hstore hacc _)

/-! ### Every checkpoint is readable -/

theorem wellFormed_new (hashing : Hashing) (config : GovernorConfig) :
    (new hashing config).WellFormed := by
  have hpolicies : (new hashing config).policies.Restorable ∧ (new hashing config).policies.Indexed := by
    rw [new]
    dsimp only
    cases hset : PolicySet.initial.setFallback config.policy with
    | error e => exact ⟨PolicySet.restorable_initial, PolicySet.indexed_initial⟩
    | ok policies =>
      exact ⟨PolicySet.restorable_setFallback PolicySet.restorable_initial hset,
        PolicySet.indexed_setFallback PolicySet.indexed_initial hset⟩
  refine ⟨hpolicies.1, hpolicies.2, fun key entry hfind => ?_, UnorderedMap.all_empty, ?_,
    UnorderedMap.all_empty, ?_⟩
  · cases hfind
  · intro e he
    cases he
  · intro i hi
    cases hi

theorem wellFormed_step {g : Governor} (h : g.WellFormed) (op : Op) : (g.step op).WellFormed := by
  cases op with
  | ingest sample => exact wellFormed_ingest h sample
  | advance now => exact wellFormed_advance h now
  | installPolicy policy => exact wellFormed_installPolicy h policy
  | setResourcePolicy resource policy => exact wellFormed_setResourcePolicy h resource policy
  | removeResourcePolicy resource => exact wellFormed_removeResourcePolicy h resource
  | bindAuthority epoch incarnation boot => exact wellFormed_bindAuthority h epoch incarnation boot
  | setResourceGeneration resource generation =>
    exact wellFormed_setResourceGeneration h resource generation
  | setInterventionsEnabled enabled => exact wellFormed_setInterventionsEnabled h enabled
  | bindStore store => exact wellFormed_bindStore h store
  | checkpoint => exact wellFormed_checkpoint h
  | restore => exact wellFormed_restore h
  | drainEmissions => exact h.congr rfl

theorem wellFormed_run (ops : List Op) {g : Governor} (h : g.WellFormed) :
    (Runs.run step g ops).WellFormed := by
  induction ops generalizing g with
  | nil => exact h
  | cons op ops ih => exact ih (wellFormed_step h op)

theorem mem_historyOrderedLocked {g : Governor} {e : BurstEvent} (h : e ∈ g.historyOrderedLocked) :
    e ∈ g.history := by
  rw [historyOrderedLocked, List.mem_map] at h
  obtain ⟨i, hi, rfl⟩ := h
  rw [List.mem_range] at hi
  have hlt : (g.historyHead + i) % g.history.length < g.history.length :=
    Nat.mod_lt _ (by omega)
  rw [List.getD_eq_getElem?_getD, List.getElem?_eq_getElem hlt, Option.getD_some]
  exact List.getElem_mem hlt

theorem WellFormed.exportState {g : Governor} (h : g.WellFormed)
    (hcount : g.history.length + g.openEvents.size ≤ Limits.maxEventsPersisted) :
    g.exportState.WellFormed := by
  refine ⟨h.policies, fun e he => ?_, ?_, fun i hi => ?_, ?_⟩
  · rcases List.mem_append.mp he with hold | hopen
    · exact h.history e (mem_historyOrderedLocked hold)
    · exact h.openEvents e hopen
  · have hlength : g.exportState.events.length = g.history.length + g.openEvents.size := by
      simp [Governor.exportState, historyOrderedLocked, UnorderedMap.values, UnorderedMap.size]
    rw [hlength]
    exact hcount
  · simp only [Governor.exportState, collectPersistedInterventionsLocked] at hi
    rcases List.mem_append.mp (List.mem_of_mem_drop hi) with hold | hlive
    · exact h.retired i hold
    · exact h.interventions i hlive
  · simp only [Governor.exportState, collectPersistedInterventionsLocked, List.length_drop]
    omega

/-- CORRECT: whatever a governor went through, its checkpoint is read back as the state it exported,
    and neither a part of it nor more than it is read at all. -/
theorem checkpoint_readable (hashing : Hashing) (config : GovernorConfig) (ops : List Op)
    (hcount : (Runs.run step (new hashing config) ops).eventHistory.length +
      (Runs.run step (new hashing config) ops).openEvents.size ≤ Limits.maxEventsPersisted) :
    let state := (Runs.run step (new hashing config) ops).exportState
    decodeState (encodeState state) = .ok state ∧
      (∀ part, part <+: encodeState state → part ≠ encodeState state → ∀ s,
        decodeState part ≠ .ok s) ∧
      ∀ more, more ≠ [] → ∀ s, decodeState (encodeState state ++ more) ≠ .ok s := by
  intro state
  have hwell := wellFormed_run ops (wellFormed_new hashing config)
  have hlength : (Runs.run step (new hashing config) ops).eventHistory.length =
      (Runs.run step (new hashing config) ops).history.length := by
    rw [eventHistory, historyOrderedLocked, List.length_map, List.length_range]
  rw [hlength] at hcount
  have hstate : state.WellFormed := hwell.exportState hcount
  refine ⟨decodeState_encodeState hstate, fun part hpart hne => ?_, fun more hmore => ?_⟩
  · exact decodeState_prefix hstate hpart hne
  · exact decodeState_extension hstate hmore

/-- The calls of a governor that saw two samples under two authorities. -/
def reboundCalls : List Op :=
  [.ingest { stream := ⟨⟨1⟩, ⟨1⟩, ⟨1⟩⟩, tick := ⟨1⟩ }, .bindAuthority ⟨2⟩ ⟨3⟩ ⟨4⟩,
    .ingest { stream := ⟨⟨1⟩, ⟨1⟩, ⟨1⟩⟩, tick := ⟨2⟩ }]

theorem checkpoint_readable_rebound :
    let state := (Runs.run step (new Hashing.back {}) reboundCalls).exportState
    decodeState (encodeState state) = .ok state ∧
      (∀ part, part <+: encodeState state → part ≠ encodeState state → ∀ s,
        decodeState part ≠ .ok s) ∧
      ∀ more, more ≠ [] → ∀ s, decodeState (encodeState state ++ more) ≠ .ok s :=
  checkpoint_readable Hashing.back {} reboundCalls (by decide +kernel)

end Governor

end Mbg
