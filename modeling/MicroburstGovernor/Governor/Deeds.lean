import Mathlib.Logic.Relation
import MicroburstGovernor.Governor.Durable

/-! What a call does, seen from the store: the deeds it is made of, one record each.

    A record may fill the journal, and then a snapshot is taken of the governor as it stands in the
    middle of the call. So a law about durable state is not one about calls: it has to hold after
    every deed. The only thing a call leaves half done between two deeds is an episode that left the
    table and is not recorded yet. -/

namespace Mbg

namespace Governor

/-- What a recovery is compared with, and the store it reads. -/
structure Face where
  policies : PolicySet
  openEvents : UnorderedMap EventId BurstEvent
  history : List BurstEvent
  historyHead : ℕ
  recordSeq : RecordSeq
  store : Option DurableStore
  enableJournal : Bool
  epoch : Epoch

def face (g : Governor) : Face :=
  ⟨g.policies, g.openEvents, g.history, g.historyHead, g.recordSeq, g.store,
    g.config.enableJournal, g.context.epoch⟩

/-- The records that could not be made durable so far. -/
def failures (g : Governor) : UInt64 := g.stats.durableAppendFailures

/-- The emissions so far. Every record is announced by one. -/
def announced (g : Governor) : ℕ := g.ledger.emitted.length

/-- Bookkeeping between two records, with `n` emissions. -/
structure Bookkeeping (n : ℕ) (g g' : Governor) : Prop where
  face : g'.face = g.face
  failures : g'.failures = g.failures
  announced : g'.announced = g.announced + n

/-- What a decision says of an episode. -/
inductive Phase where
  | opened | updated | closed

/-- A governor amid a call, and the episode that left its table and is not recorded yet. -/
structure Midway where
  governor : Governor
  absent : Option EventId := none

/-- The end of an episode that left the table: it is recorded, announced and journaled. -/
def commitEpisode (g : Governor) (event : BurstEvent) (fenced : Bool) (now : Tick) : Governor :=
  let g := g.recordEventLocked event
  let g :=
    if fenced then
      { g with stats := { g.stats with episodesFenced := g.stats.episodesFenced + 1 } }
    else { g with stats := { g.stats with episodesClosed := g.stats.episodesClosed + 1 } }
  let g := g.pushEmissionLocked
    { kind := if fenced then .episodeFenced else .episodeClosed, event, tick := now }
  g.journalRecord (if fenced then .episodeFenced else .episodeClosed) (encodeEvent event) now

theorem closeEpisodeLocked_eq (g : Governor) (event : BurstEvent) (fenced : Bool) (now : Tick) :
    g.closeEpisodeLocked event fenced now =
      ({ g with openEvents := g.openEvents.erase event.id }.refreshAuthorityLocked now
        event.id).1.commitEpisode event fenced now := rfl

/-- The records that are neither about an episode nor about a policy. -/
def Aside (type : RecordType) : Prop :=
  type = .interventionRequested ∨ type = .interventionStateChanged ∨ type = .authorityBound

/-- One deed. What is known of the events it is about is a parameter. -/
inductive Deed (ok : Governor → Phase → BurstEvent → Prop) : Midway → Midway → Prop
  | quiet {g g' : Governor} {absent n} (same : g.Bookkeeping n g') :
    Deed ok ⟨g, absent⟩ ⟨g', absent⟩
  | noted {g g₁ : Governor} {n} (same : g.Bookkeeping (n + 1) g₁) (hw : g₁.WellFormed) {type}
    (htype : Aside type) {payload : Bytes} (hlen : payload.length ≤ Limits.maxJournalRecordBytes)
    (now absent) : Deed ok ⟨g, absent⟩ ⟨g₁.journalRecord type payload now, absent⟩
  | opened {g : Governor} (hw : g.WellFormed) {event : BurstEvent} (he : event.WellFormed)
    (hok : ok g .opened event) (now) : Deed ok ⟨g, none⟩ ⟨g.openEpisodeLocked event now, none⟩
  | updated {g : Governor} {event : BurstEvent} (hok : ok g .updated event) :
    Deed ok ⟨g, none⟩
      ⟨{ g with openEvents := g.openEvents.assign g.hashing.openEvents event.id event }, none⟩
  | left (g : Governor) (event : EventId) :
    Deed ok ⟨g, none⟩ ⟨{ g with openEvents := g.openEvents.erase event }, some event⟩
  | committed {g : Governor} (hw : g.WellFormed) {event : BurstEvent} (he : event.WellFormed)
    (hok : ok g .closed event) (fenced now) :
    Deed ok ⟨g, some event.id⟩ ⟨g.commitEpisode event fenced now, none⟩

/-- What a part of a call does, deed by deed. -/
abbrev Deeds (ok : Governor → Phase → BurstEvent → Prop) : Midway → Midway → Prop :=
  Relation.ReflTransGen (Deed ok)

/-! ### Bookkeeping -/

section

variable (g : Governor)

theorem face_pushEmissionLocked (e : Emission) : (g.pushEmissionLocked e).face = g.face := by
  rw [pushEmissionLocked]
  split <;> rfl

theorem failures_pushEmissionLocked (e : Emission) :
    (g.pushEmissionLocked e).failures = g.failures := by
  rw [pushEmissionLocked]
  split <;> rfl

theorem announced_pushEmissionLocked (e : Emission) :
    (g.pushEmissionLocked e).announced = g.announced + 1 := by
  rw [pushEmissionLocked]
  split <;> exact List.length_append

/-- An emission after bookkeeping. -/
theorem Bookkeeping.push {g g₁ : Governor} {n : ℕ} (h : g.Bookkeeping n g₁) (e : Emission) :
    g.Bookkeeping (n + 1) (g₁.pushEmissionLocked e) where
  face := (g₁.face_pushEmissionLocked e).trans h.face
  failures := (g₁.failures_pushEmissionLocked e).trans h.failures
  announced := by rw [announced_pushEmissionLocked, h.announced, Nat.add_assoc]

theorem Bookkeeping.trans {g g₁ g₂ : Governor} {m n : ℕ} (h : g.Bookkeeping m g₁)
    (h' : g₁.Bookkeeping n g₂) : g.Bookkeeping (m + n) g₂ where
  face := h'.face.trans h.face
  failures := h'.failures.trans h.failures
  announced := by rw [h'.announced, h.announced, Nat.add_assoc]

theorem bookkeeping_retiring (intent : InterventionIntent) (verdict : AuthorityVerdict) (now : Tick) :
    g.Bookkeeping 1 (g.retiring intent verdict now) := by
  rw [retiring]
  refine Bookkeeping.push (n := 0) ?_ _
  dsimp only
  split <;> exact ⟨rfl, rfl, rfl⟩

theorem bookkeeping_renewing (decision : DetectionDecision) (now : Tick)
    (limit : InterventionKindLimit) (intent : InterventionIntent) :
    g.Bookkeeping 1 (g.renewing decision now limit intent) := by
  rw [renewing]
  refine Bookkeeping.push (n := 0) ?_ _
  exact ⟨rfl, rfl, rfl⟩

theorem bookkeeping_issuing (decision : DetectionDecision) (now : Tick) (kind : InterventionKind)
    (limit : InterventionKindLimit) : g.Bookkeeping 1 (g.issuing decision now kind limit) := by
  rw [issuing]
  refine Bookkeeping.push (n := 0) ?_ _
  exact ⟨rfl, rfl, rfl⟩

theorem bookkeeping_raiseLastTick (tick : Tick) : g.Bookkeeping 0 (g.raiseLastTick tick) := by
  rw [raiseLastTick]
  split <;> exact ⟨rfl, rfl, rfl⟩

theorem bookkeeping_observeGeneration (sample : Sample) :
    g.Bookkeeping 0 (g.observeGeneration sample) := by
  rw [observeGeneration]
  split <;> exact ⟨rfl, rfl, rfl⟩

theorem bookkeeping_countAccept (accept : WindowAccept) :
    g.Bookkeeping 0 (g.countAccept accept) := by
  cases accept <;> exact ⟨rfl, rfl, rfl⟩

theorem bookkeeping_findOrCreate {g' : Governor} {key : StreamKey} {entry : StreamEntry}
    (h : g.findOrCreate key = .ok (entry, g')) : g.Bookkeeping 0 g' := by
  rw [findOrCreate] at h
  split at h
  · cases h
    exact ⟨rfl, rfl, rfl⟩
  · split at h
    · cases h
    · cases h
      exact ⟨rfl, rfl, rfl⟩

end

variable {ok : Governor → Phase → BurstEvent → Prop} {absent : Option EventId}

theorem Deeds.quiet {g g' : Governor} {n : ℕ} (same : g.Bookkeeping n g') :
    Deeds ok ⟨g, absent⟩ ⟨g', absent⟩ := .single (.quiet same)

/-- A record of what bookkeeping prepared. -/
theorem Deeds.noted {g g₁ : Governor} {n : ℕ} (same : g.Bookkeeping (n + 1) g₁)
    (hw : g₁.WellFormed) {type : RecordType} (htype : Aside type) {payload : Bytes}
    (hlen : payload.length ≤ Limits.maxJournalRecordBytes) (now : Tick) :
    Deeds ok ⟨g, absent⟩ ⟨g₁.journalRecord type payload now, absent⟩ :=
  .single (.noted same hw htype hlen now absent)

theorem length_authorityPayload_le (g : Governor) :
    g.authorityPayload.length ≤ Limits.maxJournalRecordBytes := by
  have hlength : g.authorityPayload.length = 20 := by simp [authorityPayload]
  rw [hlength]
  decide

theorem length_encodeIntent_le (i : InterventionIntent) :
    (encodeIntent i).length ≤ Limits.maxJournalRecordBytes := by
  rw [length_encodeIntent]
  decide

/-! ### Sweeps -/

theorem deeds_sweepTurn {s : Sweep} (h : s.governor.WellFormed)
    (fate : InterventionIntent → Core.Fate) (now : Tick) (id : InterventionId) :
    Deeds ok ⟨s.governor, absent⟩ ⟨(sweepTurn fate now s id).governor, absent⟩ := by
  rw [sweepTurn]
  cases hfind : s.governor.interventions.find? id with
  | none => exact .refl
  | some intent =>
    dsimp only
    cases fate intent with
    | keep => exact .refl
    | drop => exact .refl
    | retire verdict =>
      exact Deeds.noted (s.governor.bookkeeping_retiring intent verdict now)
        (wellFormed_retiring h (h.interventions.find? hfind) verdict now) (Or.inr (Or.inl rfl)) (length_encodeIntent_le _) _

theorem deeds_refreshAuthorityLocked {g : Governor} (h : g.WellFormed) (now : Tick)
    (onlyEvent : EventId := default) :
    Deeds ok ⟨g, absent⟩ ⟨(g.refreshAuthorityLocked now onlyEvent).1, absent⟩ := by
  have hfold : ∀ (ids : List InterventionId) (s : Sweep), s.governor.WellFormed →
      Deeds ok ⟨s.governor, absent⟩ ⟨(ids.foldl (refreshIntent now onlyEvent) s).governor, absent⟩ := by
    intro ids
    induction ids with
    | nil => exact fun s _ => .refl
    | cons id ids ih =>
      intro s hs
      refine Relation.ReflTransGen.trans ?_ (ih _ (wellFormed_refreshIntent hs now onlyEvent id))
      rw [refreshIntent_eq (c := s.governor.core) rfl]
      exact deeds_sweepTurn hs _ now id
  exact (hfold g.interventions.keys { governor := g } h).tail (.quiet (n := 0) ⟨rfl, rfl, rfl⟩)

theorem deeds_revokeAllLiveLocked {g : Governor} (h : g.WellFormed) (verdict : AuthorityVerdict)
    (now : Tick) : Deeds ok ⟨g, absent⟩ ⟨g.revokeAllLiveLocked verdict now, absent⟩ := by
  have hfold : ∀ (ids : List InterventionId) (s : Sweep), s.governor.WellFormed →
      Deeds ok ⟨s.governor, absent⟩
        ⟨(ids.foldl (sweepTurn (Core.revokeFate verdict) now) s).governor, absent⟩ := by
    intro ids
    induction ids with
    | nil => exact fun s _ => .refl
    | cons id ids ih =>
      exact fun s hs => (deeds_sweepTurn hs _ now id).trans (ih _ (wellFormed_sweepTurn hs _ now id))
  rw [revokeAllLiveLocked, revokeIntent_eq]
  exact (hfold g.interventions.keys { governor := g } h).tail (.quiet (n := 0) ⟨rfl, rfl, rfl⟩)

/-! ### Requesting intents -/

theorem deeds_requestKind {r : Requesting} (h : r.governor.WellFormed)
    {decision : DetectionDecision} (hseverity : isValidSeverity decision.severity.raw)
    (hstream : decision.stream.valid) (now : Tick) {policy : InterventionPolicy}
    (hpolicy : ∀ kind, (policy.kinds kind).enabled = true → Decodable (policy.kinds kind))
    (kind : InterventionKind) :
    Deeds ok ⟨r.governor, absent⟩ ⟨(requestKind decision now policy r kind).governor, absent⟩ := by
  rw [requestKind]
  split
  · exact Deeds.quiet (n := 0) ⟨rfl, rfl, rfl⟩
  · rename_i hsuppressed
    have hlimit : Decodable (policy.kinds kind) := by
      refine hpolicy kind ?_
      rw [kindSuppressed] at hsuppressed
      simp only [Bool.or_eq_true, not_or, Bool.not_eq_true, Bool.not_eq_false'] at hsuppressed
      exact hsuppressed.1.1
    split
    · rename_i intent hlive
      have hmem : intent ∈ r.governor.interventions.values := List.mem_of_find?_eq_some hlive
      exact Deeds.noted (r.governor.bookkeeping_renewing decision now _ intent)
        (wellFormed_renewing h hseverity now hlimit (h.interventions _ hmem)) (Or.inr (Or.inl rfl)) (length_encodeIntent_le _) _
    · split
      · exact Deeds.quiet (n := 0) ⟨rfl, rfl, rfl⟩
      · exact Deeds.noted (r.governor.bookkeeping_issuing decision now kind _)
          (wellFormed_issuing h hseverity hstream now kind hlimit) (Or.inl rfl) (length_encodeIntent_le _) _

theorem deeds_maybeRequest {g : Governor} (h : g.WellFormed) {decision : DetectionDecision}
    (hseverity : isValidSeverity decision.severity.raw) (hstream : decision.stream.valid)
    (now : Tick) :
    Deeds ok ⟨g, absent⟩ ⟨g.maybeRequestInterventionsLocked decision now, absent⟩ := by
  have hpolicy : ∀ kind, ((g.policies.resolve decision.stream.resource).intervention.kinds
      kind).enabled = true → Decodable ((g.policies.resolve
        decision.stream.resource).intervention.kinds kind) := fun kind henabled =>
    decodable_of_validate (h.policies.valid _ (g.policies.resolve_mem_installed _)) henabled
  rw [maybeRequestInterventionsLocked]
  split
  · exact Deeds.quiet (n := 0) ⟨rfl, rfl, rfl⟩
  · have hfold : ∀ (kinds : List InterventionKind) (r : Requesting), r.governor.WellFormed →
        Deeds ok ⟨r.governor, absent⟩ ⟨(kinds.foldl (requestKind decision now
          (g.policies.resolve decision.stream.resource).intervention) r).governor, absent⟩ := by
      intro kinds
      induction kinds with
      | nil => exact fun r _ => .refl
      | cons kind kinds ih =>
        intro r hr
        exact (deeds_requestKind hr hseverity hstream now hpolicy kind).trans
          (ih _ (wellFormed_requestKind hr hseverity hstream now hpolicy kind))
    exact hfold InterventionKind.all
      { governor := g
        liveForStream := g.liveInterventions.countP fun i => i.stream = decision.stream
        liveTotal := g.liveInterventions.length } h

/-! ### Decisions -/

/-- What is known of the event of a decision, in each of its phases. -/
structure Mirrors (ok : Governor → Phase → BurstEvent → Prop) (g : Governor) (d : Detector)
    (r : DetectionDecision) : Prop where
  opened : r.opened = true → ∀ g', g'.openEvents = g.openEvents → ok g' .opened (g'.decisionEvent d r)
  updated : r.updated = true → r.opened = false → r.closed = false →
    ∀ g', g'.openEvents = g.openEvents → ok g' .updated (g'.decisionEvent d r)
  closed : r.closed = true → ∀ g₁ g' : Governor, ok g' .closed (g₁.decisionEvent d r)

theorem deeds_closeEpisodeLocked {g : Governor} (h : g.WellFormed) {event : BurstEvent}
    (he : event.WellFormed) (hok : ∀ g', ok g' .closed event) (fenced : Bool) (now : Tick) :
    Deeds ok ⟨g, none⟩ ⟨g.closeEpisodeLocked event fenced now, none⟩ := by
  have herased : { g with openEvents := g.openEvents.erase event.id }.WellFormed :=
    ⟨h.policies, h.indexed, h.detectors, h.openEvents.erase, h.history, h.interventions, h.retired⟩
  rw [closeEpisodeLocked_eq]
  refine Relation.ReflTransGen.head (.left g event.id) ?_
  exact (deeds_refreshAuthorityLocked herased now event.id).tail
    (.committed (wellFormed_refreshAuthorityLocked herased now event.id) he (hok _) fenced now)

theorem deeds_processDecisionLocked {g : Governor} (h : g.WellFormed) {d : Detector}
    {decision : DetectionDecision} (hd : Detector.Sound d decision) (hok : Mirrors ok g d decision)
    (now : Tick) : Deeds ok ⟨g, none⟩ ⟨g.processDecisionLocked d decision now, none⟩ := by
  have hstream : decision.stream.valid := by rw [hd.stream]; exact hd.key
  unfold processDecisionLocked
  extract_lets _ g₁ event g₂ g₃
  have h₁ : g₁.WellFormed := h.congr rfl
  have hevent : decision.mirrors = true → event.WellFormed := g₁.wellFormed_decisionEvent hd
  have hfirst : g₂.WellFormed ∧ Deeds ok ⟨g, none⟩ ⟨g₂, none⟩ := by
    have hstart : Deeds ok ⟨g, none⟩ ⟨g₁, none⟩ := Deeds.quiet (n := 0) ⟨rfl, rfl, rfl⟩
    dsimp only [g₂]
    split
    · rename_i hopened
      have he := hevent (by rw [DetectionDecision.mirrors, hopened]; rfl)
      exact ⟨wellFormed_openEpisodeLocked h₁ he now,
        hstart.tail (.opened h₁ he (hok.opened hopened g₁ rfl) now)⟩
    · rename_i hopened
      split
      · rename_i hupdated
        rw [Bool.and_eq_true, Bool.not_eq_true'] at hupdated
        have he := hevent (by rw [DetectionDecision.mirrors, hupdated.1, Bool.or_true]; rfl)
        exact ⟨wellFormed_assignOpen h₁ he, hstart.tail
          (.updated (hok.updated hupdated.1 (by simpa using hopened) hupdated.2 g₁ rfl))⟩
      · exact ⟨h₁, hstart⟩
  obtain ⟨h₂, hfirst⟩ := hfirst
  have hsecond : g₃.WellFormed ∧ Deeds ok ⟨g, none⟩ ⟨g₃, none⟩ := by
    dsimp only [g₃]
    split
    · rename_i hclosed
      have he := hevent (by rw [DetectionDecision.mirrors, hclosed, Bool.or_true])
      exact ⟨wellFormed_closeEpisodeLocked h₂ he _ now, hfirst.trans
        (deeds_closeEpisodeLocked h₂ he (hok.closed hclosed g₁) _ now)⟩
    · exact ⟨h₂, hfirst⟩
  obtain ⟨h₃, hsecond⟩ := hsecond
  split
  · exact hsecond.trans (deeds_maybeRequest h₃ hd.severity hstream now)
  · exact hsecond

/-! ### Evidence and time -/

/-- The decision that the governor mirrors, where it has not processed its tick yet. -/
theorem deeds_mirrorDecision {g : Governor} (h : g.WellFormed) (key : StreamKey)
    {entry : StreamEntry} (hentry : entry.detector.WellFormed) {decision : DetectionDecision}
    (hd : Detector.Sound entry.detector decision)
    (hok : StreamEntry.unprocessed entry decision.tick = true → Mirrors ok g entry.detector decision)
    (now : Tick) : Deeds ok ⟨g, none⟩ ⟨(g.mirrorDecision key entry decision now).1, none⟩ := by
  rw [mirrorDecision]
  split
  · rename_i hprocess
    have hmarked : (g.setEntry key { entry with
        hasProcessed := true, lastProcessed := decision.tick }).WellFormed :=
      wellFormed_setEntry h key hentry
    have hmirrors : Mirrors ok (g.setEntry key { entry with
        hasProcessed := true, lastProcessed := decision.tick }) entry.detector decision := by
      obtain ⟨hopened, hupdated, hclosed⟩ := hok hprocess
      exact ⟨hopened, hupdated, hclosed⟩
    have hset : Deeds ok ⟨g, none⟩ ⟨g.setEntry key { entry with
        hasProcessed := true, lastProcessed := decision.tick }, none⟩ := Deeds.quiet (n := 0) ⟨rfl, rfl, rfl⟩
    exact hset.trans (deeds_processDecisionLocked hmarked hd hmirrors now)
  · exact Deeds.quiet (n := 0) ⟨rfl, rfl, rfl⟩

/-- The entry a sample is offered to: that of its stream, or a fresh one. -/
def Offered (g : Governor) (key : StreamKey) (entry : StreamEntry) : Prop :=
  g.streams.find? key = some entry ∨
    g.streams.find? key = none ∧ entry = g.core.freshEntry key

theorem offered_of_findOrCreate {g g' : Governor} {key : StreamKey} {entry : StreamEntry}
    (h : g.findOrCreate key = .ok (entry, g')) : g.Offered key entry := by
  rw [findOrCreate] at h
  cases hfind : g.streams.find? key with
  | some old =>
    simp only [hfind, Except.ok.injEq, Prod.mk.injEq] at h
    exact Or.inl (h.1 ▸ hfind)
  | none =>
    simp only [hfind] at h
    split at h
    · cases h
    · cases h
      exact Or.inr ⟨hfind, rfl⟩

theorem deeds_ingest {g : Governor} (h : g.WellFormed) (sample : Sample)
    (hok : ∀ entry d' r, g.Offered sample.stream entry → entry.detector.ingest sample = .ok (d', r) →
      StreamEntry.unprocessed { entry with detector := d' } r.tick = true → Mirrors ok g d' r) :
    Deeds ok ⟨g, none⟩ ⟨(g.ingest sample).2, none⟩ := by
  rw [ingest]
  cases hvalid : validateSample sample with
  | error e => exact Deeds.quiet (n := 0) ⟨rfl, rfl, rfl⟩
  | ok _ =>
    cases hfound : g.findOrCreate sample.stream with
    | error e => exact Deeds.quiet (n := 0) ⟨rfl, rfl, rfl⟩
    | ok found =>
      obtain ⟨entry, g₁⟩ := found
      have hoffered := offered_of_findOrCreate hfound
      obtain ⟨hentry, h₁⟩ := wellFormed_findOrCreate h (valid_of_validateSample hvalid) hfound
      have h₂ := wellFormed_observeGeneration h₁ sample
      have hkept₂ : g.Bookkeeping 0 (g₁.observeGeneration sample) :=
        (g.bookkeeping_findOrCreate hfound).trans (g₁.bookkeeping_observeGeneration sample)
      cases hingest : entry.detector.ingest sample with
      | error e =>
        simp only [hingest]
        exact Deeds.quiet (n := 0) ⟨hkept₂.face, hkept₂.failures, hkept₂.announced⟩
      | ok result =>
        obtain ⟨detector, decision⟩ := result
        obtain ⟨hdetector, hsound⟩ := Detector.wellFormed_ingest hentry hingest
        simp only [hingest]
        have h₃ : ((g₁.observeGeneration sample).countAccept detector.lastAccept).WellFormed :=
          h₂.congr rfl
        have hkept₃ : g.Bookkeeping 0
            ((g₁.observeGeneration sample).countAccept detector.lastAccept) :=
          hkept₂.trans (bookkeeping_countAccept _ _)
        generalize (g₁.observeGeneration sample).countAccept detector.lastAccept = g₃ at *
        have hentry' : ({ entry with detector } : StreamEntry).detector.WellFormed := hdetector
        have hmirrors : StreamEntry.unprocessed { entry with detector } decision.tick = true →
            Mirrors ok g₃ detector decision := by
          intro hprocess
          obtain ⟨hopened, hupdated, hclosed⟩ := hok entry detector decision hoffered hingest hprocess
          have hsame : g₃.openEvents = g.openEvents := congrArg Face.openEvents hkept₃.face
          rw [← hsame] at hopened hupdated
          exact ⟨hopened, hupdated, hclosed⟩
        have hdeeds := deeds_mirrorDecision h₃ sample.stream hentry' hsound hmirrors decision.tick
        have h₄ := wellFormed_mirrorDecision h₃ sample.stream hentry' hsound decision.tick
        generalize g₃.mirrorDecision sample.stream { entry with detector } decision decision.tick =
          mirrored at *
        obtain ⟨g₄, evaluated⟩ := mirrored
        dsimp only at h₄ hdeeds ⊢
        have hraised : (if evaluated = true then g₄.raiseLastTick decision.tick else g₄).WellFormed ∧
            g₄.Bookkeeping 0 (if evaluated = true then g₄.raiseLastTick decision.tick else g₄) := by
          split
          · exact ⟨wellFormed_raiseLastTick h₄ _, g₄.bookkeeping_raiseLastTick _⟩
          · exact ⟨h₄, rfl, rfl, rfl⟩
        exact (Deeds.quiet hkept₃).trans ((hdeeds.tail (.quiet hraised.2)).trans
          (deeds_refreshAuthorityLocked hraised.1 _))

section

variable {g : Governor} {now : Tick} {I : Governor → Prop}

/-- What an advance visits: the streams whose clock is behind, each with the entry it had at first. -/
structure Visits (g : Governor) (now : Tick) (g₁ : Governor) (key : StreamKey) (entry : StreamEntry) :
    Prop where
  wellFormed : g₁.WellFormed
  keyed : g₁.core.Keyed
  found : g₁.streams.find? key = some entry
  first : g.streams.find? key = some entry
  fresh : entry.detector.freshAt now = true

/-- The governor after one visit. -/
def visited (g : Governor) (now : Tick) (key : StreamKey) (entry : StreamEntry) : Governor :=
  (g.mirrorDecision key { entry with detector := (entry.detector.evaluateFresh now).1 }
    (entry.detector.evaluateFresh now).2 now).1

/-- The loop of an advance, visit by visit: what every visit keeps is known at each. -/
theorem deeds_foldl_advanceStream
    (hkeep : ∀ g₁ key entry, I g₁ → g.Visits now g₁ key entry → I (g₁.visited now key entry))
    (hok : ∀ g₁ key entry, I g₁ → g.Visits now g₁ key entry →
      Mirrors ok g₁ (entry.detector.evaluateFresh now).1 (entry.detector.evaluateFresh now).2) :
    ∀ (keys : List StreamKey) (acc : Governor × AdvanceResult), keys.Nodup → acc.1.WellFormed →
      acc.1.core.Keyed → (∀ key ∈ keys, acc.1.streams.find? key = g.streams.find? key) → I acc.1 →
        Deeds ok ⟨acc.1, none⟩ ⟨(keys.foldl (advanceStream now) acc).1, none⟩
  | [], _, _, _, _, _, _ => .refl
  | key :: keys, acc, hnodup, h, hkeyed, hfirst, hI => by
    obtain ⟨hnotin, hnodup⟩ := List.nodup_cons.mp hnodup
    have hturn : I (advanceStream now acc key).1 ∧ (advanceStream now acc key).1.core.Keyed ∧
        (∀ key' ∈ keys, (advanceStream now acc key).1.streams.find? key' = g.streams.find? key') ∧
        Deeds ok ⟨acc.1, none⟩ ⟨(advanceStream now acc key).1, none⟩ := by
      have hrest : ∀ key' ∈ keys, acc.1.streams.find? key' = g.streams.find? key' := fun key' hkey' =>
        hfirst key' (List.mem_cons_of_mem _ hkey')
      rw [advanceStream]
      obtain ⟨g₁, result⟩ := acc
      dsimp only at h hkeyed hfirst hI hrest ⊢
      cases hfind : g₁.streams.find? key with
      | none => exact ⟨hI, hkeyed, hrest, .refl⟩
      | some entry =>
        dsimp only
        cases hfresh : entry.detector.freshAt now with
        | false => exact ⟨hI, hkeyed, hrest, .refl⟩
        | true =>
          have hvisits : g.Visits now g₁ key entry :=
            ⟨h, hkeyed, hfind, (hfirst key (by simp)).symm.trans hfind, hfresh⟩
          obtain ⟨hdetector, hsound⟩ := Detector.wellFormed_evaluate (h.detectors key entry hfind) now
          have hcore := (core_mirrorDecision hkeyed key
            { entry with detector := (entry.detector.evaluateFresh now).1 }
            (entry.detector.evaluateFresh now).2 now).1
          have hkept := hkeep g₁ key entry hI hvisits
          have hmirrors := hok g₁ key entry hI hvisits
          rw [Detector.advance]
          rw [Detector.evaluate_fresh hfresh] at hdetector hsound ⊢
          rw [visited] at hkept
          have hentry : ({ entry with
              detector := (entry.detector.evaluateFresh now).1 } : StreamEntry).detector.WellFormed :=
            hdetector
          have hdeeds := deeds_mirrorDecision h key hentry hsound (fun _ => hmirrors) now
          generalize entry.detector.evaluateFresh now = evaluated at *
          refine ⟨hkept, ?_, fun key' hkey' => ?_, hdeeds⟩
          · exact hcore ▸ Core.keyed_mirrorDecision hkeyed key _ _ now
          · have hstreams := congrArg Core.streams hcore
            rw [Core.streams_mirrorDecision] at hstreams
            change (g₁.mirrorDecision key { entry with detector := evaluated.1 } evaluated.2
              now).1.streams = _ at hstreams
            have hne : key' ≠ key := fun heq => hnotin (heq ▸ hkey')
            change (g₁.mirrorDecision key { entry with detector := evaluated.1 } evaluated.2
              now).1.streams.find? key' = _
            rw [hstreams, OrderedMap.find?_insert_of_ne _ _ hne]
            exact hrest key' hkey'
    obtain ⟨hI', hkeyed', hfirst', hdeeds⟩ := hturn
    exact hdeeds.trans (deeds_foldl_advanceStream hkeep hok keys _ hnodup
      (wellFormed_advanceStream h now key) hkeyed' hfirst' hI')

theorem deeds_advance (h : g.WellFormed) (hkeyed : g.core.Keyed) (hI : I g)
    (hkeep : ∀ g₁ key entry, I g₁ → g.Visits now g₁ key entry → I (g₁.visited now key entry))
    (hok : ∀ g₁ key entry, I g₁ → g.Visits now g₁ key entry →
      Mirrors ok g₁ (entry.detector.evaluateFresh now).1 (entry.detector.evaluateFresh now).2) :
    Deeds ok ⟨g, none⟩ ⟨(g.advance now).2, none⟩ := by
  have hfold := deeds_foldl_advanceStream hkeep hok g.streams.keys (g, {}) g.streams.nodup_keys h
    hkeyed (fun _ _ => rfl) hI
  have hw : (g.streams.keys.foldl (advanceStream now) (g, {})).1.WellFormed := by
    have hall : ∀ (keys : List StreamKey) (acc : Governor × AdvanceResult), acc.1.WellFormed →
        (keys.foldl (advanceStream now) acc).1.WellFormed := by
      intro keys
      induction keys with
      | nil => exact fun acc hacc => hacc
      | cons key keys ih => exact fun acc hacc => ih _ (wellFormed_advanceStream hacc now key)
    exact hall _ (g, {}) h
  rw [advance]
  generalize g.streams.keys.foldl (advanceStream now) (g, {}) = folded at *
  obtain ⟨g₁, result⟩ := folded
  exact (hfold.trans (deeds_refreshAuthorityLocked hw now)).tail
    (.quiet (bookkeeping_raiseLastTick _ now))

end

/-! ### Configuration without policies -/

/-- A governor under a new authority, whose intents are not revalidated yet. -/
def rebound (g : Governor) (epoch : Epoch) (incarnation : IncarnationId) (boot : BootId) : Governor :=
  { g with
    context := { g.context with epoch, incarnation, boot }
    stats := { g.stats with authorityChanges := g.stats.authorityChanges + 1 } }

/-- A rebinding is refused, or the intents are revalidated and the new authority is recorded. -/
theorem bindAuthority_cases {g : Governor} (h : g.WellFormed) (epoch : Epoch)
    (incarnation : IncarnationId) (boot : BootId) :
    (!epoch.valid ∨ epoch.raw = 0) ∧
      (∃ e, g.bindAuthority epoch incarnation boot = (.error e, g)) ∨
    ¬(!epoch.valid ∨ epoch.raw = 0) ∧ ∃ g₁ : Governor, g₁.WellFormed ∧
      ((g.rebound epoch incarnation boot).refreshAuthorityLocked g.lastTick).1.Bookkeeping 1 g₁ ∧
      g.bindAuthority epoch incarnation boot =
        (.ok (), g₁.journalRecord .authorityBound g₁.authorityPayload g₁.lastTick) := by
  rw [bindAuthority]
  split
  · rename_i hrefused
    exact Or.inl ⟨hrefused, _, rfl⟩
  · rename_i hrefused
    have hbound : (g.rebound epoch incarnation boot).WellFormed := h.congr rfl
    have hrefreshed := wellFormed_refreshAuthorityLocked hbound g.lastTick
    exact Or.inr ⟨hrefused, _, wellFormed_pushEmissionLocked hrefreshed _,
      Bookkeeping.push (n := 0) ⟨rfl, rfl, rfl⟩ _, rfl⟩

theorem deeds_setResourceGeneration {g : Governor} (h : g.WellFormed) (resource : ResourceId)
    (generation : ResourceGeneration) :
    Deeds ok ⟨g, none⟩ ⟨(g.setResourceGeneration resource generation).2, none⟩ := by
  rw [setResourceGeneration]
  split
  · exact .refl
  · refine Relation.ReflTransGen.head (.quiet (n := 0) ?_) (deeds_refreshAuthorityLocked ?_ _)
    · exact ⟨rfl, rfl, rfl⟩
    · exact h.congr rfl

theorem deeds_setInterventionsEnabled {g : Governor} (h : g.WellFormed) (enabled : Bool) :
    Deeds ok ⟨g, none⟩ ⟨g.setInterventionsEnabled enabled, none⟩ := by
  rw [setInterventionsEnabled]
  dsimp only
  split
  · refine Relation.ReflTransGen.head (.quiet (n := 0) ?_) (deeds_revokeAllLiveLocked ?_ _ _)
    · exact ⟨rfl, rfl, rfl⟩
    · exact h.congr rfl
  · exact Deeds.quiet (n := 0) ⟨rfl, rfl, rfl⟩

/-! ### What rearming leaves alone -/

/-- The policies, the count of records, the store and the epoch. -/
def binding (g : Governor) : PolicySet × RecordSeq × Option DurableStore × Epoch :=
  (g.policies, g.recordSeq, g.store, g.context.epoch)

theorem binding_pushEmissionLocked (g : Governor) (e : Emission) :
    (g.pushEmissionLocked e).binding = g.binding := by
  rw [pushEmissionLocked]
  split <;> rfl

theorem binding_recordEventLocked (g : Governor) (event : BurstEvent) :
    (g.recordEventLocked event).binding = g.binding := by
  rw [recordEventLocked]
  dsimp only
  split <;> rfl

theorem binding_rearmStream (g : Governor) (key : StreamKey) :
    (g.rearmStream key).binding = g.binding := by
  rw [rearmStream]
  split
  · rfl
  · dsimp only
    split
    · rw [binding_pushEmissionLocked]
      exact binding_recordEventLocked _ _
    · rfl

theorem binding_foldl_rearmStream : ∀ (keys : List StreamKey) (g : Governor),
    (keys.foldl rearmStream g).binding = g.binding
  | [], _ => rfl
  | key :: keys, g => (binding_foldl_rearmStream keys (g.rearmStream key)).trans
      (g.binding_rearmStream key)

/-- Opening an episode is bookkeeping and a record. -/
theorem openEpisodeLocked_cases (g : Governor) (event : BurstEvent) (now : Tick) :
    ∃ g₁ : Governor, g₁.binding = g.binding ∧
      (g.WellFormed → event.WellFormed → g₁.WellFormed) ∧
      g.openEpisodeLocked event now = g₁.journalRecord .episodeOpened (encodeEvent event) now := by
  refine ⟨_, ?_, fun hw he => ?_, rfl⟩
  · exact binding_pushEmissionLocked _ _
  · refine wellFormed_pushEmissionLocked ?_ _
    exact (wellFormed_assignOpen hw he).congr rfl

/-- So is committing one. -/
theorem commitEpisode_cases (g : Governor) (event : BurstEvent) (fenced : Bool) (now : Tick) :
    ∃ g₁ : Governor, g₁.binding = g.binding ∧
      (g.WellFormed → event.WellFormed → g₁.WellFormed) ∧
      g.commitEpisode event fenced now = g₁.journalRecord
        (if fenced then .episodeFenced else .episodeClosed) (encodeEvent event) now := by
  refine ⟨_, ?_, fun hw he => ?_, rfl⟩
  · refine (binding_pushEmissionLocked _ _).trans (Eq.trans ?_ (binding_recordEventLocked g event))
    split <;> rfl
  · refine wellFormed_pushEmissionLocked ?_ _
    have hrecorded := wellFormed_recordEventLocked hw he
    split <;> exact hrecorded.congr rfl

/-! ### Reached governors -/

/-- What every governor that calls can reach is known for. -/
structure Reached (g : Governor) : Prop where
  wellFormed : g.WellFormed
  keyed : g.core.Keyed

theorem reached_new (hashing : Hashing) (config : GovernorConfig) : (new hashing config).Reached :=
  ⟨wellFormed_new hashing config, keyed_new hashing config⟩

theorem Reached.step {g : Governor} (h : g.Reached) (op : Op) : (g.step op).Reached := by
  refine ⟨wellFormed_step h.wellFormed op, ?_⟩
  by_cases hop : op = .restore
  · subst hop
    exact Core.Restored.keyed g.restored_restore h.keyed
  · rw [core_step h.keyed hop]
    exact Core.keyed_step h.keyed op

theorem Reached.run (ops : List Op) : ∀ {g : Governor}, g.Reached →
    (Runs.run Governor.step g ops).Reached := by
  induction ops with
  | nil => exact fun h => h
  | cons op ops ih => exact fun h => ih (h.step op)

/-- The call leaves the binding of the store alone. -/
def Op.keepsStore : Op → Bool
  | .bindStore _ => false
  | _ => true

end Governor

end Mbg
