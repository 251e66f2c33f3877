import MicroburstGovernor.Governor.Deeds

/-! The acts that public calls are made of, for what is told of a call by what it announces.

        retire   renew   issue   open   end   sweep   rebind   install

    Between them a call changes nothing of the outbox, of the counters of emissions and of the intents.
    A relation that holds across every act and composes holds across every call but a restore. -/

namespace Mbg

namespace Governor

/-! ### The parcel -/

/-- The emissions that are pending, all that were ever pushed, and the counters about them. -/
structure Outbox where
  pending : List Emission
  sent : List Emission
  emitted : UInt64
  dropped : UInt64

def outbox (g : Governor) : Outbox :=
  ⟨g.emissions, g.ledger.emitted, g.stats.emissionsEmitted, g.stats.emissionsDropped⟩

/-- The counter of the statistics that an emission of a kind raises. -/
def tally (g : Governor) : EmissionKind → UInt64
  | .episodeOpened => g.stats.episodesOpened
  | .episodeClosed => g.stats.episodesClosed
  | .episodeFenced => g.stats.episodesFenced
  | .interventionRequested => g.stats.interventionsRequested
  | .interventionStateChanged => g.stats.interventionsRefreshed + g.stats.interventionsExpired +
      g.stats.interventionsRevoked
  | .authorityBound => g.stats.authorityChanges
  | .policyInstalled => 0

/-- What only the acts change. -/
structure Parcel where
  outbox : Outbox
  tally : EmissionKind → UInt64
  interventions : UnorderedMap InterventionId InterventionIntent
  interventionHistory : List InterventionIntent

def parcel (g : Governor) : Parcel := ⟨g.outbox, g.tally, g.interventions, g.interventionHistory⟩

theorem parcel_appendRecordLocked (g : Governor) (type : RecordType) (payload : Bytes) (tick : Tick) :
    (g.appendRecordLocked type payload tick).parcel = g.parcel := by
  refine appendRecordLocked_induct (P := fun g' => g'.parcel = g.parcel) ?_ ?_ ?_ rfl type payload tick
  · intro g' store h
    exact h
  · intro g' recordSeq h
    exact h
  · intro g' written failures compactions h
    exact h

theorem parcel_journalRecord (g : Governor) (type : RecordType) (payload : Bytes) (tick : Tick) :
    (g.journalRecord type payload tick).parcel = g.parcel := by
  rw [journalRecord]
  split
  · exact g.parcel_appendRecordLocked type payload tick
  · rfl

theorem parcel_recordEventLocked (g : Governor) (event : BurstEvent) :
    (g.recordEventLocked event).parcel = g.parcel := by
  rw [recordEventLocked]
  dsimp only
  split <;> rfl

/-! ### The acts -/

/-- A governor that opened an episode and did not journal it yet. -/
def opening (g : Governor) (event : BurstEvent) (now : Tick) : Governor :=
  pushEmissionLocked
    { g with
      openEvents := g.openEvents.assign g.hashing.openEvents event.id event
      stats := { g.stats with episodesOpened := g.stats.episodesOpened + 1 } }
    { kind := .episodeOpened, event, tick := now }

/-- A governor that recorded the end of an episode and did not journal it yet. -/
def ending (g : Governor) (event : BurstEvent) (fenced : Bool) (now : Tick) : Governor :=
  let g := g.recordEventLocked event
  let g :=
    if fenced then
      { g with stats := { g.stats with episodesFenced := g.stats.episodesFenced + 1 } }
    else { g with stats := { g.stats with episodesClosed := g.stats.episodesClosed + 1 } }
  g.pushEmissionLocked
    { kind := if fenced then .episodeFenced else .episodeClosed, event, tick := now }

/-- A relation that composes and holds across every act. -/
structure ActLaw (R : Governor → Governor → Prop) : Prop where
  trans : ∀ {g g₁ g₂}, R g g₁ → R g₁ g₂ → R g g₂
  quiet : ∀ {g g'}, g'.parcel = g.parcel → R g g'
  retired : ∀ g intent verdict now, R g (retiring g intent verdict now)
  swept : ∀ s : Sweep, R s.governor s.finish
  renewed : ∀ g decision now limit intent, R g (renewing g decision now limit intent)
  issued : ∀ (g : Governor) decision now kind limit,
    g.interventions.size < Limits.maxInterventions → R g (g.issuing decision now kind limit)
  opened : ∀ g event now, R g (opening g event now)
  ended : ∀ g event fenced now, R g (ending g event fenced now)
  installed : ∀ g e, e.kind = .policyInstalled → R g (pushEmissionLocked g e)
  bound : ∀ (g g₁ : Governor) epoch incarnation boot, R (g.rebound epoch incarnation boot) g₁ →
    R g (g₁.pushEmissionLocked { kind := .authorityBound, epoch, incarnation, tick := g₁.lastTick })

namespace ActLaw

section

variable {R : Governor → Governor → Prop} (h : ActLaw R)

include h

theorem refl (g : Governor) : R g g := h.quiet rfl

theorem journal {g g' : Governor} (hact : R g g') (type : RecordType) (payload : Bytes) (tick : Tick) :
    R g (g'.journalRecord type payload tick) :=
  h.trans hact (h.quiet (g'.parcel_journalRecord type payload tick))

/-- What every turn of a loop does, the loop does. -/
theorem foldl {α σ : Type} (state : σ → Governor) {turn : σ → α → σ}
    (hturn : ∀ s a, R (state s) (state (turn s a))) (as : List α) :
    ∀ s, R (state s) (state (as.foldl turn s)) := by
  induction as with
  | nil => exact fun s => h.refl _
  | cons a as ih => exact fun s => h.trans (hturn s a) (ih (turn s a))

variable (g : Governor)

theorem retireInterventionLocked (intent : InterventionIntent) (verdict : AuthorityVerdict)
    (now : Tick) : R g (g.retireInterventionLocked intent verdict now) :=
  h.journal (h.retired g intent verdict now) _ _ _

/-! ### Sweeps and requests -/

theorem refreshIntent (now : Tick) (onlyEvent : EventId) (s : Sweep) (id : InterventionId) :
    R s.governor (Governor.refreshIntent now onlyEvent s id).governor := by
  rw [Governor.refreshIntent]
  split
  · exact h.refl _
  · split_ifs
    · exact h.refl _
    · exact h.refl _
    · dsimp only
      split_ifs
      · exact h.refl _
      · exact h.retireInterventionLocked s.governor _ _ _

theorem refreshAuthorityLocked (now : Tick) (onlyEvent : EventId := default) :
    R g (g.refreshAuthorityLocked now onlyEvent).1 := by
  have hfold := h.foldl Sweep.governor (h.refreshIntent now onlyEvent) g.interventions.keys
    { governor := g }
  exact h.trans hfold (h.swept _)

theorem revokeIntent (verdict : AuthorityVerdict) (now : Tick) (s : Sweep) (id : InterventionId) :
    R s.governor (Governor.revokeIntent verdict now s id).governor := by
  rw [Governor.revokeIntent]
  split
  · exact h.refl _
  · split_ifs
    · exact h.refl _
    · exact h.retireInterventionLocked s.governor _ _ _

theorem revokeAllLiveLocked (verdict : AuthorityVerdict) (now : Tick) :
    R g (g.revokeAllLiveLocked verdict now) := by
  have hfold := h.foldl Sweep.governor (h.revokeIntent verdict now) g.interventions.keys
    { governor := g }
  exact h.trans hfold (h.swept _)

theorem requestKind (decision : DetectionDecision) (now : Tick) (policy : InterventionPolicy)
    (r : Requesting) (kind : InterventionKind) :
    R r.governor (Governor.requestKind decision now policy r kind).governor := by
  rw [Governor.requestKind]
  split
  · exact h.quiet rfl
  · split
    · exact h.journal (h.renewed r.governor _ _ _ _) _ _ _
    · split
      · exact h.quiet rfl
      · rename_i hroom
        simp only [not_or, Nat.not_le, ge_iff_le] at hroom
        exact h.journal (h.issued r.governor _ _ _ _ hroom.2.2) _ _ _

theorem maybeRequest (decision : DetectionDecision) (now : Tick) :
    R g (g.maybeRequestInterventionsLocked decision now) := by
  rw [maybeRequestInterventionsLocked]
  split
  · exact h.quiet rfl
  · exact h.foldl Requesting.governor (h.requestKind decision now _)
      InterventionKind.all { governor := g, liveForStream := _, liveTotal := _ }

/-! ### Decisions -/

theorem openEpisodeLocked (event : BurstEvent) (now : Tick) : R g (g.openEpisodeLocked event now) :=
  h.journal (h.opened g event now) _ _ _

theorem closeEpisodeLocked (event : BurstEvent) (fenced : Bool) (now : Tick) :
    R g (g.closeEpisodeLocked event fenced now) := by
  have herased : R g { g with openEvents := g.openEvents.erase event.id } := h.quiet rfl
  have hrefreshed := h.refreshAuthorityLocked
    { g with openEvents := g.openEvents.erase event.id } now event.id
  exact h.trans (h.trans herased hrefreshed) (h.journal (h.ended _ event fenced now) _ _ _)

theorem processDecisionLocked (d : Detector) (decision : DetectionDecision) (now : Tick) :
    R g (g.processDecisionLocked d decision now) := by
  unfold Governor.processDecisionLocked
  extract_lets _ g₁ event g₂ g₃
  have h₁ : R g g₁ := h.quiet rfl
  have h₂ : R g₁ g₂ := by
    dsimp only [g₂]
    split
    · exact h.openEpisodeLocked g₁ event now
    · split
      · exact h.quiet rfl
      · exact h.refl _
  have h₃ : R g₂ g₃ := by
    dsimp only [g₃]
    split
    · exact h.closeEpisodeLocked g₂ event _ now
    · exact h.refl _
  have hmirrored := h.trans (h.trans h₁ h₂) h₃
  split
  · exact h.trans hmirrored (h.maybeRequest g₃ decision now)
  · exact hmirrored

theorem mirrorDecision (key : StreamKey) (entry : StreamEntry) (decision : DetectionDecision)
    (now : Tick) : R g (g.mirrorDecision key entry decision now).1 := by
  rw [Governor.mirrorDecision]
  split
  · have hset : R g (g.setEntry key { entry with
        hasProcessed := true, lastProcessed := decision.tick }) := h.quiet rfl
    exact h.trans hset (h.processDecisionLocked _ _ _ _)
  · exact h.quiet rfl

/-! ### Evidence and time -/

theorem findOrCreate {g g' : Governor} {key : StreamKey} {entry : StreamEntry}
    (hfound : g.findOrCreate key = .ok (entry, g')) : R g g' := by
  rw [Governor.findOrCreate] at hfound
  split at hfound
  · cases hfound
    exact h.refl _
  · split at hfound
    · cases hfound
    · cases hfound
      exact h.quiet rfl

theorem ingest (sample : Sample) : R g (g.ingest sample).2 := by
  rw [Governor.ingest]
  split
  · exact h.quiet rfl
  · cases hfound : g.findOrCreate sample.stream with
    | error e => exact h.quiet rfl
    | ok found =>
      obtain ⟨entry, g₁⟩ := found
      have hobserved : R g (g₁.observeGeneration sample) := by
        refine h.trans (h.findOrCreate hfound) ?_
        rw [observeGeneration]
        split
        · exact h.quiet rfl
        · exact h.refl _
      dsimp only
      generalize g₁.observeGeneration sample = g₂ at *
      cases entry.detector.ingest sample with
      | error e => exact h.trans hobserved (h.quiet rfl)
      | ok result =>
        obtain ⟨detector, decision⟩ := result
        have hcounted : R g₂ (g₂.countAccept detector.lastAccept) := by
          cases detector.lastAccept <;> exact h.quiet rfl
        have hmirrored := h.mirrorDecision (g₂.countAccept detector.lastAccept) sample.stream
          { entry with detector } decision decision.tick
        dsimp only
        generalize (g₂.countAccept detector.lastAccept).mirrorDecision sample.stream
          { entry with detector } decision decision.tick = mirrored at *
        have hraised : R mirrored.1
            (if mirrored.2 then mirrored.1.raiseLastTick decision.tick else mirrored.1) := by
          split
          · rw [raiseLastTick]
            split
            · exact h.quiet rfl
            · exact h.refl _
          · exact h.refl _
        exact h.trans (h.trans hobserved hcounted)
          (h.trans (h.trans hmirrored hraised) (h.refreshAuthorityLocked _ _))

theorem advanceStream (now : Tick) (acc : Governor × AdvanceResult) (key : StreamKey) :
    R acc.1 (Governor.advanceStream now acc key).1 := by
  rw [Governor.advanceStream]
  split
  · exact h.refl _
  · split
    · exact h.refl _
    · exact h.mirrorDecision acc.1 _ _ _ _

theorem advance (now : Tick) : R g (g.advance now).2 := by
  have hfold := h.foldl Prod.fst (h.advanceStream now) g.streams.keys (g, {})
  rw [Governor.advance]
  generalize g.streams.keys.foldl (Governor.advanceStream now) (g, {}) = folded at *
  have hrefreshed := h.refreshAuthorityLocked folded.1 now
  refine h.trans (h.trans hfold hrefreshed) ?_
  dsimp only
  rw [raiseLastTick]
  split
  · exact h.quiet rfl
  · exact h.refl _

/-! ### Configuration -/

theorem rearmStream (key : StreamKey) : R g (g.rearmStream key) := by
  rw [Governor.rearmStream]
  split
  · exact h.refl _
  · dsimp only
    split
    · refine h.trans ?_ (h.ended _ _ true _)
      exact h.quiet rfl
    · exact h.quiet rfl

theorem adopt (policies : PolicySet) : R g (g.adoptPolicies policies).countPolicyChange :=
  h.quiet rfl

theorem installPolicy (policy : Policy) : R g (g.installPolicy policy).2 := by
  rw [Governor.installPolicy]
  split
  · exact h.refl _
  · rename_i policies _
    have hrearmed := h.foldl id (fun g key => h.rearmStream g key) g.streams.keys
      (g.adoptPolicies policies).countPolicyChange
    have hrefreshed := h.refreshAuthorityLocked (g.streams.keys.foldl Governor.rearmStream
      (g.adoptPolicies policies).countPolicyChange) (g.streams.keys.foldl Governor.rearmStream
      (g.adoptPolicies policies).countPolicyChange).lastTick
    exact h.trans (h.trans (h.trans (h.adopt g policies) hrearmed) hrefreshed)
      (h.journal (h.installed _ _ rfl) _ _ _)

theorem setResourcePolicy (resource : ResourceId) (policy : Policy) :
    R g (g.setResourcePolicy resource policy).2 := by
  rw [Governor.setResourcePolicy]
  split
  · exact h.refl _
  · rename_i policies _
    have hrearmed := h.foldl id (fun g key => h.rearmStream g key)
      ((g.adoptPolicies policies).countPolicyChange.streamsOf resource)
      (g.adoptPolicies policies).countPolicyChange
    exact h.trans (h.trans (h.adopt g policies) hrearmed) (h.refreshAuthorityLocked _ _)

theorem removeResourcePolicy (resource : ResourceId) : R g (g.removeResourcePolicy resource).2 := by
  rw [Governor.removeResourcePolicy]
  split
  · exact h.refl _
  · exact h.trans (h.adopt g _) (h.refreshAuthorityLocked _ _)

theorem bindAuthority (epoch : Epoch) (incarnation : IncarnationId) (boot : BootId) :
    R g (g.bindAuthority epoch incarnation boot).2 := by
  rw [Governor.bindAuthority]
  split
  · exact h.refl _
  · refine h.journal (h.bound g _ epoch incarnation boot ?_) _ _ _
    exact h.refreshAuthorityLocked _ _

theorem setResourceGeneration (resource : ResourceId) (generation : ResourceGeneration) :
    R g (g.setResourceGeneration resource generation).2 := by
  rw [Governor.setResourceGeneration]
  split
  · exact h.refl _
  · refine h.trans ?_ (h.refreshAuthorityLocked _ _)
    exact h.quiet rfl

theorem setInterventionsEnabled (enabled : Bool) : R g (g.setInterventionsEnabled enabled) := by
  rw [Governor.setInterventionsEnabled]
  dsimp only
  split
  · refine h.trans ?_ (h.revokeAllLiveLocked _ _ _)
    exact h.quiet rfl
  · exact h.quiet rfl

theorem bindStore (store : Option DurableStore) : R g (g.bindStore store) := by
  cases store <;> exact h.quiet rfl

theorem checkpoint : R g g.checkpoint.2 := by
  rw [Governor.checkpoint, compactLocked]
  split
  · exact h.refl _
  · dsimp only
    split
    · exact h.refl _
    · exact h.quiet rfl

end

end ActLaw

/-! ### Calls -/

def Op.drains : Op → Bool
  | .drainEmissions => true
  | _ => false

def Op.restores : Op → Bool
  | .restore => true
  | _ => false

/-- STEP: what holds across the acts holds across every call that neither restores nor drains. -/
theorem ActLaw.step {R : Governor → Governor → Prop} (h : ActLaw R) (g : Governor) {op : Op}
    (hrestores : op.restores = false) (hdrains : op.drains = false) : R g (g.step op) := by
  cases op with
  | ingest sample => exact h.ingest g sample
  | advance now => exact h.advance g now
  | installPolicy policy => exact h.installPolicy g policy
  | setResourcePolicy resource policy => exact h.setResourcePolicy g resource policy
  | removeResourcePolicy resource => exact h.removeResourcePolicy g resource
  | bindAuthority epoch incarnation boot => exact h.bindAuthority g epoch incarnation boot
  | setResourceGeneration resource generation =>
    exact h.setResourceGeneration g resource generation
  | setInterventionsEnabled enabled => exact h.setInterventionsEnabled g enabled
  | bindStore store => exact h.bindStore g store
  | checkpoint => exact h.checkpoint g
  | restore => cases hrestores
  | drainEmissions => cases hdrains

end Governor

end Mbg
