import MicroburstGovernor.Governor.IntentTable

/-! Live intents and the authority in force.

    Every operation that changes a component of the authority revalidates the intents, and the
    revalidation compares policy generation and digest exactly. Epoch, incarnation and boot it
    compares only where both are set, so a rebinding from or to an unset identity revokes nothing. -/

namespace Mbg

namespace Core

/-- The identities under which an intent was issued are those in force. -/
structure IdentityInForce (context : AuthorityContext) (authority : AuthorityVector) : Prop where
  epoch : authority.epoch = context.epoch
  incarnation : authority.incarnation = context.incarnation
  boot : authority.boot = context.boot

/-- An intent carries exactly the authority in force. -/
structure AuthorityInForce (context : AuthorityContext) (authority : AuthorityVector) : Prop extends
    IdentityInForce context authority where
  policyGeneration : authority.policyGeneration = context.policyGeneration
  policyDigest : authority.policyDigest = context.policyDigest

instance (context : AuthorityContext) (authority : AuthorityVector) :
    Decidable (AuthorityInForce context authority) :=
  decidable_of_iff
    ((authority.epoch = context.epoch ∧ authority.incarnation = context.incarnation ∧
      authority.boot = context.boot) ∧ authority.policyGeneration = context.policyGeneration ∧
      authority.policyDigest = context.policyDigest)
    ⟨fun ⟨⟨he, hi, hb⟩, hg, hd⟩ => ⟨⟨he, hi, hb⟩, hg, hd⟩,
      fun ⟨⟨he, hi, hb⟩, hg, hd⟩ => ⟨⟨he, hi, hb⟩, hg, hd⟩⟩

/-- Every live intent was issued under the identities in force. -/
def Identified (c : Core) : Prop :=
  ∀ e ∈ c.interventions.entries, e.2.live = true → IdentityInForce c.context e.2.authority

/-- Every live intent carries the authority in force, for an open episode. -/
def Authorized (c : Core) : Prop :=
  ∀ e ∈ c.interventions.entries, e.2.live = true →
    AuthorityInForce c.context e.2.authority ∧ c.openEvents.contains e.2.event = true

theorem Authorized.identified {c : Core} (h : c.Authorized) : c.Identified :=
  fun e he hlive => (h e he hlive).1.toIdentityInForce

/-- A revalidation leaves only intents that carry the authority in force. -/
theorem Identified.refresh {c : Core} (h : c.Identified) (now : Tick) :
    (c.refresh now).Authorized := by
  intro e he hlive
  obtain ⟨hmem, -, hverdict⟩ := mem_refresh.mp he
  obtain ⟨hvalid, hopen⟩ := verdictFor_eq_valid.mp hverdict
  obtain ⟨-, -, -, -, -, hgeneration, hdigest, -, -⟩ := evaluateAuthority_eq_valid.mp hvalid
  exact ⟨⟨h e hmem hlive, hgeneration, hdigest⟩, hopen⟩

theorem Identified.maybeRequest {c : Core} (h : c.Identified) (decision : DetectionDecision)
    (now : Tick) : (c.maybeRequest decision now).Identified := by
  refine maybeRequest_induct (P := Identified) (fun c kind limit intent h hfound e he hlive => ?_)
    (fun c kind limit h e he hlive => ?_) h
  · rcases mem_renew he with he | rfl
    · exact h e he hlive
    · obtain ⟨⟨id, hmem⟩, hlive', -⟩ := mem_of_liveIntentFor hfound
      obtain ⟨hepoch, hincarnation, hboot⟩ := h _ hmem hlive'
      rw [context_renew, authority_refreshedIntent]
      constructor <;> assumption
  · rcases mem_issue he with he | rfl
    · exact h e he hlive
    · rw [context_issue]
      constructor <;> simp only [Governor.newIntent, shell]

theorem Identified.processDecision {c : Core} (h : c.Identified) (d : Detector)
    (decision : DetectionDecision) (now : Tick) : (c.processDecision d decision now).Identified := by
  unfold Core.processDecision
  extract_lets c₁ c₂
  have h₂ : c₂.Identified := by
    intro e he hlive
    have hcontext : c₂.context = c.context :=
      congrArg Base.context (c₁.base_mirrorEpisode (c₁.shell.decisionEvent d decision) decision now)
    rw [hcontext]
    exact h e (mem_mirrorEpisode (c := c₁) he) hlive
  split
  · exact h₂.maybeRequest decision now
  · exact h₂

theorem Identified.mirrorDecision {c : Core} (h : c.Identified) (key : StreamKey)
    (entry : StreamEntry) (decision : DetectionDecision) (now : Tick) :
    (c.mirrorDecision key entry decision now).Identified := by
  rw [Core.mirrorDecision]
  split
  · exact Identified.processDecision (c := c.setEntry key _) h _ decision now
  · exact h

/-- A step that leaves intents, context and open episodes alone. -/
theorem Authorized.congr {c c' : Core} (h : c.Authorized)
    (hinterventions : c'.interventions = c.interventions) (hcontext : c'.context = c.context)
    (hopen : c'.openEvents = c.openEvents) : c'.Authorized := by
  intro e he hlive
  rw [hinterventions] at he
  rw [hcontext, hopen]
  exact h e he hlive

theorem Authorized.findOrCreate {c c₁ : Core} (h : c.Authorized) {key : StreamKey}
    {entry : StreamEntry} (hfound : c.findOrCreate key = some (entry, c₁)) (sample : Sample) :
    (c₁.observeGeneration sample).Authorized := by
  obtain ⟨_, hobserve⟩ := c₁.base_observeGeneration sample
  rw [hobserve]
  rcases findOrCreate_some hfound with ⟨-, rfl⟩ | ⟨-, -, rfl⟩ <;> exact h.congr rfl rfl rfl

theorem Authorized.ingest {c : Core} (h : c.Authorized) (sample : Sample) :
    (c.ingest sample).Authorized := by
  refine ingest_cases h (fun entry c₁ hfound => h.findOrCreate hfound sample)
    fun entry c₁ result _ hfound _ => Identified.refresh ?_ result.2.tick
  have h₂ := (h.findOrCreate hfound sample).identified.mirrorDecision sample.stream
    { entry with detector := result.1 } result.2 result.2.tick
  split
  · rw [raiseLastTick]
    split <;> exact h₂
  · exact h₂

theorem Authorized.raiseLastTick {c : Core} (h : c.Authorized) (tick : Tick) :
    (c.raiseLastTick tick).Authorized := by
  rw [Core.raiseLastTick]
  split <;> exact h

theorem Authorized.advance {c : Core} (h : c.Authorized) (now : Tick) :
    (c.advance now).Authorized := by
  have hfold : (c.streams.keys.foldl (advanceStream now) c).Identified :=
    foldl_advanceStream_induct (P := Identified) (G := fun _ _ => True)
      (fun c key entry h _ _ _ => h.mirrorDecision key _ _ now) h.identified fun _ _ _ => trivial
  exact (hfold.refresh now).raiseLastTick now

theorem Identified.rearm {c : Core} (h : c.Identified) (keys : List StreamKey) :
    (c.rearm keys).Identified := by
  intro e he hlive
  have hcontext : (c.rearm keys).context = c.context := congrArg Base.context (base_rearm keys c)
  have hinterventions : (c.rearm keys).interventions = c.interventions :=
    congrArg IntentView.interventions (intentView_rearm keys c)
  rw [hinterventions] at he
  rw [hcontext]
  exact h e he hlive

theorem Identified.adoptPolicies {c : Core} (h : c.Identified) (policies : PolicySet) :
    (c.adoptPolicies policies).Identified := by
  intro e he hlive
  obtain ⟨hepoch, hincarnation, hboot⟩ := h e he hlive
  exact ⟨hepoch, hincarnation, hboot⟩

end Core

namespace Governor

/-- Every live intent carries exactly the authority in force, for an open episode. -/
def LiveAuthorityInForce (g : Governor) : Prop :=
  ∀ i ∈ g.liveInterventions, Core.AuthorityInForce g.context i.authority ∧
    g.openEvents.contains i.event = true

instance (g : Governor) : Decidable g.LiveAuthorityInForce := by
  unfold LiveAuthorityInForce
  infer_instance

/-- A rebinding that the comparison of identities can see: it is refused, changes an identity between
    two set values, changes none, or finds no live intent. -/
def RebindsVisibly (g : Governor) (epoch : Epoch) (incarnation : IncarnationId) (boot : BootId) :
    Prop :=
  epoch.valid = false ∨ epoch.raw = 0 ∨ g.liveInterventions = [] ∨
    identityChanged g.context.epoch epoch = true ∨
    identityChanged g.context.incarnation incarnation = true ∨
    identityChanged g.context.boot boot = true ∨
    (epoch = g.context.epoch ∧ incarnation = g.context.incarnation ∧ boot = g.context.boot)

/-- A recovery that changes no authority under a live intent. -/
def RecoversAuthority (g : Governor) : Prop :=
  g.liveInterventions = [] ∨ ∀ policies ∈ g.durablePolicies,
    policies.generation = g.context.policyGeneration ∧ policies.digest = g.context.policyDigest

def KeepsAuthority (g : Governor) : Op → Prop
  | .bindAuthority epoch incarnation boot => g.RebindsVisibly epoch incarnation boot
  | .restore => g.RecoversAuthority
  | _ => True

/-- The live intents of the core. -/
theorem mem_liveInterventions {g : Governor} {i : InterventionIntent} :
    i ∈ g.liveInterventions ↔ ∃ e ∈ g.core.interventions.entries, e.2 = i ∧ i.live = true := by
  rw [liveInterventions, List.mem_filter, UnorderedMap.values, List.mem_map]
  constructor
  · rintro ⟨⟨e, he, rfl⟩, hlive⟩; exact ⟨e, he, rfl, hlive⟩
  · rintro ⟨e, he, rfl, hlive⟩; exact ⟨⟨e, he, rfl⟩, hlive⟩

theorem not_live_of_nil {g : Governor} (h : g.liveInterventions = [])
    {e : InterventionId × InterventionIntent} (he : e ∈ g.core.interventions.entries) :
    e.2.live = false := by
  by_contra hlive
  have hmem := mem_liveInterventions.mpr ⟨e, he, rfl, by simpa using hlive⟩
  rw [h] at hmem
  cases hmem

/-- Whatever it compares as changed is revoked, so a visible rebinding leaves no stale identity. -/
theorem authorized_bindAuthority {g : Governor} {epoch : Epoch} {incarnation : IncarnationId}
    {boot : BootId} (hok : g.RebindsVisibly epoch incarnation boot) (h : g.core.Authorized) :
    (g.core.bindAuthority epoch incarnation boot).Authorized := by
  rw [Core.bindAuthority]
  split
  · exact h
  · rename_i haccepted
    intro e he hlive
    obtain ⟨hmem, -, hverdict⟩ := Core.mem_refresh.mp he
    obtain ⟨hvalid, hopen⟩ := Core.verdictFor_eq_valid.mp hverdict
    obtain ⟨-, -, hboot, hincarnation, hepoch, hgeneration, hdigest, -, -⟩ :=
      evaluateAuthority_eq_valid.mp hvalid
    obtain ⟨⟨⟨hepoch', hincarnation', hboot'⟩, -, -⟩, -⟩ := h e hmem hlive
    rw [hboot'] at hboot
    rw [hincarnation'] at hincarnation
    rw [hepoch'] at hepoch
    refine ⟨⟨?_, hgeneration, hdigest⟩, hopen⟩
    rcases hok with hinvalid | hzero | hnone | hchanged | hchanged | hchanged | hsame
    · exact absurd (Or.inl (by simp [hinvalid])) haccepted
    · exact absurd (Or.inr hzero) haccepted
    · rw [not_live_of_nil hnone hmem] at hlive; cases hlive
    · exact absurd (hepoch.symm.trans hchanged) Bool.false_ne_true
    · exact absurd (hincarnation.symm.trans hchanged) Bool.false_ne_true
    · exact absurd (hboot.symm.trans hchanged) Bool.false_ne_true
    · obtain ⟨hepoch'', hincarnation'', hboot''⟩ := hsame
      exact ⟨hepoch'.trans hepoch''.symm, hincarnation'.trans hincarnation''.symm,
        hboot'.trans hboot''.symm⟩

theorem authorized_step {g : Governor} {op : Op} (hop : op ≠ .restore) (hok : g.KeepsAuthority op)
    (h : g.core.Authorized) : (g.core.step op).Authorized := by
  cases op with
  | ingest sample => exact h.ingest sample
  | advance now => exact h.advance now
  | installPolicy policy =>
    rw [Core.step, Core.installPolicy]
    split
    · exact h
    · exact ((h.identified.adoptPolicies _).rearm _).refresh _
  | setResourcePolicy resource policy =>
    rw [Core.step, Core.setResourcePolicy]
    split
    · exact h
    · exact ((h.identified.adoptPolicies _).rearm _).refresh _
  | removeResourcePolicy resource =>
    rw [Core.step, Core.removeResourcePolicy]
    split
    · exact h
    · exact (h.identified.adoptPolicies _).refresh _
  | bindAuthority epoch incarnation boot => exact authorized_bindAuthority hok h
  | setResourceGeneration resource generation =>
    rw [Core.step, Core.setResourceGeneration]
    split
    · exact h
    · apply Core.Identified.refresh
      exact h.identified
  | setInterventionsEnabled enabled =>
    rw [Core.step, Core.setInterventionsEnabled]
    dsimp only
    split
    · exact fun e he hlive => h e (Core.mem_sweep.mp he).1 hlive
    · exact h.congr rfl rfl rfl
  | bindStore store => exact h
  | checkpoint => exact h
  | restore => exact absurd rfl hop
  | drainEmissions => exact h

theorem authorized_restored {g : Governor} {c' : Core} (hok : g.KeepsAuthority .restore)
    (hrestored : g.core.Restored g.durablePolicies c') (h : g.core.Authorized) : c'.Authorized := by
  obtain ⟨_, _, _, _, rfl⟩ := hrestored
  cases hdurable : g.durablePolicies with
  | none => exact h.congr rfl rfl rfl
  | some policies =>
    intro e he hlive
    rcases hok with hnone | hsame
    · rw [not_live_of_nil hnone he] at hlive; cases hlive
    · obtain ⟨hgeneration, hdigest⟩ := hsame policies hdurable
      obtain ⟨⟨⟨hepoch, hincarnation, hboot⟩, hgeneration', hdigest'⟩, hopen⟩ := h e he hlive
      exact ⟨⟨⟨hepoch, hincarnation, hboot⟩, hgeneration'.trans hgeneration.symm,
        hdigest'.trans hdigest.symm⟩, hopen⟩

/-- AUTHORITY IN FORCE: in every run whose rebindings are visible and whose recoveries change no
    authority under a live intent, every live intent carries exactly the authority in force. -/
theorem liveAuthorityInForce_run (hashing : Hashing) (config : GovernorConfig) (ops : List Op)
    (hok : Runs.Meets step KeepsAuthority (Governor.new hashing config) ops) :
    (Runs.run step (Governor.new hashing config) ops).LiveAuthorityInForce := by
  have h := (run_core (I := Core.Authorized) (fun _ _ hop hok _ h => authorized_step hop hok h)
    (fun _ _ hok hrestored _ h => authorized_restored hok hrestored h)
    (keyed_new hashing config) (fun e he => by cases he) hok).2
  intro i hi
  obtain ⟨e, he, rfl, hlive⟩ := mem_liveInterventions.mp hi
  exact h e he hlive

/-- A policy that opens an episode on the second deep sample of a run and asks for pacing. -/
def pacingPolicy : Policy where
  detection :=
    { windowCapacity := 4, minSamplesForClassification := 2, onsetMinSlopeQ16 := 0
      releaseSlopeQ16 := 0, onsetSustainTicks := 1, cooldownTicks := 0 }
  intervention := { requestPacing := ⟨true, 250, 64, SeverityClass.minor⟩ }

def deepSample (tick : UInt64) : Op :=
  .ingest { stream := ⟨⟨1⟩, ⟨1⟩, ⟨1⟩⟩, tick := ⟨tick⟩, depth := 2048 }

/-- Intents issued under an authority that was bound before any evidence. -/
theorem liveAuthorityInForce_run_bound : (Runs.run step (Governor.new .back { policy := pacingPolicy })
    [.bindAuthority ⟨2⟩ ⟨7⟩ ⟨9⟩, deepSample 1, deepSample 2, deepSample 3]).LiveAuthorityInForce :=
  liveAuthorityInForce_run .back _ _
    ⟨Or.inr (Or.inr (Or.inl rfl)), trivial, trivial, trivial, trivial⟩

/-- Binding an incarnation where none was set leaves an intent issued under none in force. -/
theorem unsetIncarnation_outlived :
    ¬ (Runs.run step (Governor.new .back { policy := pacingPolicy })
      [deepSample 1, deepSample 2, deepSample 3,
        .bindAuthority ⟨1⟩ ⟨7⟩ ⟨9⟩]).LiveAuthorityInForce := by decide +kernel

end Governor

end Mbg
