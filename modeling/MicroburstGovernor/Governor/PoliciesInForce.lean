import MicroburstGovernor.Governor.CoreFrame
import MicroburstGovernor.Model.Overrides

/-! The policy each detector applies and the policy the installed set resolves for its stream.

    A detector copies its policy when its stream is created and when it is rearmed. Installing a
    fallback rearms every stream, an override rearms the streams of its resource; removing an
    override and recovery rearm none. -/

namespace Mbg

namespace Core

/-- Every detector measures its own stream under the policy resolved for it. -/
structure InForce (c : Core) : Prop where
  indexed : c.policies.Indexed
  applied : ∀ key entry, c.streams.find? key = some entry →
    entry.detector.key = key ∧ entry.detector.policy = c.policies.resolve key.resource

theorem InForce.congr {c c' : Core} (h : c.InForce) (hbase : c'.base = c.base) : c'.InForce := by
  have hpolicies : c'.policies = c.policies := congrArg Base.policies hbase
  have hstreams : c'.streams = c.streams := congrArg Base.streams hbase
  obtain ⟨hindexed, happlied⟩ := h
  rw [← hpolicies] at hindexed happlied
  rw [← hstreams] at happlied
  exact ⟨hindexed, happlied⟩

/-- Setting the entry of a stream that measures it under its policy. -/
theorem InForce.setEntry {c : Core} (h : c.InForce) {key : StreamKey} {entry : StreamEntry}
    (hkey : entry.detector.key = key)
    (hpolicy : entry.detector.policy = c.policies.resolve key.resource) :
    (c.setEntry key entry).InForce := by
  refine ⟨h.indexed, fun key' entry' hfind => ?_⟩
  change (c.streams.insert key entry).find? key' = some entry' at hfind
  rw [OrderedMap.find?_insert] at hfind
  split at hfind
  · rename_i heq
    cases hfind
    subst heq
    exact ⟨hkey, hpolicy⟩
  · exact h.applied key' entry' hfind

theorem InForce.mirrorDecision {c : Core} (h : c.InForce) {key : StreamKey} {entry : StreamEntry}
    (hkey : entry.detector.key = key)
    (hpolicy : entry.detector.policy = c.policies.resolve key.resource)
    (decision : DetectionDecision) (now : Tick) :
    (c.mirrorDecision key entry decision now).InForce := by
  have hset : (c.setEntry key (mirroredEntry entry decision.tick)).InForce := h.setEntry
    (by rw [detector_mirroredEntry]; exact hkey) (by rw [detector_mirroredEntry]; exact hpolicy)
  exact hset.congr (c.base_mirrorDecision key entry decision now)

theorem InForce.raiseLastTick {c : Core} (h : c.InForce) (tick : Tick) :
    (c.raiseLastTick tick).InForce := by
  rw [Core.raiseLastTick]
  split
  · exact ⟨h.indexed, h.applied⟩
  · exact h

theorem InForce.refresh {c : Core} (h : c.InForce) (now : Tick) (onlyEvent : EventId) :
    (c.refresh now onlyEvent).InForce := h.congr (c.base_refresh now onlyEvent)

theorem InForce.findOrCreate {c c₁ : Core} (h : c.InForce) {key : StreamKey} {entry : StreamEntry}
    (hfound : c.findOrCreate key = some (entry, c₁)) : c₁.InForce ∧ entry.detector.key = key ∧
      entry.detector.policy = c₁.policies.resolve key.resource := by
  rcases findOrCreate_some hfound with ⟨hfind, rfl⟩ | ⟨-, rfl, rfl⟩
  · exact ⟨h, h.applied key entry hfind⟩
  · exact ⟨h.setEntry rfl rfl, rfl, rfl⟩

theorem InForce.observeGeneration {c : Core} (h : c.InForce) (sample : Sample) :
    (c.observeGeneration sample).InForce := by
  obtain ⟨_, hobserve⟩ := c.base_observeGeneration sample
  rw [hobserve]
  exact ⟨h.indexed, h.applied⟩

theorem InForce.ingest {c : Core} (h : c.InForce) (sample : Sample) : (c.ingest sample).InForce := by
  refine ingest_cases h (fun entry c₁ hfound => (h.findOrCreate hfound).1.observeGeneration sample)
    fun entry c₁ result _ hfound hingest => ?_
  obtain ⟨h₁, hkey, hpolicy⟩ := h.findOrCreate hfound
  obtain ⟨hkey', hpolicy'⟩ := Detector.setup_ingest hingest
  obtain ⟨_, hobserve⟩ := c₁.base_observeGeneration sample
  have hpolicies : (c₁.observeGeneration sample).policies = c₁.policies := by rw [hobserve]
  rw [← hpolicies] at hpolicy
  have h₂ : ((c₁.observeGeneration sample).mirrorDecision sample.stream
      { entry with detector := result.1 } result.2 result.2.tick).InForce :=
    (h₁.observeGeneration sample).mirrorDecision (hkey'.trans hkey) (hpolicy'.trans hpolicy) _ _
  apply InForce.refresh
  split
  · exact h₂.raiseLastTick _
  · exact h₂

theorem InForce.advance {c : Core} (h : c.InForce) (now : Tick) : (c.advance now).InForce := by
  refine InForce.raiseLastTick (InForce.refresh ?_ now default) now
  refine foldl_advanceStream_induct (P := InForce) (G := fun _ _ => True)
    (fun c key entry h hfind _ _ => ?_) h fun _ _ _ => trivial
  obtain ⟨hkey, hpolicy⟩ := h.applied key entry hfind
  have hset := (entry.detector.evaluated_evaluateFresh now).setup
  exact h.mirrorDecision
    ((congrArg Detector.Setup.key hset).trans hkey)
    ((congrArg Detector.Setup.policy hset).trans hpolicy) _ now

/-! ### Rearming -/

/-- Rearming puts a stream under its policy; the others must be under theirs already. -/
theorem inForce_rearm {c : Core} (hindexed : c.policies.Indexed) {keys : List StreamKey}
    (hkeys : keys.Nodup)
    (h : ∀ key entry, c.streams.find? key = some entry → entry.detector.key = key ∧
      (key ∉ keys → entry.detector.policy = c.policies.resolve key.resource)) :
    (c.rearm keys).InForce := by
  have hpolicies : (c.rearm keys).policies = c.policies := congrArg Base.policies (base_rearm keys c)
  refine ⟨hpolicies ▸ hindexed, fun key entry hfind => ?_⟩
  rw [find?_rearm keys c hkeys] at hfind
  rw [hpolicies]
  split at hfind
  · obtain ⟨entry₀, hfind₀, rfl⟩ := Option.map_eq_some_iff.mp hfind
    have hkey := (h key entry₀ hfind₀).1
    have hr := entry₀.detector.rearmed_rearm (c.policies.resolve entry₀.detector.key.resource)
      c.policies.generation c.lastTick
    refine ⟨hr.key.trans hkey, hr.policy.trans ?_⟩
    rw [hkey]
  · rename_i hnotin
    obtain ⟨hkey, hpolicy⟩ := h key entry hfind
    exact ⟨hkey, hpolicy hnotin⟩

theorem InForce.installPolicy {c : Core} (h : c.InForce) (policy : Policy) :
    (c.installPolicy policy).InForce := by
  rw [Core.installPolicy]
  split
  · exact h
  · rename_i policies hset
    refine InForce.refresh (inForce_rearm (PolicySet.indexed_setFallback h.indexed hset)
      c.streams.nodup_keys fun key entry hfind => ?_) _ default
    exact ⟨(h.applied key entry hfind).1,
      fun hnotin => absurd (OrderedMap.mem_keys_iff.mpr ⟨entry, hfind⟩) hnotin⟩

theorem InForce.setResourcePolicy {c : Core} (h : c.InForce) (resource : ResourceId)
    (policy : Policy) : (c.setResourcePolicy resource policy).InForce := by
  rw [Core.setResourcePolicy]
  split
  · exact h
  · rename_i policies hset
    refine InForce.refresh (inForce_rearm (PolicySet.indexed_setOverride h.indexed hset)
      (c.streams.nodup_keys.filter _) fun key entry hfind => ?_) _ default
    obtain ⟨hkey, hpolicy⟩ := h.applied key entry hfind
    refine ⟨hkey, fun hnotin => ?_⟩
    have hother : key.resource ≠ resource := by
      intro heq
      refine hnotin (List.mem_filter.mpr ⟨OrderedMap.mem_keys_iff.mpr ⟨entry, hfind⟩, ?_⟩)
      have hfind' : (c.adoptPolicies policies).shell.streams.find? key = some entry := hfind
      rw [hfind']
      simp [hkey, heq]
    have hresolve := PolicySet.resolve_setOverride h.indexed hset key.resource
    rw [if_neg hother] at hresolve
    exact hpolicy.trans hresolve.symm

/-- A policy set adopted without rearming: the streams must resolve as they did. -/
theorem InForce.adoptPolicies {c : Core} (h : c.InForce) {policies : PolicySet}
    (hindexed : policies.Indexed)
    (hsame : ∀ key ∈ c.streams.keys, policies.resolve key.resource = c.policies.resolve key.resource) :
    (c.adoptPolicies policies).InForce := by
  refine ⟨hindexed, fun key entry hfind => ?_⟩
  obtain ⟨hkey, hpolicy⟩ := h.applied key entry hfind
  exact ⟨hkey, hpolicy.trans (hsame key (OrderedMap.mem_keys_iff.mpr ⟨entry, hfind⟩)).symm⟩

end Core

namespace Governor

/-- Every detector applies the policy the installed set resolves for its stream. -/
def PoliciesInForce (g : Governor) : Prop :=
  ∀ e ∈ g.streams.entries, e.2.detector.policy = g.policies.resolve e.1.resource

instance (g : Governor) : Decidable g.PoliciesInForce := by
  unfold PoliciesInForce
  infer_instance

/-- No stream loses its policy without a rearm: a removed override was the fallback's twin, measured
    nothing or stays because the generation is exhausted; the durable policies resolve every stream
    as those installed do. -/
def KeepsResolution (g : Governor) : Op → Prop
  | .removeResourcePolicy resource =>
    g.policies.resolve resource = g.policies.fallback ∨ (∀ key ∈ g.streams.keys,
      key.resource ≠ resource) ∨ g.policies.generation.raw = ~~~0
  | .restore => ∀ policies ∈ g.durablePolicies, ∀ key ∈ g.streams.keys,
      policies.resolve key.resource = g.policies.resolve key.resource
  | _ => True

theorem inForce_step {g : Governor} {op : Op} (hop : op ≠ .restore) (hok : g.KeepsResolution op)
    (h : g.core.InForce) : (g.core.step op).InForce := by
  cases op with
  | ingest sample => exact h.ingest sample
  | advance now => exact h.advance now
  | installPolicy policy => exact h.installPolicy policy
  | setResourcePolicy resource policy => exact h.setResourcePolicy resource policy
  | removeResourcePolicy resource =>
    rw [Core.step, Core.removeResourcePolicy]
    split
    · exact h
    · rename_i policies hremove
      refine (h.adoptPolicies (PolicySet.indexed_removeOverride h.indexed hremove)
        fun key hkey => ?_).refresh _ default
      rw [PolicySet.resolve_removeOverride h.indexed hremove]
      split
      · rename_i heq
        rcases hok with htwin | hnone | hexhausted
        · rw [heq]; exact htwin.symm
        · exact absurd heq (hnone key hkey)
        · obtain ⟨_, _, -, hnext, -⟩ := PolicySet.removeOverride_ok hremove
          rw [show g.core.policies.generation.raw = ~~~0 from hexhausted] at hnext
          cases hnext
      · rfl
  | bindAuthority epoch incarnation boot =>
    rw [Core.step, Core.bindAuthority]
    split
    · exact h
    · apply Core.InForce.refresh
      exact ⟨h.indexed, h.applied⟩
  | setResourceGeneration resource generation =>
    rw [Core.step, Core.setResourceGeneration]
    split
    · exact h
    · apply Core.InForce.refresh
      exact ⟨h.indexed, h.applied⟩
  | setInterventionsEnabled enabled =>
    rw [Core.step, Core.setInterventionsEnabled]
    dsimp only
    split <;> exact ⟨h.indexed, h.applied⟩
  | bindStore store => exact h
  | checkpoint => exact h
  | restore => exact absurd rfl hop
  | drainEmissions => exact h

theorem inForce_restored {g : Governor} {c' : Core} (hok : g.KeepsResolution .restore)
    (hrestored : g.core.Restored g.durablePolicies c') (h : g.core.InForce) : c'.InForce := by
  obtain ⟨_, _, _, _, rfl⟩ := hrestored
  cases hdurable : g.durablePolicies with
  | none => exact ⟨h.indexed, h.applied⟩
  | some policies =>
    obtain ⟨_, _, _, hrestore⟩ := durablePolicies_restored hdurable
    have hadopt := h.adoptPolicies (PolicySet.restore_ok hrestore).1 (hok policies hdurable)
    exact ⟨hadopt.indexed, hadopt.applied⟩

theorem inForce_new (hashing : Hashing) (config : GovernorConfig) :
    (Governor.new hashing config).core.InForce := by
  refine ⟨?_, fun key entry h => by cases h⟩
  change (Governor.new hashing config).policies.Indexed
  rw [Governor.new]
  cases h : PolicySet.initial.setFallback config.policy with
  | error failure => exact PolicySet.indexed_initial
  | ok policies => exact PolicySet.indexed_setFallback PolicySet.indexed_initial h

theorem policiesInForce_of_inForce {g : Governor} (h : g.core.InForce) : g.PoliciesInForce :=
  fun e he => (h.applied e.1 e.2 (OrderedMap.find?_eq_some.mpr he)).2

/-- POLICIES IN FORCE: in every run whose removals and recoveries keep the resolution of the streams
    there are, every detector applies the policy resolved for its stream. -/
theorem policiesInForce_run (hashing : Hashing) (config : GovernorConfig) (ops : List Op)
    (hok : Runs.Meets step KeepsResolution (Governor.new hashing config) ops) :
    (Runs.run step (Governor.new hashing config) ops).PoliciesInForce :=
  policiesInForce_of_inForce (run_core (I := Core.InForce)
    (fun _ _ hop hok _ h => inForce_step hop hok h)
    (fun _ _ hok hrestored _ h => inForce_restored hok hrestored h)
    (keyed_new hashing config) (inForce_new hashing config) hok).2

/-- The default policy with another cooldown. -/
def longCooldown : Policy :=
  { makeDefaultPolicy with detection := { cooldownTicks := 64 } }

def oneSample : Sample := { stream := ⟨⟨1⟩, ⟨1⟩, ⟨1⟩⟩, tick := ⟨1⟩, depth := 1 }

/-- An override that comes and goes before its resource is measured. -/
theorem policiesInForce_run_override : (Runs.run step (Governor.new .back {})
    [.setResourcePolicy ⟨1⟩ longCooldown, .removeResourcePolicy ⟨1⟩,
      .ingest oneSample]).PoliciesInForce :=
  policiesInForce_run .back {} _ ⟨trivial, Or.inr (Or.inl (by decide +kernel)), trivial, trivial⟩

/-- A removed override stays in force for the stream that was measured under it. -/
theorem removedOverride_applied : ¬ (Runs.run step (Governor.new .back {})
    [.setResourcePolicy ⟨1⟩ longCooldown, .ingest oneSample,
      .removeResourcePolicy ⟨1⟩]).PoliciesInForce := by decide +kernel

end Governor

end Mbg
