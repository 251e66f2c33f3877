import MicroburstGovernor.Governor.PolicyRecords

/-! Which policies a fresh governor finds in the files, over whole runs.

    An override that was set or removed since the last snapshot is in no file. A run keeps two marks for
    it: whether the files tell the fallback and the generation in force, and whether they tell the
    overrides. -/

namespace Mbg

open DurableStore Framing

/-! ### What is in force after a restore -/

theorem PolicySet.configuration_injective {s s' : PolicySet} (h : s.Restorable)
    (h' : s'.Restorable) (hsame : s.configuration = s'.configuration) : s = s' := by
  have hs := h.policies_configuration
  rw [hsame, h'.policies_configuration] at hs
  exact (Option.some.inj hs).symm

namespace Configuration

theorem configuration_of_policies {c : Configuration} {s : PolicySet} (h : c.policies = some s) :
    s.configuration = c := by
  obtain ⟨fallback, overrides, generation⟩ := c
  cases fallback with
  | none => cases h
  | some fallback =>
    rw [policies, Option.bind_some] at h
    cases hrestore : PolicySet.restore fallback overrides generation with
    | error failure => rw [hrestore] at h; cases h
    | ok policies =>
      rw [hrestore] at h
      obtain rfl := Option.some.inj h
      obtain ⟨-, rfl, rfl, rfl, -⟩ := PolicySet.restore_ok hrestore
      rfl

/-- What is in force after a restore of the configuration by a governor that was configured so. -/
def inForce (configured : PolicySet) (c : Configuration) : Configuration :=
  if c.fallback.isSome then c else configured.configuration

theorem inForce_configuration (configured s : PolicySet) :
    s.configuration.inForce configured = s.configuration := rfl

/-- Records set a fallback and leave the overrides alone. -/
theorem foldl_apply (records : List JournaledRecord) (c : Configuration) :
    (records.foldl apply c).overrides = c.overrides ∧
      ((records.foldl apply c).fallback = none → c.fallback = none) := by
  induction records generalizing c with
  | nil => exact ⟨rfl, id⟩
  | cons record records ih =>
    obtain ⟨hoverrides, hfallback⟩ := ih (c.apply record)
    rw [List.foldl_cons]
    rw [apply] at hoverrides hfallback ⊢
    cases hrecord : recordPolicy record with
    | none =>
      rw [hrecord] at hoverrides hfallback
      exact ⟨hoverrides, hfallback⟩
    | some installed =>
      rw [hrecord] at hoverrides hfallback
      exact ⟨hoverrides, fun hnone => by cases hfallback hnone⟩

/-- Files that tell no fallback tell no override. -/
theorem overrides_ofFiles {files : Files} (h : (ofFiles files).fallback = none) :
    (ofFiles files).overrides = [] := by
  rw [ofFiles] at h ⊢
  obtain ⟨hoverrides, hfallback⟩ := foldl_apply (appliedRecords files)
    ((snapshotState files).elim {} fun state => state.policies.configuration)
  rw [hoverrides]
  have hnone := hfallback h
  cases hstate : snapshotState files with
  | none => rfl
  | some state =>
    rw [hstate] at hnone
    cases hnone

end Configuration

namespace Governor

theorem policies_new (hashing hashing' : Hashing) {config config' : GovernorConfig}
    (h : config'.policy = config.policy) :
    (new hashing' config').policies = (new hashing config).policies := by
  rw [new, new, h]

theorem overrides_policies_new (hashing : Hashing) (config : GovernorConfig) :
    (new hashing config).policies.overrides = [] := by
  rw [new]
  cases hset : PolicySet.initial.setFallback config.policy with
  | error failure => rfl
  | ok policies =>
    obtain ⟨-, next, -, rfl⟩ := PolicySet.setFallback_ok hset
    rfl

/-- Whoever is given a store over the files, and is configured with the same policy, finds these
    policies in force after a restore. -/
def RecoversPolicies (files : Files) (config : GovernorConfig) (policies : PolicySet) : Prop :=
  ∀ hashing config' store s, config'.policy = config.policy →
    (DurableStore.ofFiles files).openStore store = (.ok (), s) →
      ∃ report g', ((new hashing config').bindStore (some s)).restore = (.ok (), report, g') ∧
        g'.policies = policies

theorem recoversPolicies_of_inForce {files : Files} (hwhole : WholeJournal files)
    (hlimits : WithinLimits files) {hashing : Hashing} {config : GovernorConfig}
    {policies : PolicySet} (hrestorable : policies.Restorable)
    (hover : (Configuration.ofFiles files).inForce (new hashing config).policies =
      policies.configuration) : RecoversPolicies files config policies := by
  intro hashing' config' store s hsame hopened
  obtain ⟨report, g', hrestore⟩ :=
    (restores_of_wholeJournal hwhole).mpr hlimits hashing' config' store s hopened
  refine ⟨report, g', hrestore, ?_⟩
  obtain ⟨hs, hsnapshot, hjournal⟩ := whole_openStore hwhole hopened
  have hstore : ((new hashing' config').bindStore (some s)).store = some s := rfl
  obtain ⟨replayed, -, -, -, hreplay, -⟩ := restore_ok hstore hrestore
  have hdurable := durablePolicies_eq hstore hs.isOpen hs.faults hreplay
  have hfound : Configuration.ofFiles s.disk = Configuration.ofFiles files :=
    configuration_congr hsnapshot hjournal
  have hconfigured : ((new hashing' config').bindStore (some s)).policies =
      (new hashing config).policies := policies_new hashing hashing' hsame
  have hpolicies := policies_restore ((new hashing' config').bindStore (some s))
  rw [hrestore, hdurable, hfound, hconfigured] at hpolicies
  refine hpolicies.trans ?_
  rw [Configuration.inForce] at hover
  by_cases hsome : (Configuration.ofFiles files).fallback.isSome = true
  · rw [if_pos hsome] at hover
    rw [hover, hrestorable.policies_configuration]
    rfl
  · rw [if_neg hsome] at hover
    rw [Option.not_isSome_iff_eq_none] at hsome
    rw [Configuration.policies, hsome]
    exact PolicySet.configuration_injective (wellFormed_new hashing config).policies hrestorable hover

/-! ### The journaling governor -/

/-- No call turns the journal off. -/
theorem enableJournal_step {g : Governor} (h : g.Reached) (op : Op) :
    (g.step op).config.enableJournal = g.config.enableJournal := by
  have hrefresh : ∀ (c : Core) (now : Tick), (c.refresh now).config = c.config := fun _ _ => rfl
  have hrearm : ∀ (c : Core) (keys : List StreamKey), (c.rearm keys).config = c.config :=
    fun c keys => congrArg Core.Base.config (Core.base_rearm keys c)
  change (g.step op).core.config.enableJournal = g.core.config.enableJournal
  by_cases hrestore : op = .restore
  · subst hrestore
    obtain ⟨retired, decisionSeq, lastTick, counts, hcore⟩ := g.restored_restore
    rw [hcore]
    cases g.durablePolicies <;> rfl
  · rw [core_step h.keyed hrestore]
    generalize g.core = c
    cases op with
    | ingest sample => exact congrArg (fun s => s.config.enableJournal) (c.settings_ingest sample)
    | advance now => exact congrArg (fun s => s.config.enableJournal) (c.settings_advance now)
    | installPolicy policy =>
      rw [Core.step, Core.installPolicy]
      split
      · rfl
      · dsimp only
        rw [hrefresh, hrearm]
        rfl
    | setResourcePolicy resource policy =>
      rw [Core.step, Core.setResourcePolicy]
      split
      · rfl
      · dsimp only
        rw [hrefresh, hrearm]
        rfl
    | removeResourcePolicy resource =>
      rw [Core.step, Core.removeResourcePolicy]
      split <;> rfl
    | bindAuthority epoch incarnation boot =>
      rw [Core.step, Core.bindAuthority]
      split <;> rfl
    | setResourceGeneration resource generation =>
      rw [Core.step, Core.setResourceGeneration]
      split <;> rfl
    | setInterventionsEnabled enabled =>
      rw [Core.step, Core.setInterventionsEnabled]
      dsimp only
      split <;> rfl
    | bindStore store => rfl
    | checkpoint => rfl
    | restore => exact absurd rfl hrestore
    | drainEmissions => rfl

theorem Records.step {g : Governor} (h : g.Records) {op : Op} (hop : op.keepsStore = true) :
    (g.step op).Records :=
  ⟨h.reached.step op, h.journaled.step h.reached hop,
    (enableJournal_step h.reached op).trans h.enabled⟩

/-! ### What a call does to the policies -/

/-- The call installs a policy. -/
def installs (g : Governor) : Op → Bool
  | .installPolicy policy => (g.policies.setFallback policy).toOption.isSome
  | _ => false

/-- The call sets or removes an override. -/
def overrides (g : Governor) : Op → Bool
  | .setResourcePolicy resource policy => (g.policies.setOverride resource policy).toOption.isSome
  | .removeResourcePolicy resource => (g.policies.removeOverride resource).toOption.isSome
  | _ => false

/-- The call adopts the policies that the files tell. -/
def adopts (g : Governor) : Op → Bool
  | .restore => g.durablePolicies.isSome
  | _ => false

/-- The call puts another snapshot in place. -/
def replacesSnapshot (g : Governor) (op : Op) : Bool :=
  (g.step op).files.snapshot != g.files.snapshot

/-- A call over the bound store that loses no record. An install finds sequences left that the
    snapshot does not cover. -/
def Durably (g : Governor) (op : Op) : Prop :=
  op.keepsStore = true ∧ (g.step op).failures = g.failures ∧
    (g.installs op = true → g.Counts (1 + g.interventions.size))

instance (g : Governor) (op : Op) : Decidable (g.Durably op) := by
  unfold Durably
  infer_instance

/-- A governor, and what the files tell of its policies. -/
structure PolicyLog where
  governor : Governor
  /-- The files tell the fallback in force, and the generation. -/
  stamped : Bool
  /-- The files tell the overrides in force. -/
  saved : Bool

namespace PolicyLog

def step (l : PolicyLog) (op : Op) : PolicyLog where
  governor := l.governor.step op
  stamped := l.governor.replacesSnapshot op || l.governor.adopts op || l.governor.installs op ||
    (l.stamped && !l.governor.overrides op)
  saved := l.governor.replacesSnapshot op || l.governor.adopts op ||
    (l.saved && !l.governor.overrides op)

/-- A governor that is given a store. -/
def bind (g : Governor) (s : DurableStore) : PolicyLog where
  governor := g.bindStore (some s)
  stamped := (Configuration.ofFiles s.disk).fallback.isNone
  saved := (Configuration.ofFiles s.disk).overrides.isEmpty

/-- The marks are right, for a governor that was configured so. -/
structure Right (configured : PolicySet) (l : PolicyLog) : Prop where
  records : l.governor.Records
  stamped : l.stamped = true → Decodes l.governor.files →
    ((Configuration.ofFiles l.governor.files).inForce configured).fallback =
        some l.governor.policies.fallback ∧
      ((Configuration.ofFiles l.governor.files).inForce configured).generation =
        l.governor.policies.generation
  saved : l.saved = true → Decodes l.governor.files →
    ((Configuration.ofFiles l.governor.files).inForce configured).overrides =
      l.governor.policies.overrides

variable {configured : PolicySet} {l : PolicyLog}

/-- With both marks the files tell the policies in force. -/
theorem Right.recovers (h : l.Right configured) (hstamped : l.stamped = true)
    (hsaved : l.saved = true) (hdecodes : Decodes l.governor.files) :
    (Configuration.ofFiles l.governor.files).inForce configured =
      l.governor.policies.configuration := by
  obtain ⟨hfallback, hgeneration⟩ := h.stamped hstamped hdecodes
  exact Configuration.ext hfallback (h.saved hsaved hdecodes) hgeneration

/-! ### Each call keeps the marks right -/

theorem replacesSnapshot_eq_false {g : Governor} {op : Op}
    (h : (g.step op).files.snapshot = g.files.snapshot) : g.replacesSnapshot op = false := by
  rw [replacesSnapshot, h, bne_self_eq_false]

/-- The marks after a call that leaves the snapshot in place and adopts nothing. -/
theorem marks_step {op : Op}
    (h : (l.step op).governor.files.snapshot = l.governor.files.snapshot)
    (hadopts : l.governor.adopts op = false) :
    ((l.step op).stamped = true →
      l.governor.installs op = true ∨ l.stamped = true ∧ l.governor.overrides op = false) ∧
    ((l.step op).saved = true → l.saved = true ∧ l.governor.overrides op = false) := by
  have hreplaces : l.governor.replacesSnapshot op = false := replacesSnapshot_eq_false h
  rw [step]
  simp only [hreplaces, hadopts, Bool.false_or, Bool.or_eq_true, Bool.and_eq_true,
    Bool.not_eq_true', imp_self, and_self]

theorem Right.of_tells {l' : PolicyLog} (hrecords : l'.governor.Records)
    (htells : Tells l'.governor.files l'.governor.policies) : l'.Right configured := by
  refine ⟨hrecords, fun _ hdecodes => ?_, fun _ hdecodes => ?_⟩
  · rw [htells hdecodes, Configuration.inForce_configuration]
    exact ⟨rfl, rfl⟩
  · rw [htells hdecodes, Configuration.inForce_configuration]
    rfl

/-- What is right of the old files under the new policies is right of the new ones, or these tell
    everything. -/
theorem Right.of_keeps {l' : PolicyLog} (hrecords : l'.governor.Records)
    (hkeeps : Keeps l'.governor.policies l.governor.files l'.governor.files)
    (hstamped : l'.governor.files.snapshot = l.governor.files.snapshot → l'.stamped = true →
      Decodes l.governor.files →
        ((Configuration.ofFiles l.governor.files).inForce configured).fallback =
            some l'.governor.policies.fallback ∧
          ((Configuration.ofFiles l.governor.files).inForce configured).generation =
            l'.governor.policies.generation)
    (hsaved : l'.governor.files.snapshot = l.governor.files.snapshot → l'.saved = true →
      Decodes l.governor.files →
        ((Configuration.ofFiles l.governor.files).inForce configured).overrides =
          l'.governor.policies.overrides) : l'.Right configured := by
  rcases hkeeps with ⟨hsnapshot, hsame⟩ | htells
  · refine ⟨hrecords, fun hmark hdecodes => ?_, fun hmark hdecodes => ?_⟩
    · rw [hsame]
      exact hstamped hsnapshot hmark ((decodes_congr hsnapshot).mp hdecodes)
    · rw [hsame]
      exact hsaved hsnapshot hmark ((decodes_congr hsnapshot).mp hdecodes)
  · exact .of_tells hrecords htells

/-- A call that leaves the policies alone. -/
theorem Right.of_same (h : l.Right configured) {op : Op} (hrecords : (l.step op).governor.Records)
    (hpolicies : (l.step op).governor.policies = l.governor.policies)
    (hkeeps : Keeps l.governor.policies l.governor.files (l.step op).governor.files)
    (hadopts : l.governor.adopts op = false) (hinstalls : l.governor.installs op = false) :
    (l.step op).Right configured := by
  rw [← hpolicies] at hkeeps
  refine .of_keeps hrecords hkeeps (fun hsnapshot hmark hdecodes => ?_)
    fun hsnapshot hmark hdecodes => ?_
  · rw [hpolicies]
    rcases (marks_step hsnapshot hadopts).1 hmark with hinstalled | ⟨hbefore, -⟩
    · rw [hinstalls] at hinstalled
      cases hinstalled
    · exact h.stamped hbefore hdecodes
  · rw [hpolicies]
    exact h.saved ((marks_step hsnapshot hadopts).2 hmark).1 hdecodes

/-- A call that is refused. -/
theorem Right.of_refused (h : l.Right configured) {op : Op} (hsame : l.governor.step op = l.governor)
    (hadopts : l.governor.adopts op = false) (hinstalls : l.governor.installs op = false) :
    (l.step op).Right configured := by
  have hgovernor : (l.step op).governor = l.governor := hsame
  refine h.of_same ?_ ?_ ?_ hadopts hinstalls
  · rw [hgovernor]
    exact h.records
  · rw [hgovernor]
  · rw [hgovernor]
    exact .refl _ _

/-- A call that sets or removes an override. -/
theorem Right.of_override {op : Op} (hrecords : (l.step op).governor.Records)
    (hkeeps : Keeps (l.step op).governor.policies l.governor.files (l.step op).governor.files)
    (hadopts : l.governor.adopts op = false) (hinstalls : l.governor.installs op = false)
    (hoverrides : l.governor.overrides op = true) : (l.step op).Right configured := by
  refine .of_keeps hrecords hkeeps (fun hsnapshot hmark _ => ?_) fun hsnapshot hmark _ => ?_
  · rcases (marks_step hsnapshot hadopts).1 hmark with hinstalled | ⟨-, hnone⟩
    · rw [hinstalls] at hinstalled
      cases hinstalled
    · rw [hoverrides] at hnone
      cases hnone
  · have hnone := ((marks_step hsnapshot hadopts).2 hmark).2
    rw [hoverrides] at hnone
    cases hnone

/-- A call that installs a policy. -/
theorem Right.of_install (h : l.Right configured) (hconfigured : configured.overrides = [])
    {op : Op}
    (hrecords : (l.step op).governor.Records)
    (hstamps : Stamps (l.step op).governor.policies l.governor.files (l.step op).governor.files)
    (hsame : (l.step op).governor.policies.overrides = l.governor.policies.overrides)
    (hadopts : l.governor.adopts op = false) : (l.step op).Right configured := by
  rcases hstamps with ⟨hsnapshot, hstamped⟩ | htells
  · have hover : (Configuration.ofFiles (l.step op).governor.files).inForce configured =
        Configuration.ofFiles (l.step op).governor.files := by
      rw [Configuration.inForce, hstamped]
      rfl
    refine ⟨hrecords, fun _ _ => ?_, fun hmark hdecodes => ?_⟩
    · rw [hover, hstamped]
      exact ⟨rfl, rfl⟩
    · rw [hover, hstamped, hsame]
      have hsaved := h.saved ((marks_step hsnapshot hadopts).2 hmark).1
        ((decodes_congr hsnapshot).mp hdecodes)
      rw [Configuration.inForce] at hsaved
      by_cases hsome : (Configuration.ofFiles l.governor.files).fallback.isSome = true
      · rw [if_pos hsome] at hsaved
        exact hsaved
      · rw [if_neg hsome] at hsaved
        rw [Option.not_isSome_iff_eq_none] at hsome
        rw [Configuration.overrides_ofFiles hsome, ← hsaved]
        exact hconfigured.symm
  · exact .of_tells hrecords htells

/-- STEP: a call that loses no record keeps the marks right. -/
theorem Right.step (h : l.Right configured) (hconfigured : configured.overrides = []) {op : Op}
    (hop : l.governor.Durably op) : (l.step op).Right configured := by
  obtain ⟨hkeeps, hwritten, hcounts⟩ := hop
  have hrecords : (l.step op).governor.Records := h.records.step hkeeps
  have hwhole := h.records.journaled.overWhole
  have hkept : ∀ {g : Governor}, g.Keeping (l.governor.step op) → g.store = l.governor.store →
      Keeps g.policies l.governor.files (l.step op).governor.files := by
    intro g hkeeping hstore
    obtain ⟨files', hover', hkeeps'⟩ := hkeeping.files _ (hwhole.congr hstore)
    have hfiles : (l.step op).governor.files = files' := hover'.files_eq
    rw [hfiles]
    exact hkeeps'
  by_cases hleaves : op.leavesPolicies = true
  · have hkeeping := keeping_step h.records.reached hleaves
    cases op <;> first
      | exact h.of_same hrecords hkeeping.policies (hkept hkeeping rfl) rfl rfl
      | cases hleaves
  cases op with
  | installPolicy policy =>
    cases hset : l.governor.policies.setFallback policy with
    | error failure =>
      refine h.of_refused ?_ rfl ?_
      · rw [Governor.step, installPolicy, hset]
      · rw [installs, hset]
        rfl
    | ok policies =>
      have hinstalls : l.governor.installs (.installPolicy policy) = true := by
        rw [installs, hset]
        rfl
      obtain ⟨hpolicies, hstamps⟩ :=
        stamps_installPolicy h.records hset (hcounts hinstalls) hwritten
      have hinstalled : (l.step (.installPolicy policy)).governor.policies = policies := hpolicies
      obtain ⟨-, next, -, hset'⟩ := PolicySet.setFallback_ok hset
      refine h.of_install hconfigured hrecords ?_ ?_ rfl
      · rw [hinstalled]
        exact hstamps
      · rw [hinstalled, hset']
        rfl
  | setResourcePolicy resource policy =>
    cases hset : l.governor.policies.setOverride resource policy with
    | error failure =>
      refine h.of_refused ?_ rfl rfl
      rw [Governor.step, setResourcePolicy, hset]
    | ok policies =>
      have hkeeping := keeping_setResourcePolicy h.records hset
      refine .of_override hrecords ?_ rfl rfl ?_
      · have hpolicies : (l.step (.setResourcePolicy resource policy)).governor.policies = policies :=
          hkeeping.policies
        rw [hpolicies]
        exact hkept hkeeping rfl
      · rw [overrides, hset]
        rfl
  | removeResourcePolicy resource =>
    cases hset : l.governor.policies.removeOverride resource with
    | error failure =>
      refine h.of_refused ?_ rfl rfl
      rw [Governor.step, removeResourcePolicy, hset]
    | ok policies =>
      have hkeeping := keeping_removeResourcePolicy h.records hset
      refine .of_override hrecords ?_ rfl rfl ?_
      · have hpolicies : (l.step (.removeResourcePolicy resource)).governor.policies = policies :=
          hkeeping.policies
        rw [hpolicies]
        exact hkept hkeeping rfl
      · rw [overrides, hset]
        rfl
  | restore =>
    obtain ⟨hkeeps', hadopted⟩ := keeps_restore h.records
    have hpolicies : (l.step .restore).governor.policies =
        l.governor.durablePolicies.getD l.governor.policies := l.governor.policies_restore
    cases hdurable : l.governor.durablePolicies with
    | none =>
      rw [hdurable] at hpolicies
      refine h.of_same hrecords hpolicies ?_ ?_ rfl
      · have hsame : l.governor.restore.2.2.policies = l.governor.policies := hpolicies
        rw [← hsame]
        exact hkeeps'
      · rw [adopts, hdurable]
        rfl
    | some policies =>
      rw [hdurable] at hpolicies
      have hfound := Configuration.configuration_of_policies (hadopted policies hdurable)
      have hover : (Configuration.ofFiles l.governor.files).inForce configured =
          (l.step .restore).governor.policies.configuration := by
        rw [hpolicies, ← hfound]
        rfl
      refine .of_keeps hrecords hkeeps' (fun _ _ _ => ?_) fun _ _ _ => ?_
      · rw [hover]
        exact ⟨rfl, rfl⟩
      · rw [hover]
        rfl
  | bindStore store => cases hkeeps
  | _ => exact absurd rfl hleaves

/-! ### Runs -/

/-- A governor that journals, configured so and given a whole store before any policy operation. -/
theorem right_bind (hashing : Hashing) {config : GovernorConfig} {before : List Op} {s : DurableStore}
    (henabled : config.enableJournal = true) (hbefore : ∀ op ∈ before, op.leavesPolicies = true)
    (hs : Whole s) :
    (bind (Runs.run Governor.step (new hashing config) before) s).Right
      (new hashing config).policies := by
  have hrun : ∀ (ops : List Op) (g : Governor), g.Reached → (∀ op ∈ ops, op.leavesPolicies = true) →
      (Runs.run Governor.step g ops).config.enableJournal = g.config.enableJournal ∧
        (Runs.run Governor.step g ops).policies = g.policies := by
    intro ops
    induction ops with
    | nil => exact fun _ _ _ => ⟨rfl, rfl⟩
    | cons op ops ih =>
      intro g hg hops
      rw [List.forall_mem_cons] at hops
      obtain ⟨henabled', hpolicies'⟩ := ih (g.step op) (hg.step op) hops.2
      exact ⟨henabled'.trans (enableJournal_step hg op),
        hpolicies'.trans (keeping_step hg hops.1).policies⟩
  have hreached := (reached_new hashing config).run before
  obtain ⟨henabled', hpolicies⟩ := hrun before _ (reached_new hashing config) hbefore
  generalize Runs.run Governor.step (new hashing config) before = g at *
  have hover : (Configuration.ofFiles s.disk).fallback = none →
      (Configuration.ofFiles s.disk).inForce (new hashing config).policies =
        g.policies.configuration := by
    intro hnone
    rw [Configuration.inForce, hnone, hpolicies]
    rfl
  have hrecords : (bind g s).governor.Records :=
    ⟨hreached.step (.bindStore (some s)), ⟨s.disk, s, rfl, hs, rfl⟩, henabled'.trans henabled⟩
  refine ⟨hrecords, fun hmark _ => ?_, fun hmark _ => ?_⟩
  · change ((Configuration.ofFiles s.disk).inForce _).fallback = _ ∧
      ((Configuration.ofFiles s.disk).inForce _).generation = _
    rw [hover (Option.isNone_iff_eq_none.mp hmark)]
    exact ⟨rfl, rfl⟩
  · change ((Configuration.ofFiles s.disk).inForce _).overrides = g.policies.overrides
    have hempty : (Configuration.ofFiles s.disk).overrides = [] := List.isEmpty_iff.mp hmark
    rw [hpolicies, overrides_policies_new]
    cases hfallback : (Configuration.ofFiles s.disk).fallback with
    | none =>
      rw [hover hfallback, hpolicies]
      exact overrides_policies_new hashing config
    | some fallback =>
      rw [Configuration.inForce, hfallback]
      exact hempty

end PolicyLog

/-- POLICIES RECOVERED: after any run over a bound store that loses no record, a fresh governor finds
    the policies in force, if the fallback and the overrides in force were saved or adopted after the
    last override was set or removed (for the fallback it is enough that it was installed since), and
    the files are within the bounds of their reader. -/
theorem policiesRecovered_run (hashing : Hashing) (config : GovernorConfig) (before ops : List Op)
    (s : DurableStore) (henabled : config.enableJournal = true)
    (hbefore : ∀ op ∈ before, op.leavesPolicies = true) (hs : Whole s)
    (hops : Runs.Meets PolicyLog.step (fun l op => l.governor.Durably op)
      (PolicyLog.bind (Runs.run step (new hashing config) before) s) ops) :
    let l := Runs.run PolicyLog.step
      (PolicyLog.bind (Runs.run step (new hashing config) before) s) ops
    l.stamped = true → l.saved = true → Decodes l.governor.files → WithinLimits l.governor.files →
      RecoversPolicies l.governor.files config l.governor.policies := by
  intro l hstamped hsaved hdecodes hlimits
  have hright : l.Right (new hashing config).policies :=
    Runs.run_invariant
      (fun l op (h : l.Right (new hashing config).policies) hop =>
        h.step (overrides_policies_new hashing config) hop)
      (PolicyLog.right_bind hashing henabled hbefore hs) hops
  obtain ⟨s', -, hs', hdisk⟩ := hright.records.journaled.overWhole
  have hwhole : WholeJournal l.governor.files := hdisk ▸ hs'.journal
  have hover : (Configuration.ofFiles l.governor.files).inForce (new hashing config).policies =
      l.governor.policies.configuration := hright.recovers hstamped hsaved hdecodes
  exact recoversPolicies_of_inForce hwhole hlimits hright.records.reached.wellFormed.policies hover

/-- An override that a checkpoint saves. -/
def savedOverride : List Op :=
  [.installPolicy makeDefaultPolicy, .setResourcePolicy ⟨1⟩ makeDefaultPolicy, .checkpoint]

theorem policiesRecovered_run_saved :
    let l := Runs.run PolicyLog.step (PolicyLog.bind (new .back {}) emptyStore) savedOverride
    RecoversPolicies l.governor.files {} l.governor.policies :=
  policiesRecovered_run .back {} [] savedOverride emptyStore rfl (by simp) whole_emptyStore
    ⟨by decide +kernel, by decide +kernel, by decide +kernel, trivial⟩ (by decide +kernel)
    (by decide +kernel) (by decide +kernel) ⟨by decide +kernel, by decide +kernel⟩

/-- An override that no record and no snapshot saves. -/
def unsavedOverride : List Op := [.setResourcePolicy ⟨1⟩ makeDefaultPolicy]

/-- LOST: the override is in force, nothing failed, and a fresh governor does not find it. -/
theorem override_lost :
    let l := Runs.run PolicyLog.step (PolicyLog.bind (new .back {}) emptyStore) unsavedOverride
    Runs.Meets PolicyLog.step (fun l op => l.governor.Durably op)
        (PolicyLog.bind (new .back {}) emptyStore) unsavedOverride ∧
      l.governor.policies.overrides = [⟨⟨1⟩, makeDefaultPolicy⟩] ∧
      Decodes l.governor.files ∧ WithinLimits l.governor.files ∧
      ¬ RecoversPolicies l.governor.files {} l.governor.policies := by
  refine ⟨⟨by decide +kernel, trivial⟩, by decide +kernel, by decide +kernel,
    ⟨by decide +kernel, by decide +kernel⟩, fun hrecovers => ?_⟩
  obtain ⟨report, g', hrestore, hpolicies⟩ := hrecovers .back {} { directory := "store" } _ rfl rfl
  have hrestored := congrArg (fun r => r.2.2.policies.generation) hrestore
  rw [hpolicies] at hrestored
  exact absurd hrestored (by decide +kernel)

end Governor

end Mbg
