import MicroburstGovernor.Governor.Writes

/-! What each call does to the policies that the files tell.

    Installing a policy writes a record, and every snapshot holds the whole set. Setting or removing an
    override writes nothing: until the next snapshot the files tell what was in force before. -/

namespace Mbg

open DurableStore Framing

/-- Files that give back a policy set, if their snapshot decodes. -/
def Tells (files : Files) (policies : PolicySet) : Prop :=
  Decodes files → Configuration.ofFiles files = policies.configuration

/-- What a governor with these policies does to the files: while the snapshot stays, so does what they
    give back, and another snapshot tells the policies. -/
def Keeps (policies : PolicySet) (files files' : Files) : Prop :=
  files'.snapshot = files.snapshot ∧ Configuration.ofFiles files' = Configuration.ofFiles files ∨
    Tells files' policies

theorem Keeps.refl (policies : PolicySet) (files : Files) : Keeps policies files files :=
  Or.inl ⟨rfl, rfl⟩

theorem Keeps.trans {policies : PolicySet} {files files₁ files₂ : Files}
    (h : Keeps policies files files₁) (h' : Keeps policies files₁ files₂) :
    Keeps policies files files₂ := by
  rcases h' with ⟨hsnapshot', hsame'⟩ | htells'
  · rcases h with ⟨hsnapshot, hsame⟩ | htells
    · exact Or.inl ⟨hsnapshot'.trans hsnapshot, hsame'.trans hsame⟩
    · exact Or.inr fun hdecodes => hsame'.trans (htells ((decodes_congr hsnapshot').mp hdecodes))
  · exact Or.inr htells'

/-- Files that tell a fallback and its generation, whatever overrides they tell. -/
def Stamps (policies : PolicySet) (files files' : Files) : Prop :=
  files'.snapshot = files.snapshot ∧ Configuration.ofFiles files' =
    { Configuration.ofFiles files with
      fallback := some policies.fallback, generation := policies.generation } ∨
    Tells files' policies

theorem Keeps.stamps {policies : PolicySet} {files files₁ files₂ : Files}
    (h : Keeps policies files files₁) (h' : Stamps policies files₁ files₂) :
    Stamps policies files files₂ := by
  rcases h' with ⟨hsnapshot', hstamped⟩ | htells'
  · rcases h with ⟨hsnapshot, hsame⟩ | htells
    · refine Or.inl ⟨hsnapshot'.trans hsnapshot, ?_⟩
      rw [hstamped, hsame]
    · refine Or.inr fun hdecodes => ?_
      rw [hstamped, htells ((decodes_congr hsnapshot').mp hdecodes)]
      rfl
  · exact Or.inr htells'

/-- Only policy records speak of policies. -/
theorem recordPolicy_of_ne {record : JournaledRecord} (h : record.type ≠ .policyInstalled) :
    recordPolicy record = none := by
  rw [recordPolicy]
  split
  · rename_i htype
    exact absurd htype h
  · rfl

namespace Governor

/-! ### What the writes of a call keep -/

/-- A snapshot tells the policies in force. -/
theorem tells_snapshotFiles {g : Governor} (hw : g.WellFormed)
    (hfits : (encodeState g.exportState).length ≤ Limits.maxSnapshotBytes) {journal : Bytes}
    (hnone : appliedRecords (g.snapshotFiles journal) = []) :
    Tells (g.snapshotFiles journal) g.policies := by
  intro hdecodes
  rw [Configuration.ofFiles, hnone, snapshotState_snapshotFiles hw hfits journal hdecodes]
  rfl

theorem Wrote.keeps {policies : PolicySet} {epoch : Epoch} {files files' : Files}
    (h : Wrote Unpolicied policies epoch files files') : Keeps policies files files' := by
  cases h with
  | appended hwhole htype hmay hlen seq tick =>
    refine Or.inl ⟨rfl, ?_⟩
    rw [configuration_appendJournal htype hlen hwhole]
    split
    · rfl
    · refine Configuration.apply_of_none (recordPolicy_of_ne ?_) _
      exact hmay
  | saved hw hpolicies hepoch hfits hcovered =>
    subst hpolicies
    exact Or.inr (tells_snapshotFiles hw hfits hcovered)

/-- The policies stay in force, and the files keep them. -/
structure Keeping (g g' : Governor) : Prop where
  policies : g'.policies = g.policies
  files : ∀ files, g.OverWhole files → ∃ files', g'.OverWhole files' ∧ Keeps g.policies files files'

theorem Writing.keeping {g g' : Governor} (h : Writing Unpolicied g g') : g.Keeping g' := by
  refine ⟨h.policies, fun files hfiles => ?_⟩
  obtain ⟨files', hfiles', hwrote⟩ := h.files files hfiles
  refine ⟨files', hfiles', ?_⟩
  clear hfiles hfiles'
  induction hwrote with
  | refl => exact .refl _ _
  | tail _ hlast ih => exact ih.trans hlast.keeps

theorem Keeping.of_acting {g g₀ g' : Governor} {epoch : Epoch} (h : g.Acting g₀ g.policies epoch)
    (h' : g₀.Keeping g') : g.Keeping g' := by
  refine ⟨h'.policies.trans h.policies, fun files hfiles => ?_⟩
  rw [← h.policies]
  exact h'.files files (hfiles.congr h.store)

theorem keeping_step {g : Governor} (hr : g.Reached) {op : Op} (hop : op.leavesPolicies = true) :
    g.Keeping (g.step op) := by
  obtain ⟨g₀, hacting, hwriting⟩ := writing_step hr hop
  exact .of_acting hacting hwriting.keeping

/-! ### The sequence of a policy record -/

/-- The snapshot covers no sequence above the last one assigned, and `n` more are free. -/
def Counts (g : Governor) (n : ℕ) : Prop :=
  (coveredSeq g.files).toNat ≤ g.recordSeq.raw.toNat ∧ g.recordSeq.raw.toNat + n < 2 ^ 64

instance (g : Governor) (n : ℕ) : Decidable (g.Counts n) := by
  unfold Counts
  infer_instance

/-- The next sequence is above what the snapshot covers. -/
theorem Counts.covered_lt {g : Governor} {n : ℕ} (h : g.Counts (n + 1)) :
    g.counted.recordSeq.raw.toNat = g.recordSeq.raw.toNat + 1 ∧
      ¬ g.counted.recordSeq.raw ≤ coveredSeq g.files := by
  obtain ⟨hcovered, hfree⟩ := h
  have hnext : g.counted.recordSeq.raw.toNat = g.recordSeq.raw.toNat + 1 := by
    change (g.recordSeq.raw + 1).toNat = _
    rw [UInt64.toNat_add, UInt64.toNat_one]
    omega
  refine ⟨hnext, ?_⟩
  rw [UInt64.le_iff_toNat_le]
  omega

/-! ### What is left of the sequences -/

/-- A governor in the middle of a call that began with `start` records lost: `n` sequences are free,
    and no more records were lost since than sequences were assigned. -/
structure Tallies (start : UInt64) (g : Governor) (n : ℕ) : Prop where
  counts : g.Counts n
  lost : ∃ k ≤ g.recordSeq.raw.toNat, g.failures = start + UInt64.ofNat k

theorem Counts.tallies {g : Governor} {n : ℕ} (h : g.Counts n) : Tallies g.failures g n := by
  refine ⟨h, 0, Nat.zero_le _, ?_⟩
  simp

theorem Tallies.mono {start : UInt64} {g : Governor} {m n : ℕ} (h : Tallies start g n)
    (hle : m ≤ n) : Tallies start g m :=
  ⟨⟨h.counts.1, by have := h.counts.2; omega⟩, h.lost⟩

theorem Tallies.congr {start : UInt64} {g g' : Governor} {n : ℕ} (h : Tallies start g n)
    (hseq : g'.recordSeq = g.recordSeq) (hstore : g'.store = g.store)
    (hfailures : g'.failures = g.failures) : Tallies start g' n := by
  obtain ⟨hcounts, hlost⟩ := h
  refine ⟨?_, ?_⟩
  · rw [Counts, files, hseq, hstore]
    exact hcounts
  · rw [hseq, hfailures]
    exact hlost

theorem Tallies.of_binding {start : UInt64} {g g' : Governor} {n : ℕ} (h : Tallies start g n)
    (hbinding : g'.binding = g.binding) (hfailures : g'.failures = g.failures) :
    Tallies start g' n :=
  h.congr (congrArg (fun b => b.2.1) hbinding) (store_of_binding hbinding) hfailures

theorem tallies_journalRecord {start : UInt64} {g : Governor} {n : ℕ} (hover : g.Journaled)
    (h : Tallies start g (n + 1)) {type : RecordType} {payload : Bytes}
    (htype : isValidRecordType type.raw = true)
    (hlen : payload.length ≤ Limits.maxJournalRecordBytes) (now : Tick) :
    Tallies start (g.journalRecord type payload now) n := by
  have hfailures := g.failures_journalRecord type payload now
  rw [journalRecord] at hfailures ⊢
  split at hfailures
  case isFalse hnot =>
    rw [if_neg hnot]
    exact h.mono (Nat.le_succ n)
  case isTrue hjournaling =>
    rw [if_pos hjournaling]
    obtain ⟨s', -, hrecorded, hface⟩ := appendRecordLocked_whole hover.overWhole htype hlen now
    obtain ⟨hnext, -⟩ := h.counts.covered_lt
    obtain ⟨⟨hcovered, hfree⟩, k, hk, hlost⟩ := h
    have hseq : (g.appendRecordLocked type payload now).recordSeq.raw.toNat =
        g.recordSeq.raw.toNat + 1 := by
      rw [← hnext]
      exact congrArg (fun f : Face => f.recordSeq.raw.toNat) hface
    have hstore : (g.appendRecordLocked type payload now).store = some s' :=
      congrArg Face.store hface
    generalize g.appendRecordLocked type payload now = g' at *
    have hfiles : g'.files = s'.disk := by
      rw [files, hstore]
      rfl
    refine ⟨⟨?_, by omega⟩, ?_⟩
    · rw [hfiles, hseq]
      generalize s'.disk = files' at hrecorded
      cases hrecorded with
      | appended => exact hcovered.trans (Nat.le_succ _)
      | compacted hfits journal hjournal =>
        rw [← length_exportState_counted] at hfits
        have hintact := intactSnapshot_snapshotFiles hfits journal
        rw [coveredSeq, hintact, ← hnext]
        exact Nat.le_refl _
      | refused hlarge => exact hcovered.trans (Nat.le_succ _)
    · rw [hseq]
      rcases hfailures with hkept | hraised
      · exact ⟨k, by omega, hkept.trans hlost⟩
      · refine ⟨k + 1, by omega, ?_⟩
        rw [hraised, hlost, UInt64.ofNat_add, UInt64.add_assoc]
        rfl

/-- Revalidating the intents assigns a sequence to each at most. -/
theorem tallies_refresh {start : UInt64} {g : Governor} {n : ℕ} (hw : g.WellFormed)
    (hover : g.Journaled) (h : Tallies start g (n + g.interventions.size)) (now : Tick) :
    Tallies start (g.refreshAuthorityLocked now).1 n := by
  have hturn : ∀ (s : Sweep) (id : InterventionId) (m : ℕ), s.governor.WellFormed →
      s.governor.Journaled → Tallies start s.governor (m + 1) →
        Tallies start (refreshIntent now default s id).governor m := by
    intro s id m hs hover htallies
    rw [refreshIntent_eq (c := s.governor.core) rfl, sweepTurn]
    cases hfind : s.governor.interventions.find? id with
    | none => exact htallies.mono (Nat.le_succ m)
    | some intent =>
      dsimp only
      split
      · exact htallies.mono (Nat.le_succ m)
      · exact htallies.mono (Nat.le_succ m)
      · rename_i verdict _
        have htype : isValidRecordType RecordType.interventionStateChanged.raw = true := rfl
        have same := s.governor.bookkeeping_retiring intent verdict now
        exact tallies_journalRecord (hover.congr (congrArg Face.store same.face))
          (htallies.congr (congrArg Face.recordSeq same.face) (congrArg Face.store same.face)
            same.failures)
          htype (length_encodeIntent_le _) now
  have hfold : ∀ (ids : List InterventionId) (s : Sweep), s.governor.WellFormed →
      s.governor.Journaled → Tallies start s.governor (n + ids.length) →
        Tallies start (ids.foldl (refreshIntent now default) s).governor n := by
    intro ids
    induction ids with
    | nil => exact fun s _ _ htallies => htallies
    | cons id ids ih =>
      intro s hs hover htallies
      rw [List.length_cons] at htallies
      have hdeeds : Deeds anyEvent ⟨s.governor, none⟩
          ⟨(refreshIntent now default s id).governor, none⟩ := by
        rw [refreshIntent_eq (c := s.governor.core) rfl]
        exact deeds_sweepTurn hs _ now id
      exact ih _ (wellFormed_refreshIntent hs now default id) (hdeeds.journaled hover)
        (hturn s id _ hs hover htallies)
  have hkeys : g.interventions.keys.length = g.interventions.size := List.length_map _
  rw [← hkeys] at h
  have htallies := hfold g.interventions.keys { governor := g } hw hover h
  exact htallies.congr rfl rfl rfl

/-- The record of the policies in force, and what it makes of a configuration. -/
def policyPayload (policies : PolicySet) : Bytes :=
  ByteWriter.u32 policies.generation.raw ++ encodePolicy policies.fallback

open ByteReader in
theorem recordPolicy_policyPayload {policies : PolicySet}
    (h : PolicySet.validate policies.fallback = .ok ()) (seq : RecordSeq) (now : Tick) :
    recordPolicy ⟨.policyInstalled, seq, now, policyPayload policies⟩ =
      some (policies.generation.raw, policies.fallback) := by
  have hpolicy := decodePolicy_write h []
  rw [List.append_nil] at hpolicy
  have hread : RecoveryAccumulator.readPolicyRecord (of (policyPayload policies)) =
      ((policies.generation.raw, .ok policies.fallback), of []) := by
    rw [RecoveryAccumulator.readPolicyRecord, policyPayload, u32_bind, bind_of_eq hpolicy]
    rfl
  rw [recordPolicy]
  dsimp only
  rw [hread]

/-- A policy record above what the snapshot covers stamps the files, unless it is lost. -/
theorem stamps_journalRecord {g : Governor} {start : UInt64} (hw : g.WellFormed)
    (hover : g.Journaled) (hjournaling : g.journaling = true) (htallies : Tallies start g 1)
    (now : Tick)
    (hwritten : (g.journalRecord .policyInstalled (policyPayload g.policies) now).failures = start) :
    Stamps g.policies g.files
      (g.journalRecord .policyInstalled (policyPayload g.policies) now).files := by
  have htype : isValidRecordType RecordType.policyInstalled.raw = true := rfl
  have hlen : (policyPayload g.policies).length ≤ Limits.maxJournalRecordBytes := by
    rw [policyPayload, List.length_append, length_encodePolicy, ByteWriter.length_u32]
    decide
  obtain ⟨-, hcovered⟩ := htallies.counts.covered_lt
  obtain ⟨s, hstore, hs, hdisk⟩ := hover.overWhole
  have hwhole : WholeJournal g.files := hdisk ▸ hs.journal
  have hpolicy := recordPolicy_policyPayload (hw.policies.valid _ List.mem_cons_self)
    g.counted.recordSeq now
  -- the count of what was lost came full circle in no call
  have hkept : (g.journalRecord .policyInstalled (policyPayload g.policies) now).failures ≠
      g.failures + 1 := by
    obtain ⟨⟨-, hfree⟩, k, hk, hlost⟩ := htallies
    rw [hwritten, hlost]
    exact ne_raised (by omega)
  obtain ⟨files', hfiles', hlanded⟩ :=
    journalRecord_kept hover.overWhole hjournaling htype hlen hkept
  rw [hfiles'.files_eq]
  rcases hlanded with rfl | ⟨hfits, rfl⟩
  · refine Or.inl ⟨rfl, ?_⟩
    rw [configuration_appendJournal htype hlen hwhole, if_neg hcovered, Configuration.apply, hpolicy]
  · rw [← length_exportState_counted] at hfits
    exact Or.inr (tells_snapshotFiles hw.counted hfits
      (appliedRecords_snapshotFiles hfits htype hlen (Or.inr rfl)))

/-! ### Installing a policy -/

theorem interventions_foldl_rearmStream (keys : List StreamKey) (g : Governor) :
    (keys.foldl rearmStream g).interventions = g.interventions := by
  have hcore := core_foldl_rearmStream (g := g) keys
  have hview := congrArg Core.IntentView.interventions (Core.intentView_rearm keys g.core)
  exact (congrArg Core.interventions hcore).trans hview

theorem config_foldl_rearmStream (keys : List StreamKey) (g : Governor) :
    (keys.foldl rearmStream g).config = g.config := by
  have hcore := core_foldl_rearmStream (g := g) keys
  have hbase := congrArg Core.Base.config (Core.base_rearm keys g.core)
  exact (congrArg Core.config hcore).trans hbase

/-- What is known of a governor that journals what it does. -/
structure Records (g : Governor) : Prop where
  reached : g.Reached
  journaled : g.Journaled
  enabled : g.config.enableJournal = true

theorem Records.journaling {g : Governor} (h : g.Records) : g.journaling = true := by
  obtain ⟨files, s, hstore, -⟩ := h.journaled
  rw [Governor.journaling, hstore, h.enabled]
  rfl

theorem Records.pushEmissionLocked {g : Governor} (h : g.Records) (e : Emission) :
    (g.pushEmissionLocked e).Records := by
  have hpolicy : ∀ e : Emission, (g.pushEmissionLocked e).config = g.config := by
    intro e
    rw [Governor.pushEmissionLocked]
    split <;> rfl
  have hkeyed : (g.pushEmissionLocked e).core.interventions = g.core.interventions := by
    rw [Governor.pushEmissionLocked]
    split <;> rfl
  refine ⟨⟨wellFormed_pushEmissionLocked h.reached.wellFormed e, ?_⟩,
    h.journaled.congr (store_of_binding (g.binding_pushEmissionLocked e)), ?_⟩
  · rw [Core.Keyed, hkeyed]
    exact h.reached.keyed
  · rw [hpolicy]
    exact h.enabled

/-- Rearming streams and revalidating the intents leaves a sequence free if there was one for each. -/
theorem Records.rearmed {g : Governor} (h : g.Records) {start : UInt64} {n : ℕ}
    (htallies : Tallies start g (n + g.interventions.size)) (keys : List StreamKey) :
    g.Keeping ((keys.foldl rearmStream g).refreshAuthorityLocked
        (keys.foldl rearmStream g).lastTick).1 ∧
      ((keys.foldl rearmStream g).refreshAuthorityLocked
        (keys.foldl rearmStream g).lastTick).1.Records ∧
      Tallies start ((keys.foldl rearmStream g).refreshAuthorityLocked
        (keys.foldl rearmStream g).lastTick).1 n := by
  have hkeeping := (writing_rearm h.reached.wellFormed keys (keys.foldl rearmStream g).lastTick).keeping
  have hjournaled := h.journaled.rearmed h.reached.wellFormed keys
  have hw := wellFormed_foldl_rearmStream keys h.reached.wellFormed
  have hbinding := binding_foldl_rearmStream keys g
  have hintents := interventions_foldl_rearmStream keys g
  have hconfig := config_foldl_rearmStream keys g
  have hfailures := failures_foldl_rearmStream keys g
  have hkeyed : (keys.foldl rearmStream g).core.Keyed := by
    rw [core_foldl_rearmStream]
    exact Core.keyed_rearm keys h.reached.keyed
  generalize keys.foldl rearmStream g = g₁ at *
  rw [← hintents] at htallies
  have hcore := core_refreshAuthorityLocked hkeyed g₁.lastTick default
  have htallies₁ : Tallies start g₁ (n + g₁.interventions.size) :=
    htallies.of_binding hbinding hfailures
  refine ⟨hkeeping, ⟨⟨wellFormed_refreshAuthorityLocked hw _, ?_⟩, hjournaled, ?_⟩,
    tallies_refresh hw (h.journaled.congr (store_of_binding hbinding)) htallies₁ _⟩
  · rw [hcore]
    exact Core.keyed_refresh hkeyed _ _
  · have hconfig₁ : (g₁.refreshAuthorityLocked g₁.lastTick).1.config = g₁.config :=
      congrArg Core.config hcore
    rw [hconfig₁, hconfig]
    exact h.enabled

/-- A policy set that the code's own operations made is put in force. -/
theorem Records.adoptPolicies {g : Governor} (h : g.Records) {policies : PolicySet}
    (hrestorable : policies.Restorable) (hindexed : policies.Indexed) :
    (g.adoptPolicies policies).countPolicyChange.Records :=
  ⟨⟨(wellFormed_adoptPolicies h.reached.wellFormed hrestorable hindexed).congr rfl,
    h.reached.keyed⟩, h.journaled.congr rfl, h.enabled⟩

/-- An installed policy stamps the files, unless a record of the call is lost. -/
theorem stamps_installPolicy {g : Governor} (h : g.Records) {policy : Policy}
    {policies : PolicySet} (hset : g.policies.setFallback policy = .ok policies)
    (hcounts : g.Counts (1 + g.interventions.size))
    (hwritten : (g.installPolicy policy).2.failures = g.failures) :
    (g.installPolicy policy).2.policies = policies ∧
      Stamps policies g.files (g.installPolicy policy).2.files := by
  have hrecords := h.adoptPolicies
    (PolicySet.restorable_setFallback h.reached.wellFormed.policies hset)
    (PolicySet.indexed_setFallback h.reached.wellFormed.indexed hset)
  have htallies₁ : Tallies g.failures (g.adoptPolicies policies).countPolicyChange
      (1 + (g.adoptPolicies policies).countPolicyChange.interventions.size) :=
    hcounts.tallies.congr rfl rfl rfl
  have hfiles : (g.adoptPolicies policies).countPolicyChange.files = g.files := rfl
  have hpolicies : (g.adoptPolicies policies).countPolicyChange.policies = policies := rfl
  rw [installPolicy, hset] at hwritten ⊢
  dsimp only at hwritten ⊢
  rw [← hfiles]
  generalize g.failures = start at *
  generalize (g.adoptPolicies policies).countPolicyChange = g₁ at *
  obtain ⟨hkeeping, hrecords₂, htallies₂⟩ := hrecords.rearmed htallies₁ g₁.streams.keys
  generalize ((g₁.streams.keys.foldl rearmStream g₁).refreshAuthorityLocked
    (g₁.streams.keys.foldl rearmStream g₁).lastTick).1 = g₂ at *
  generalize ({
    kind := .policyInstalled, policyGeneration := g₂.policies.generation,
    epoch := g₂.context.epoch, incarnation := g₂.context.incarnation,
    tick := g₂.lastTick } : Emission) = e at *
  have hrecords₃ := hrecords₂.pushEmissionLocked e
  have hbinding := g₂.binding_pushEmissionLocked e
  have htallies₃ := htallies₂.of_binding hbinding (g₂.failures_pushEmissionLocked e)
  generalize g₂.pushEmissionLocked e = g₃ at *
  have hstore₃ : g₃.store = g₂.store := store_of_binding hbinding
  have hpolicies₃ : g₃.policies = policies :=
    (congrArg Prod.fst hbinding).trans (hkeeping.policies.trans hpolicies)
  obtain ⟨files₂, hover₂, hkeeps⟩ := hkeeping.files _ hrecords.journaled.overWhole
  change (g₃.journalRecord .policyInstalled (policyPayload g₃.policies) g₃.lastTick).failures = _
    at hwritten
  change (g₃.journalRecord .policyInstalled (policyPayload g₃.policies) g₃.lastTick).policies = _ ∧
    Stamps policies g₁.files (g₃.journalRecord .policyInstalled (policyPayload g₃.policies)
      g₃.lastTick).files
  have hstamps := stamps_journalRecord hrecords₃.reached.wellFormed hrecords₃.journaled
    hrecords₃.journaling htallies₃ g₃.lastTick hwritten
  refine ⟨(congrArg Core.policies (g₃.core_journalRecord _ _ _)).trans hpolicies₃, ?_⟩
  rw [(hover₂.congr hstore₃).files_eq, hpolicies₃] at hstamps
  rw [hpolicies] at hkeeps
  rw [hpolicies₃]
  exact hkeeps.stamps hstamps

/-! ### Overrides and recovery -/

theorem keeping_setResourcePolicy {g : Governor} (h : g.Records) {resource : ResourceId}
    {policy : Policy} {policies : PolicySet}
    (hset : g.policies.setOverride resource policy = .ok policies) :
    (g.adoptPolicies policies).countPolicyChange.Keeping (g.setResourcePolicy resource policy).2 := by
  have hrecords := h.adoptPolicies
    (PolicySet.restorable_setOverride h.reached.wellFormed.policies h.reached.wellFormed.indexed hset)
    (PolicySet.indexed_setOverride h.reached.wellFormed.indexed hset)
  rw [setResourcePolicy, hset]
  exact (writing_rearm hrecords.reached.wellFormed _ _).keeping

theorem keeping_removeResourcePolicy {g : Governor} (h : g.Records) {resource : ResourceId}
    {policies : PolicySet} (hset : g.policies.removeOverride resource = .ok policies) :
    (g.adoptPolicies policies).countPolicyChange.Keeping (g.removeResourcePolicy resource).2 := by
  have hrecords := h.adoptPolicies
    (PolicySet.restorable_removeOverride h.reached.wellFormed.policies hset)
    (PolicySet.indexed_removeOverride h.reached.wellFormed.indexed hset)
  rw [removeResourcePolicy, hset]
  exact (writing_refresh hrecords.reached.wellFormed _).keeping

/-- The durable policies of a governor are those its files give back. -/
theorem durablePolicies_eq {g : Governor} {s s' : DurableStore} (hstore : g.store = some s)
    (hopen : s.isOpen = true) (hf : s.faults = []) {replayed : Replayed (List JournaledRecord)}
    (hreplay : s.replay collectRecord [] = (.ok replayed, s')) :
    g.durablePolicies = (Configuration.ofFiles s.disk).policies := by
  have hacc := (g.recover_eq hopen hf hreplay).1
  have hpolicies : ∀ acc : RecoveryAccumulator,
      accumulatedPolicies acc = acc.configuration.policies := fun _ => rfl
  rw [durablePolicies, hstore]
  dsimp only [Option.bind_some]
  rw [hreplay]
  dsimp only [Except.toOption, Option.bind_some]
  rw [hpolicies, hacc, RecoveryAccumulator.configuration_ofFiles]

theorem policies_restore (g : Governor) :
    g.restore.2.2.policies = g.durablePolicies.getD g.policies := by
  obtain ⟨retired, decisionSeq, lastTick, counts, hcore⟩ := g.restored_restore
  have hpolicies : g.restore.2.2.policies = (g.durablePolicies.elim g.core g.core.adoptPolicies).policies :=
    congrArg Core.policies hcore
  rw [hpolicies]
  cases g.durablePolicies <;> rfl

/-- What a restore writes, it writes with the recovered policies in force. -/
theorem keeps_restore {g : Governor} (h : g.Records) :
    Keeps g.restore.2.2.policies g.files g.restore.2.2.files ∧
      ∀ policies, g.durablePolicies = some policies →
        (Configuration.ofFiles g.files).policies = some policies := by
  obtain ⟨g₀, policies, hacting, hwriting⟩ := writing_restore h.reached.wellFormed (Or.inr h.journaled)
  have hover := h.journaled.overWhole
  obtain ⟨files', hover', hkeeps⟩ := hwriting.keeping.files _ (hover.congr hacting.store)
  rw [hover'.files_eq, hwriting.policies]
  refine ⟨hkeeps, fun policies hpolicies => ?_⟩
  obtain ⟨s, hstore, hs, hdisk⟩ := hover
  rw [← hdisk]
  have hdurable := hpolicies
  rw [durablePolicies, hstore, Option.bind_some] at hpolicies
  cases hreplay : s.replay collectRecord [] with
  | mk result s' =>
    rw [hreplay] at hpolicies
    cases result with
    | error failure => cases hpolicies
    | ok replayed =>
      exact (durablePolicies_eq hstore hs.isOpen hs.faults hreplay).symm.trans hdurable

end Governor

end Mbg
