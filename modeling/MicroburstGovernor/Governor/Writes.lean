import MicroburstGovernor.Governor.Configuration
import MicroburstGovernor.Governor.ReadLimits

/-! What calls write, for every law about the files.

    A write is a record behind the journal, or a snapshot of a governor in the middle of the call. The
    policies and the epoch of the call are those of every governor in its middle. -/

namespace Mbg

open DurableStore Framing

namespace Governor

/-- One write of a call under these policies and this epoch, its records of these types. -/
inductive Wrote (types : RecordType → Prop) (policies : PolicySet) (epoch : Epoch) :
    Files → Files → Prop
  | appended {files : Files} (hwhole : WholeJournal files) {type : RecordType}
    (htype : isValidRecordType type.raw = true) (hmay : types type) {payload : Bytes}
    (hlen : payload.length ≤ Limits.maxJournalRecordBytes) (seq : RecordSeq) (tick : Tick) :
    Wrote types policies epoch files
      ((Effect.appendJournal (buildRecord type seq tick payload)).apply files)
  | saved (files : Files) {g : Governor} (hw : g.WellFormed) (hpolicies : g.policies = policies)
    (hepoch : g.context.epoch = epoch)
    (hfits : (encodeState g.exportState).length ≤ Limits.maxSnapshotBytes) {journal : Bytes}
    (hcovered : appliedRecords (g.snapshotFiles journal) = []) :
    Wrote types policies epoch files (g.snapshotFiles journal)

/-- The policies and the epoch stay in force, and the files change by writes under them. -/
structure Writing (types : RecordType → Prop) (g g' : Governor) : Prop where
  policies : g'.policies = g.policies
  epoch : g'.context.epoch = g.context.epoch
  unbound : g.store = none → g'.store = none
  files : ∀ files, g.OverWhole files → ∃ files', g'.OverWhole files' ∧
    Relation.ReflTransGen (Wrote types g.policies g.context.epoch) files files'

variable {types : RecordType → Prop}

theorem Writing.of_binding {g g' : Governor} (h : g'.binding = g.binding) : Writing types g g' where
  policies := congrArg Prod.fst h
  epoch := congrArg (fun b => b.2.2.2) h
  unbound := (store_of_binding h).trans
  files := fun files hfiles => ⟨files, hfiles.congr (store_of_binding h), .refl⟩

theorem Writing.trans {g g₁ g₂ : Governor} (h : Writing types g g₁) (h' : Writing types g₁ g₂) :
    Writing types g g₂ where
  policies := h'.policies.trans h.policies
  epoch := h'.epoch.trans h.epoch
  unbound := fun hnone => h'.unbound (h.unbound hnone)
  files := by
    intro files hfiles
    obtain ⟨files₁, hfiles₁, hwrote⟩ := h.files files hfiles
    obtain ⟨files₂, hfiles₂, hwrote'⟩ := h'.files files₁ hfiles₁
    rw [h.policies, h.epoch] at hwrote'
    exact ⟨files₂, hfiles₂, hwrote.trans hwrote'⟩

theorem Wrote.mono {types' : RecordType → Prop} (himp : ∀ type, types type → types' type)
    {policies : PolicySet} {epoch : Epoch} {files files' : Files}
    (h : Wrote types policies epoch files files') : Wrote types' policies epoch files files' := by
  cases h with
  | appended hwhole htype hmay hlen seq tick =>
    exact .appended hwhole htype (himp _ hmay) hlen seq tick
  | saved hw hpolicies hepoch hfits hcovered => exact .saved _ hw hpolicies hepoch hfits hcovered

theorem Writing.mono {types' : RecordType → Prop} (himp : ∀ type, types type → types' type)
    {g g' : Governor} (h : Writing types g g') : Writing types' g g' where
  policies := h.policies
  epoch := h.epoch
  unbound := h.unbound
  files := by
    intro files hfiles
    obtain ⟨files', hfiles', hwrote⟩ := h.files files hfiles
    exact ⟨files', hfiles', Relation.ReflTransGen.mono (fun _ _ => Wrote.mono himp) _ _ hwrote⟩

/-! ### One record -/

theorem WellFormed.counted {g : Governor} (hw : g.WellFormed) : g.counted.WellFormed :=
  hw.congr rfl

theorem Recorded.wrote {g : Governor} {type : RecordType} {payload : Bytes} {now : Tick}
    {files files' : Files} (h : Recorded g type payload now files files') (hw : g.WellFormed)
    (hwhole : WholeJournal files) (htype : isValidRecordType type.raw = true)
    (hlen : payload.length ≤ Limits.maxJournalRecordBytes) (hmay : types type) :
    Relation.ReflTransGen (Wrote types g.policies g.context.epoch) files files' := by
  cases h with
  | appended => exact .single (.appended hwhole htype hmay hlen _ now)
  | compacted hfits journal hjournal =>
    rw [← length_exportState_counted] at hfits
    have hcovered := appliedRecords_snapshotFiles hfits htype hlen hjournal
    exact .single (.saved files hw.counted rfl rfl hfits hcovered)
  | refused hlarge => exact .refl

theorem writing_appendRecordLocked {g : Governor} (hw : g.WellFormed) {type : RecordType}
    {payload : Bytes} (htype : isValidRecordType type.raw = true)
    (hlen : payload.length ≤ Limits.maxJournalRecordBytes) (hmay : types type) (now : Tick) :
    Writing types g (g.appendRecordLocked type payload now) where
  policies := congrArg Core.policies (g.core_appendRecordLocked type payload now)
  epoch := congrArg (fun c => c.context.epoch) (g.core_appendRecordLocked type payload now)
  unbound := by
    intro hnone
    rw [appendRecordLocked]
    split
    · exact hnone
    · rename_i store hstore
      rw [hnone] at hstore
      cases hstore
  files := by
    intro files hfiles
    obtain ⟨s', hs', hrecorded, hface⟩ := appendRecordLocked_whole hfiles htype hlen now
    obtain ⟨s, -, hs, rfl⟩ := hfiles
    exact ⟨s'.disk, ⟨s', congrArg Face.store hface, hs', rfl⟩,
      hrecorded.wrote hw hs.journal htype hlen hmay⟩

theorem writing_journalRecord {g : Governor} (hw : g.WellFormed) {type : RecordType}
    {payload : Bytes} (htype : isValidRecordType type.raw = true)
    (hlen : payload.length ≤ Limits.maxJournalRecordBytes) (hmay : types type) (now : Tick) :
    Writing types g (g.journalRecord type payload now) := by
  rw [journalRecord]
  split
  · exact writing_appendRecordLocked hw htype hlen hmay now
  · exact .of_binding rfl

/-! ### Records that are lost -/

theorem failures_rearmStream (g : Governor) (key : StreamKey) :
    (g.rearmStream key).failures = g.failures := by
  have hrecord : ∀ (g : Governor) (event : BurstEvent),
      (g.recordEventLocked event).failures = g.failures := by
    intro g event
    rw [recordEventLocked]
    dsimp only
    split <;> rfl
  rw [rearmStream]
  split
  · rfl
  · dsimp only
    split
    · rw [failures_pushEmissionLocked]
      exact hrecord _ _
    · rfl

theorem failures_foldl_rearmStream : ∀ (keys : List StreamKey) (g : Governor),
    (keys.foldl rearmStream g).failures = g.failures
  | [], _ => rfl
  | key :: keys, g =>
    (failures_foldl_rearmStream keys (g.rearmStream key)).trans (g.failures_rearmStream key)

/-- A record counts as lost once at most. -/
theorem failures_appendRecordLocked (g : Governor) (type : RecordType) (payload : Bytes)
    (now : Tick) : (g.appendRecordLocked type payload now).failures = g.failures ∨
      (g.appendRecordLocked type payload now).failures = g.failures + 1 := by
  have hcount : ∀ (g : Governor) (status : Status),
      (g.countAppend status).failures = g.failures ∨
        (g.countAppend status).failures = g.failures + 1 := by
    intro g status
    cases status with
    | ok => exact Or.inl rfl
    | error failure => exact Or.inr rfl
  have happend : ∀ (g : Governor) (s : DurableStore),
      (g.storeAppend s type payload now).2.failures = g.failures := fun _ _ => rfl
  have hcompact : ∀ g : Governor, g.compactLocked.2.failures = g.failures := by
    intro g
    rw [compactLocked]
    split
    · rfl
    · dsimp only
      split <;> rfl
  rw [appendRecordLocked]
  split
  · exact Or.inl rfl
  · rename_i store _
    have hfirst := happend { g with recordSeq := ⟨g.recordSeq.raw + 1⟩ } store
    have hsame : g.failures = ({ g with recordSeq := ⟨g.recordSeq.raw + 1⟩ } : Governor).failures :=
      rfl
    dsimp only
    rw [hsame]
    generalize ({ g with recordSeq := ⟨g.recordSeq.raw + 1⟩ } : Governor).storeAppend store type
      payload now = tried at *
    obtain ⟨failure | _, g₁⟩ := tried
    · dsimp only at hfirst ⊢
      have hwhole := hcompact g₁
      rw [← hfirst]
      split
      · generalize g₁.compactLocked = compacted at *
        obtain ⟨failure' | _, g₂⟩ := compacted
        · rw [← hwhole]
          exact Or.inr rfl
        · dsimp only at hwhole ⊢
          rw [← hwhole]
          split
          · exact Or.inl rfl
          · exact hcount _ _
      · exact Or.inr rfl
    · dsimp only at hfirst ⊢
      rw [← hfirst]
      exact hcount _ _

theorem failures_journalRecord (g : Governor) (type : RecordType) (payload : Bytes) (now : Tick) :
    (g.journalRecord type payload now).failures = g.failures ∨
      (g.journalRecord type payload now).failures = g.failures + 1 := by
  rw [journalRecord]
  split
  · exact g.failures_appendRecordLocked type payload now
  · exact Or.inl rfl

/-- A count that was raised, but not full circle, is another count. -/
theorem ne_raised {start : UInt64} {k : ℕ} (h : k + 1 < 2 ^ 64) :
    start ≠ start + UInt64.ofNat k + 1 := by
  intro heq
  have hnat := congrArg UInt64.toNat heq
  have hlt := start.toNat_lt
  rw [UInt64.toNat_add, UInt64.toNat_add, UInt64.toNat_ofNat', UInt64.toNat_one] at hnat
  omega

theorem journalRecord_kept {g : Governor} {files : Files} (h : g.OverWhole files)
    (hjournaling : g.journaling = true) {type : RecordType} {payload : Bytes}
    (htype : isValidRecordType type.raw = true)
    (hlen : payload.length ≤ Limits.maxJournalRecordBytes) {now : Tick}
    (hkept : (g.journalRecord type payload now).failures ≠ g.failures + 1) :
    ∃ files', (g.journalRecord type payload now).OverWhole files' ∧
      Landed g type payload now files files' := by
  rw [journalRecord, if_pos hjournaling] at hkept ⊢
  obtain ⟨s', hs', -, hface, hlost⟩ := appendRecordLocked_cases h htype hlen now
  rcases hlost with hlost | ⟨-, hlanded⟩
  · exact absurd hlost hkept
  · exact ⟨s'.disk, ⟨s', congrArg Face.store hface, hs', rfl⟩, hlanded⟩

/-- Revalidating the intents loses one record for each at most. -/
theorem failures_refreshAuthorityLocked (g : Governor) (now : Tick) :
    ∃ k ≤ g.interventions.size,
      (g.refreshAuthorityLocked now).1.failures = g.failures + UInt64.ofNat k := by
  have hturn : ∀ (s : Sweep) (id : InterventionId),
      (refreshIntent now default s id).governor.failures = s.governor.failures ∨
        (refreshIntent now default s id).governor.failures = s.governor.failures + 1 := by
    intro s id
    rw [refreshIntent_eq (c := s.governor.core) rfl, sweepTurn]
    cases s.governor.interventions.find? id with
    | none => exact Or.inl rfl
    | some intent =>
      dsimp only
      split
      · exact Or.inl rfl
      · exact Or.inl rfl
      · rename_i verdict _
        rw [← (s.governor.bookkeeping_retiring intent verdict now).failures]
        exact failures_journalRecord _ _ _ _
  have hfold : ∀ (ids : List InterventionId) (s : Sweep), ∃ k ≤ ids.length,
      (ids.foldl (refreshIntent now default) s).governor.failures =
        s.governor.failures + UInt64.ofNat k := by
    intro ids
    induction ids with
    | nil => exact fun s => ⟨0, Nat.le_refl _, by simp⟩
    | cons id ids ih =>
      intro s
      obtain ⟨k, hk, hlost⟩ := ih (refreshIntent now default s id)
      rcases hturn s id with hsame | hraised
      · rw [hsame] at hlost
        exact ⟨k, hk.trans (Nat.le_succ _), hlost⟩
      · refine ⟨k + 1, Nat.succ_le_succ hk, hlost.trans ?_⟩
        rw [hraised, UInt64.ofNat_add, UInt64.add_assoc, UInt64.add_comm 1]
        rfl
  have hkeys : g.interventions.keys.length = g.interventions.size := List.length_map _
  rw [← hkeys]
  exact hfold g.interventions.keys { governor := g }

/-! ### Deeds -/

theorem Bookkeeping.binding {g g' : Governor} {n : ℕ} (same : g.Bookkeeping n g') :
    g'.binding = g.binding :=
  congrArg (fun f : Face => (f.policies, f.recordSeq, f.store, f.epoch)) same.face

/-- The records that deeds write. -/
def Unpolicied (type : RecordType) : Prop := type ≠ .policyInstalled

theorem Aside.unpolicied {type : RecordType} (h : Aside type) : Unpolicied type := by
  rcases h with rfl | rfl | rfl <;> exact fun heq => by cases heq

theorem Deed.writing {ok : Governor → Phase → BurstEvent → Prop} {m m' : Midway}
    (hd : Deed ok m m') : Writing Unpolicied m.governor m'.governor := by
  cases hd with
  | quiet same => exact .of_binding same.binding
  | noted same hw htype hlen now =>
    exact (Writing.of_binding same.binding).trans
      (writing_journalRecord hw htype.valid hlen htype.unpolicied now)
  | @opened g hw event he hok now =>
    have htype : isValidRecordType RecordType.episodeOpened.raw = true := rfl
    have hmay : Unpolicied .episodeOpened := fun heq => by cases heq
    obtain ⟨g₁, hbinding, hw₁, heq⟩ := g.openEpisodeLocked_cases event now
    rw [heq]
    exact (Writing.of_binding hbinding).trans
      (writing_journalRecord (hw₁ hw he) htype (length_encodeEvent_le _) hmay now)
  | updated hok => exact .of_binding rfl
  | left => exact .of_binding rfl
  | @committed g hw event he hok fenced now =>
    have htype : isValidRecordType
        (if fenced then RecordType.episodeFenced else RecordType.episodeClosed).raw = true := by
      cases fenced <;> rfl
    have hmay : Unpolicied (if fenced then .episodeFenced else .episodeClosed) := by
      cases fenced <;> exact fun heq => by cases heq
    obtain ⟨g₁, hbinding, hw₁, heq⟩ := g.commitEpisode_cases event fenced now
    rw [heq]
    exact (Writing.of_binding hbinding).trans
      (writing_journalRecord (hw₁ hw he) htype (length_encodeEvent_le _) hmay now)

theorem Deeds.writing {ok : Governor → Phase → BurstEvent → Prop} {m m' : Midway}
    (hd : Deeds ok m m') : Writing Unpolicied m.governor m'.governor := by
  induction hd with
  | refl => exact .of_binding rfl
  | tail _ hdeed ih => exact ih.trans hdeed.writing

/-! ### Parts of calls -/

theorem writing_refresh {g : Governor} (hw : g.WellFormed) (now : Tick) :
    Writing Unpolicied g (g.refreshAuthorityLocked now).1 := by
  have hdeeds : Deeds anyEvent ⟨g, none⟩ ⟨(g.refreshAuthorityLocked now).1, none⟩ :=
    deeds_refreshAuthorityLocked hw now
  exact hdeeds.writing

/-- Rearming streams and revalidating the intents. -/
theorem writing_rearm {g : Governor} (hw : g.WellFormed) (keys : List StreamKey) (now : Tick) :
    Writing Unpolicied g ((keys.foldl rearmStream g).refreshAuthorityLocked now).1 :=
  (Writing.of_binding (binding_foldl_rearmStream keys g)).trans
    (writing_refresh (wellFormed_foldl_rearmStream keys hw) now)

theorem writing_checkpoint {g : Governor} (hw : g.WellFormed) : Writing types g g.checkpoint.2 := by
  have hsame : g.checkpoint.2.core = g.core := by
    rw [checkpoint, compactLocked]
    split
    · rfl
    · dsimp only
      split <;> rfl
  refine ⟨congrArg Core.policies hsame, congrArg (fun c => c.context.epoch) hsame, ?_, ?_⟩
  · intro hnone
    rw [checkpoint, compactLocked, hnone]
    exact hnone
  intro files hfiles
  rw [checkpoint]
  rcases compactLocked_cases hfiles with ⟨-, failure, hcompact⟩ | ⟨hfits, s', hcompact, hs', hdisk⟩
  · rw [hcompact]
    exact ⟨files, hfiles, .refl⟩
  · rw [hcompact]
    exact ⟨g.snapshotFiles [], ⟨s', rfl, hs', hdisk⟩,
      .single (.saved files hw rfl rfl hfits g.appliedRecords_snapshotFiles_nil)⟩

theorem writing_announceAuthority {g : Governor} (hw : g.WellFormed) :
    Writing Unpolicied g g.announceAuthority := by
  have htype : isValidRecordType RecordType.authorityBound.raw = true := rfl
  have hmay : Unpolicied .authorityBound := Aside.unpolicied (Or.inr (Or.inr rfl))
  rw [announceAuthority]
  have hpushed := fun e => @Writing.of_binding Unpolicied _ _ (g.binding_pushEmissionLocked e)
  have hwell := fun e => wellFormed_pushEmissionLocked hw e
  split
  · exact (hpushed _).trans
      (writing_appendRecordLocked (hwell _) htype (length_authorityPayload_le _) hmay _)
  · exact hpushed _

/-! ### Calls that leave the policies alone -/

/-- The call changes no policy and restores none. -/
def Op.leavesPolicies : Op → Bool
  | .installPolicy _ | .setResourcePolicy _ _ | .removeResourcePolicy _ | .bindStore _ | .restore =>
    false
  | _ => true

/-- The epoch that a call acts under: what it writes is written under it. -/
def actingEpoch (g : Governor) : Op → Epoch
  | .bindAuthority epoch _ _ => if !epoch.valid ∨ epoch.raw = 0 then g.context.epoch else epoch
  | _ => g.context.epoch

/-- A governor over the same store, with the policies and the epoch a call acts under. -/
structure Acting (g g₀ : Governor) (policies : PolicySet) (epoch : Epoch) : Prop where
  policies : g₀.policies = policies
  epoch : g₀.context.epoch = epoch
  store : g₀.store = g.store

theorem writing_bindAuthority {g : Governor} (hw : g.WellFormed) (epoch : Epoch)
    (incarnation : IncarnationId) (boot : BootId) : ∃ g₀,
      g.Acting g₀ g.policies (g.actingEpoch (.bindAuthority epoch incarnation boot)) ∧
      Writing Unpolicied g₀ (g.bindAuthority epoch incarnation boot).2 := by
  have htype : isValidRecordType RecordType.authorityBound.raw = true := rfl
  have hmay : Unpolicied .authorityBound := Aside.unpolicied (Or.inr (Or.inr rfl))
  rw [actingEpoch]
  rcases bindAuthority_cases hw epoch incarnation boot with
    ⟨hrefused, e, heq⟩ | ⟨hbound, g₁, hw₁, same, heq⟩
  · rw [if_pos hrefused, heq]
    exact ⟨g, ⟨rfl, rfl, rfl⟩, .of_binding rfl⟩
  · rw [if_neg hbound, heq]
    have hrebound : (g.rebound epoch incarnation boot).WellFormed := hw.congr rfl
    refine ⟨g.rebound epoch incarnation boot, ⟨rfl, rfl, rfl⟩, ?_⟩
    exact (writing_refresh hrebound g.lastTick).trans ((Writing.of_binding same.binding).trans
      (writing_journalRecord hw₁ htype (length_authorityPayload_le _) hmay _))

theorem writing_step {g : Governor} (hr : g.Reached) {op : Op} (hop : op.leavesPolicies = true) :
    ∃ g₀, g.Acting g₀ g.policies (g.actingEpoch op) ∧ Writing Unpolicied g₀ (g.step op) := by
  have hsame : g.Acting g g.policies g.context.epoch := ⟨rfl, rfl, rfl⟩
  cases op with
  | ingest sample =>
    have hdeeds : Deeds anyEvent ⟨g, none⟩ ⟨(g.ingest sample).2, none⟩ :=
      deeds_ingest hr.wellFormed sample fun _ _ _ _ _ _ => mirrors_anyEvent _ _ _
    exact ⟨g, hsame, hdeeds.writing⟩
  | advance now =>
    have hdeeds : Deeds anyEvent ⟨g, none⟩ ⟨(g.advance now).2, none⟩ :=
      deeds_advance (I := fun _ => True) hr.wellFormed hr.keyed trivial
        (fun _ _ _ _ _ => trivial) fun _ _ _ _ _ => mirrors_anyEvent _ _ _
    exact ⟨g, hsame, hdeeds.writing⟩
  | bindAuthority epoch incarnation boot =>
    exact writing_bindAuthority hr.wellFormed epoch incarnation boot
  | setResourceGeneration resource generation =>
    have hdeeds : Deeds anyEvent ⟨g, none⟩ ⟨(g.setResourceGeneration resource generation).2, none⟩ :=
      deeds_setResourceGeneration hr.wellFormed resource generation
    exact ⟨g, hsame, hdeeds.writing⟩
  | setInterventionsEnabled enabled =>
    have hdeeds : Deeds anyEvent ⟨g, none⟩ ⟨g.setInterventionsEnabled enabled, none⟩ :=
      deeds_setInterventionsEnabled hr.wellFormed enabled
    exact ⟨g, hsame, hdeeds.writing⟩
  | checkpoint => exact ⟨g, hsame, writing_checkpoint hr.wellFormed⟩
  | drainEmissions => exact ⟨g, hsame, .of_binding rfl⟩
  | installPolicy policy => cases hop
  | setResourcePolicy resource policy => cases hop
  | removeResourcePolicy resource => cases hop
  | bindStore store => cases hop
  | restore => cases hop

/-! ### Every call -/

/-- The record that an install adds to what rearming writes. -/
theorem writing_installPolicy {g : Governor} (hw : g.WellFormed) (policy : Policy) :
    ∃ g₀ policies, g.Acting g₀ policies g.context.epoch ∧
      Writing (fun _ => True) g₀ (g.installPolicy policy).2 := by
  rw [installPolicy]
  cases hset : g.policies.setFallback policy with
  | error e => exact ⟨g, _, ⟨rfl, rfl, rfl⟩, .of_binding rfl⟩
  | ok policies =>
    have hadopted : (g.adoptPolicies policies).countPolicyChange.WellFormed :=
      (wellFormed_adoptPolicies hw (PolicySet.restorable_setFallback hw.policies hset)
        (PolicySet.indexed_setFallback hw.indexed hset)).congr rfl
    have htype : isValidRecordType RecordType.policyInstalled.raw = true := rfl
    refine ⟨(g.adoptPolicies policies).countPolicyChange, policies, ⟨rfl, rfl, rfl⟩, ?_⟩
    dsimp only
    generalize (g.adoptPolicies policies).countPolicyChange = g₁ at *
    have hrearmed := writing_rearm hadopted g₁.streams.keys (g₁.streams.keys.foldl rearmStream g₁).lastTick
    have hw₂ := wellFormed_refreshAuthorityLocked
      (wellFormed_foldl_rearmStream g₁.streams.keys hadopted)
      (g₁.streams.keys.foldl rearmStream g₁).lastTick
    generalize ((g₁.streams.keys.foldl rearmStream g₁).refreshAuthorityLocked
      (g₁.streams.keys.foldl rearmStream g₁).lastTick).1 = g₂ at *
    refine (hrearmed.mono fun _ _ => trivial).trans
      ((Writing.of_binding (g₂.binding_pushEmissionLocked _)).trans
        (writing_journalRecord (wellFormed_pushEmissionLocked hw₂ _) htype ?_ trivial _))
    rw [List.length_append, length_encodePolicy, ByteWriter.length_u32]
    decide

/-- A restore fails, or it writes with the recovered policies in force. -/
theorem writing_restore {g : Governor} (hw : g.WellFormed) (hover : g.store = none ∨ g.Journaled) :
    ∃ g₀ policies, g.Acting g₀ policies g.context.epoch ∧ Writing Unpolicied g₀ g.restore.2.2 := by
  rcases hover with hnone | hover
  · rw [restore]
    split
    · exact ⟨g, _, ⟨rfl, rfl, rfl⟩, .of_binding rfl⟩
    · rename_i store hstore
      rw [hnone] at hstore
      cases hstore
  obtain ⟨s, hstore, hs, -⟩ := hover.overWhole
  have hreplayed := hs.replay collectRecord []
  rw [restore]
  split
  case h_1 hnone => rw [hstore] at hnone; cases hnone
  rename_i s₀ hs₀
  obtain rfl : s₀ = s := Option.some.inj (hs₀.symm.trans hstore)
  cases hreplay : s₀.replay collectRecord [] with
  | mk result s' =>
    rw [hreplay] at hreplayed
    obtain rfl : s' = s₀ := hreplayed
    cases result with
    | error failure =>
      exact ⟨g.withStore s', _, ⟨rfl, rfl, hstore.symm⟩, .of_binding rfl⟩
    | ok replayed =>
      dsimp only
      have hwith : (g.withStore s').WellFormed := hw.congr rfl
      have happlied := wellFormed_applyRecovery hwith ((g.withStore s').wellFormed_recover replayed)
        ((g.withStore s').recover replayed).2
      have hkept := store_applyRecovery (g.withStore s') ((g.withStore s').recover replayed).1
        ((g.withStore s').recover replayed).2
      obtain ⟨_, _, _, _, hcore⟩ := (g.withStore s').restored_applyRecovery
        ((g.withStore s').recover replayed).1 ((g.withStore s').recover replayed).2
      have hepoch := congrArg (fun c => c.context.epoch) hcore
      generalize ((g.withStore s').applyRecovery ((g.withStore s').recover replayed).1
        ((g.withStore s').recover replayed).2).1 = g₁ at *
      refine ⟨g₁, _, ⟨rfl, hepoch.trans ?_, hkept.trans hstore.symm⟩, writing_announceAuthority happlied⟩
      cases accumulatedPolicies ((g.withStore s').recover replayed).1 <;> rfl

/-- CALL: whatever is called, what it writes it writes under one set of policies and one epoch. -/
theorem writing_call {g : Governor} (hr : g.Reached) (hover : g.store = none ∨ g.Journaled)
    {op : Op} (hop : op.keepsStore = true) : ∃ g₀ policies, g.Acting g₀ policies (g.actingEpoch op) ∧
      Writing (fun _ => True) g₀ (g.step op) := by
  have hw := hr.wellFormed
  by_cases hleaves : op.leavesPolicies = true
  · obtain ⟨g₀, hacting, hwriting⟩ := writing_step hr hleaves
    exact ⟨g₀, _, hacting, hwriting.mono fun _ _ => trivial⟩
  cases op with
  | installPolicy policy => exact writing_installPolicy hw policy
  | setResourcePolicy resource policy =>
    rw [step, setResourcePolicy]
    cases hset : g.policies.setOverride resource policy with
    | error e => exact ⟨g, _, ⟨rfl, rfl, rfl⟩, .of_binding rfl⟩
    | ok policies =>
      have hadopted : (g.adoptPolicies policies).countPolicyChange.WellFormed :=
        (wellFormed_adoptPolicies hw (PolicySet.restorable_setOverride hw.policies hw.indexed hset)
          (PolicySet.indexed_setOverride hw.indexed hset)).congr rfl
      refine ⟨(g.adoptPolicies policies).countPolicyChange, policies, ⟨rfl, rfl, rfl⟩, ?_⟩
      exact (writing_rearm hadopted _ _).mono fun _ _ => trivial
  | removeResourcePolicy resource =>
    rw [step, removeResourcePolicy]
    cases hset : g.policies.removeOverride resource with
    | error e => exact ⟨g, _, ⟨rfl, rfl, rfl⟩, .of_binding rfl⟩
    | ok policies =>
      have hadopted : (g.adoptPolicies policies).countPolicyChange.WellFormed :=
        (wellFormed_adoptPolicies hw (PolicySet.restorable_removeOverride hw.policies hset)
          (PolicySet.indexed_removeOverride hw.indexed hset)).congr rfl
      refine ⟨(g.adoptPolicies policies).countPolicyChange, policies, ⟨rfl, rfl, rfl⟩, ?_⟩
      exact (writing_refresh hadopted _).mono fun _ _ => trivial
  | restore =>
    obtain ⟨g₀, policies, hacting, hwriting⟩ := writing_restore hw hover
    exact ⟨g₀, policies, hacting, hwriting.mono fun _ _ => trivial⟩
  | bindStore store => cases hop
  | _ => exact absurd rfl hleaves

end Governor

end Mbg
