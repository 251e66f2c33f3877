import MicroburstGovernor.Governor.CleanRecovery
import MicroburstGovernor.Governor.NoLiveness
import MicroburstGovernor.Governor.RecordPath
import MicroburstGovernor.Governor.Verbatim

/-! What a store lets governors write, and what a restore reads of it.

    A journal is bounded in bytes where it is written and in records where it is read; a snapshot is
    bounded by its payload where it is written and by its file where it is read. -/

namespace Mbg

open DurableStore Framing

namespace Governor

/-! ### The store stays whole -/

/-- A governor over some store that meets no fault. -/
def Journaled (g : Governor) : Prop := ∃ files, g.OverWhole files

theorem Journaled.congr {g g' : Governor} (h : g.Journaled) (same : g'.store = g.store) :
    g'.Journaled := by
  obtain ⟨files, hfiles⟩ := h
  exact ⟨files, hfiles.congr same⟩

/-- The files of the bound store. -/
def files (g : Governor) : Files := (g.store.map DurableStore.disk).getD {}

theorem OverWhole.files_eq {g : Governor} {files : Files} (h : g.OverWhole files) :
    g.files = files := by
  obtain ⟨s, hstore, -, rfl⟩ := h
  rw [Governor.files, hstore]
  rfl

theorem Journaled.overWhole {g : Governor} (h : g.Journaled) : g.OverWhole g.files := by
  obtain ⟨files, hfiles⟩ := h
  rw [hfiles.files_eq]
  exact hfiles

theorem Journaled.appendRecordLocked {g : Governor} (h : g.Journaled) {type : RecordType}
    {payload : Bytes} (htype : isValidRecordType type.raw)
    (hlen : payload.length ≤ Limits.maxJournalRecordBytes) (now : Tick) :
    (g.appendRecordLocked type payload now).Journaled := by
  obtain ⟨files, hfiles⟩ := h
  obtain ⟨s', hs', -, hface⟩ := appendRecordLocked_whole hfiles htype hlen now
  exact ⟨s'.disk, s', congrArg Face.store hface, hs', rfl⟩

theorem Journaled.journalRecord {g : Governor} (h : g.Journaled) {type : RecordType}
    {payload : Bytes} (htype : isValidRecordType type.raw)
    (hlen : payload.length ≤ Limits.maxJournalRecordBytes) (now : Tick) :
    (g.journalRecord type payload now).Journaled := by
  rw [Governor.journalRecord]
  split
  · exact h.appendRecordLocked htype hlen now
  · exact h

theorem Aside.valid {type : RecordType} (h : Aside type) : isValidRecordType type.raw = true := by
  rcases h with rfl | rfl | rfl <;> rfl

theorem length_encodeEvent_le (e : BurstEvent) :
    (encodeEvent e).length ≤ Limits.maxJournalRecordBytes := by
  rw [length_encodeEvent]
  decide

theorem store_of_binding {g g' : Governor} (h : g'.binding = g.binding) : g'.store = g.store :=
  congrArg (fun b => b.2.2.1) h

theorem Deed.journaled {ok : Governor → Phase → BurstEvent → Prop} {m m' : Midway}
    (hd : Deed ok m m') (h : m.governor.Journaled) : m'.governor.Journaled := by
  cases hd with
  | quiet same => exact h.congr (congrArg Face.store same.face)
  | noted same hw htype hlen now =>
    exact (h.congr (congrArg Face.store same.face)).journalRecord htype.valid hlen now
  | @opened g hw event he hok now =>
    have htype : isValidRecordType RecordType.episodeOpened.raw = true := rfl
    obtain ⟨g₁, hbinding, -, heq⟩ := g.openEpisodeLocked_cases event now
    rw [heq]
    exact (h.congr (store_of_binding hbinding)).journalRecord htype (length_encodeEvent_le _) now
  | updated hok => exact h.congr rfl
  | left => exact h.congr rfl
  | @committed g hw event he hok fenced now =>
    have htype : isValidRecordType
        (if fenced then RecordType.episodeFenced else RecordType.episodeClosed).raw = true := by
      cases fenced <;> rfl
    obtain ⟨g₁, hbinding, -, heq⟩ := g.commitEpisode_cases event fenced now
    rw [heq]
    exact (h.congr (store_of_binding hbinding)).journalRecord htype (length_encodeEvent_le _) now

theorem Deeds.journaled {ok : Governor → Phase → BurstEvent → Prop} {m m' : Midway}
    (hd : Deeds ok m m') (h : m.governor.Journaled) : m'.governor.Journaled := by
  induction hd with
  | refl => exact h
  | tail _ hdeed ih => exact hdeed.journaled ih

/-- Where nothing has to be known of the events, every call without policies is deeds. -/
def anyEvent : Governor → Phase → BurstEvent → Prop := fun _ _ _ => True

theorem mirrors_anyEvent (g : Governor) (d : Detector) (r : DetectionDecision) :
    Mirrors anyEvent g d r := ⟨fun _ _ _ => trivial, fun _ _ _ _ _ => trivial, fun _ _ _ => trivial⟩

theorem Journaled.rearmed {g : Governor} (h : g.Journaled) (hw : g.WellFormed)
    (keys : List StreamKey) :
    ((keys.foldl rearmStream g).refreshAuthorityLocked (keys.foldl rearmStream g).lastTick).1.Journaled := by
  have hrearmed : (keys.foldl rearmStream g).Journaled :=
    h.congr (store_of_binding (binding_foldl_rearmStream keys g))
  have hdeeds : Deeds anyEvent ⟨keys.foldl rearmStream g, none⟩
      ⟨((keys.foldl rearmStream g).refreshAuthorityLocked (keys.foldl rearmStream g).lastTick).1, none⟩ :=
    deeds_refreshAuthorityLocked (wellFormed_foldl_rearmStream keys hw) _
  exact hdeeds.journaled hrearmed

theorem Journaled.installPolicy {g : Governor} (h : g.Journaled) (hw : g.WellFormed)
    (policy : Policy) : (g.installPolicy policy).2.Journaled := by
  rw [Governor.installPolicy]
  cases hset : g.policies.setFallback policy with
  | error e => exact h
  | ok policies =>
    have hadopted : (g.adoptPolicies policies).countPolicyChange.WellFormed :=
      (wellFormed_adoptPolicies hw (PolicySet.restorable_setFallback hw.policies hset)
        (PolicySet.indexed_setFallback hw.indexed hset)).congr rfl
    have hjournaled : (g.adoptPolicies policies).countPolicyChange.Journaled := h.congr rfl
    dsimp only
    generalize (g.adoptPolicies policies).countPolicyChange = g₁ at *
    have hrearmed := hjournaled.rearmed hadopted g₁.streams.keys
    have htype : isValidRecordType RecordType.policyInstalled.raw = true := rfl
    refine Journaled.journalRecord (hrearmed.congr ?_) htype ?_ _
    · exact store_of_binding (binding_pushEmissionLocked _ _)
    · rw [List.length_append, length_encodePolicy, ByteWriter.length_u32]
      decide

theorem Journaled.setResourcePolicy {g : Governor} (h : g.Journaled) (hw : g.WellFormed)
    (resource : ResourceId) (policy : Policy) :
    (g.setResourcePolicy resource policy).2.Journaled := by
  rw [Governor.setResourcePolicy]
  cases hset : g.policies.setOverride resource policy with
  | error e => exact h
  | ok policies =>
    have hadopted : (g.adoptPolicies policies).countPolicyChange.WellFormed :=
      (wellFormed_adoptPolicies hw (PolicySet.restorable_setOverride hw.policies hw.indexed hset)
        (PolicySet.indexed_setOverride hw.indexed hset)).congr rfl
    have hjournaled : (g.adoptPolicies policies).countPolicyChange.Journaled := h.congr rfl
    dsimp only
    generalize (g.adoptPolicies policies).countPolicyChange = g₁ at *
    exact hjournaled.rearmed hadopted _

theorem Journaled.removeResourcePolicy {g : Governor} (h : g.Journaled) (hw : g.WellFormed)
    (resource : ResourceId) : (g.removeResourcePolicy resource).2.Journaled := by
  rw [Governor.removeResourcePolicy]
  cases hset : g.policies.removeOverride resource with
  | error e => exact h
  | ok policies =>
    have hadopted : (g.adoptPolicies policies).countPolicyChange.WellFormed :=
      (wellFormed_adoptPolicies hw (PolicySet.restorable_removeOverride hw.policies hset)
        (PolicySet.indexed_removeOverride hw.indexed hset)).congr rfl
    have hjournaled : (g.adoptPolicies policies).countPolicyChange.Journaled := h.congr rfl
    dsimp only
    generalize (g.adoptPolicies policies).countPolicyChange = g₁ at *
    exact hjournaled.rearmed hadopted []

theorem Journaled.checkpoint {g : Governor} (h : g.Journaled) : g.checkpoint.2.Journaled := by
  obtain ⟨files, hfiles⟩ := h
  rw [Governor.checkpoint]
  rcases compactLocked_cases hfiles with ⟨-, failure, hcompact⟩ | ⟨-, s', hcompact, hs', hdisk⟩
  · rw [hcompact]
    exact ⟨files, hfiles⟩
  · rw [hcompact]
    exact ⟨_, s', rfl, hs', hdisk⟩

theorem Journaled.announceAuthority {g : Governor} (h : g.Journaled) :
    g.announceAuthority.Journaled := by
  have hpushed : ∀ e, (g.pushEmissionLocked e).Journaled := fun e =>
    h.congr (store_of_binding (g.binding_pushEmissionLocked e))
  have htype : isValidRecordType RecordType.authorityBound.raw = true := rfl
  rw [Governor.announceAuthority]
  split
  · exact (hpushed _).appendRecordLocked htype (length_authorityPayload_le _) _
  · exact hpushed _

theorem Journaled.restore {g : Governor} (h : g.Journaled) : g.restore.2.2.Journaled := by
  obtain ⟨files, s, hstore, hs, hdisk⟩ := h
  have hreplay := hs.replay collectRecord []
  rw [Governor.restore]
  split
  case h_1 hnone => rw [hstore] at hnone; cases hnone
  rename_i s₀ hs₀
  obtain rfl : s₀ = s := Option.some.inj (hs₀.symm.trans hstore)
  generalize s₀.replay collectRecord [] = result at *
  obtain ⟨failure | replayed, s'⟩ := result
  · dsimp only at hreplay ⊢
    exact ⟨files, s', rfl, hreplay ▸ hs, hreplay ▸ hdisk⟩
  · dsimp only at hreplay ⊢
    refine Journaled.announceAuthority ?_
    have hover : (g.withStore s').Journaled := ⟨files, s', rfl, hreplay ▸ hs, hreplay ▸ hdisk⟩
    exact hover.congr (store_applyRecovery _ _ _)

/-- STEP: whatever is called, the store under the governor stays whole. -/
theorem Journaled.step {g : Governor} (h : g.Journaled) (hr : g.Reached) {op : Op}
    (hop : op.keepsStore = true) : (g.step op).Journaled := by
  cases op with
  | ingest sample =>
    exact Deeds.journaled (deeds_ingest hr.wellFormed sample fun _ _ _ _ _ _ => mirrors_anyEvent _ _ _) h
  | advance now =>
    exact Deeds.journaled (deeds_advance (I := fun _ => True) hr.wellFormed hr.keyed trivial
      (fun _ _ _ _ _ => trivial) fun _ _ _ _ _ => mirrors_anyEvent _ _ _) h
  | installPolicy policy => exact h.installPolicy hr.wellFormed policy
  | setResourcePolicy resource policy => exact h.setResourcePolicy hr.wellFormed resource policy
  | removeResourcePolicy resource => exact h.removeResourcePolicy hr.wellFormed resource
  | bindAuthority epoch incarnation boot =>
    rw [Governor.step]
    rcases bindAuthority_cases hr.wellFormed epoch incarnation boot with
      ⟨-, e, heq⟩ | ⟨-, g₁, -, same, heq⟩
    · rw [heq]
      exact h
    · rw [heq]
      have hrebound : (g.rebound epoch incarnation boot).WellFormed := hr.wellFormed.congr rfl
      have hdeeds : Deeds anyEvent ⟨g.rebound epoch incarnation boot, none⟩
          ⟨((g.rebound epoch incarnation boot).refreshAuthorityLocked g.lastTick).1, none⟩ :=
        deeds_refreshAuthorityLocked hrebound g.lastTick
      have hover : (g.rebound epoch incarnation boot).Journaled := h.congr rfl
      have htype : isValidRecordType RecordType.authorityBound.raw = true := rfl
      exact ((hdeeds.journaled hover).congr (congrArg Face.store same.face)).journalRecord htype
        (length_authorityPayload_le _) _
  | setResourceGeneration resource generation =>
    have hdeeds : Deeds anyEvent ⟨g, none⟩ ⟨(g.setResourceGeneration resource generation).2, none⟩ :=
      deeds_setResourceGeneration hr.wellFormed resource generation
    exact hdeeds.journaled h
  | setInterventionsEnabled enabled =>
    have hdeeds : Deeds anyEvent ⟨g, none⟩ ⟨g.setInterventionsEnabled enabled, none⟩ :=
      deeds_setInterventionsEnabled hr.wellFormed enabled
    exact hdeeds.journaled h
  | bindStore store => cases hop
  | checkpoint => exact h.checkpoint
  | restore => exact h.restore
  | drainEmissions => exact h.congr rfl

theorem Journaled.run : ∀ (ops : List Op) {g : Governor}, g.Journaled → g.Reached →
    (∀ op ∈ ops, op.keepsStore = true) → (Runs.run Governor.step g ops).Journaled
  | [], _, h, _, _ => h
  | op :: ops, _, h, hr, hkeeps => by
    rw [List.forall_mem_cons] at hkeeps
    exact Journaled.run ops (h.step hr hkeeps.1) (hr.step op) hkeeps.2

/-! ### Lives -/

/-- One life over a store directory: a governor that is given the opened store, and what it is called
    for before and after that. -/
structure Life where
  hashing : Hashing
  config : GovernorConfig
  store : StoreConfig
  before : List Op := []
  ops : List Op

/-- The governor of a life whose store opened. -/
def Life.run (l : Life) (s : DurableStore) : Governor :=
  Runs.run step ((Runs.run step (new l.hashing l.config) l.before).bindStore (some s)) l.ops

/-- The files a life leaves. No call into the operating system fails. -/
def Life.leaves (files : Files) (l : Life) : Files :=
  match (DurableStore.ofFiles files).openStore l.store with
  | (.error _, s) => s.disk
  | (.ok (), s) => ((l.run s).store.map DurableStore.disk).getD s.disk

/-- The files that lives one after another leave in a directory that was empty. -/
def filesAfter (lives : List Life) : Files := lives.foldl Life.leaves {}

theorem wholeJournal_openStore {files : Files} (h : WholeJournal files) (config : StoreConfig) :
    WholeJournal ((DurableStore.ofFiles files).openStore config).2.disk := by
  obtain ⟨-, hdisk | ⟨hnone, hdisk⟩⟩ :=
    AckedStore.openStore_disk (s := DurableStore.ofFiles files) rfl config
  · rw [hdisk]
    exact h
  · rw [hdisk]
    exact ⟨Nat.zero_le _, rfl⟩

theorem wholeJournal_leaves {files : Files} (h : WholeJournal files) (l : Life)
    (hkeeps : ∀ op ∈ l.ops, op.keepsStore = true) : WholeJournal (Life.leaves files l) := by
  have hopened := wholeJournal_openStore h l.store
  have hwhole : ∀ s, (DurableStore.ofFiles files).openStore l.store = (.ok (), s) → Whole s :=
    fun s hs => (whole_openStore h hs).1
  rw [Life.leaves]
  generalize (DurableStore.ofFiles files).openStore l.store = opened at *
  obtain ⟨failure | _, s⟩ := opened
  · exact hopened
  · have hreached : ((Runs.run step (new l.hashing l.config) l.before).bindStore (some s)).Reached :=
      ((reached_new l.hashing l.config).run l.before).step (.bindStore (some s))
    have hbound : ((Runs.run step (new l.hashing l.config) l.before).bindStore (some s)).Journaled :=
      ⟨s.disk, s, rfl, hwhole s rfl, rfl⟩
    obtain ⟨files', s', hstore, hs', rfl⟩ := hbound.run l.ops hreached hkeeps
    dsimp only
    rw [Life.run, hstore]
    exact hs'.journal

theorem wholeJournal_filesAfter (lives : List Life)
    (hkeeps : ∀ l ∈ lives, ∀ op ∈ l.ops, op.keepsStore = true) : WholeJournal (filesAfter lives) := by
  have hfold : ∀ (lives : List Life) (files : Files), WholeJournal files →
      (∀ l ∈ lives, ∀ op ∈ l.ops, op.keepsStore = true) →
        WholeJournal (lives.foldl Life.leaves files) := by
    intro lives
    induction lives with
    | nil => exact fun files h _ => h
    | cons l lives ih =>
      intro files h hkeeps
      rw [List.forall_mem_cons] at hkeeps
      exact ih _ (wholeJournal_leaves h l hkeeps.1) hkeeps.2
  exact hfold lives {} wholeJournal_empty hkeeps

/-! ### What is read back -/

/-- Every governor that is given a store over these files restores from it. -/
def Restores (files : Files) : Prop :=
  ∀ hashing config store s, (DurableStore.ofFiles files).openStore store = (.ok (), s) →
    ∃ report g', ((new hashing config).bindStore (some s)).restore = (.ok (), report, g')

/-- What a restore reads is within its bounds: the snapshot's file, and the records of the journal. -/
structure WithinLimits (files : Files) : Prop where
  snapshot : ∀ bytes, files.snapshot = some bytes → bytes.length ≤ Limits.maxSnapshotBytes
  journal : (AckedStore.framedRecords files).length ≤ Limits.maxRecoveredRecords

theorem length_framedRecords (files : Files) : (AckedStore.framedRecords files).length =
    (journalFormat.split (files.journal.getD [])).length := List.length_map _

/-- A whole journal restores exactly when both are within the limits. -/
theorem restores_of_wholeJournal {files : Files} (h : WholeJournal files) :
    Restores files ↔ WithinLimits files := by
  constructor
  · intro hrestores
    have hopens : ∃ s, (DurableStore.ofFiles files).openStore { directory := "store" } =
        (.ok (), s) := by
      rw [openStore, if_neg (by decide), if_neg (by decide), if_neg (by simp [ofFiles]),
        nextFault_nil rfl]
      exact ⟨_, rfl⟩
    obtain ⟨s, hopened⟩ := hopens
    obtain ⟨hs, hsnapshot, hjournal⟩ := whole_openStore h hopened
    obtain ⟨report, g', hrestore⟩ := hrestores Hashing.back {} _ s hopened
    obtain ⟨replayed, -, -, -, hreplay, -⟩ := restore_ok rfl hrestore
    have hreadable := readable_of_replay hs.isOpen hs.faults hreplay
    obtain ⟨-, -, -, -, hfold, -⟩ := replay_outcome hs.isOpen hs.faults hreplay
    refine ⟨fun bytes hbytes => hreadable.snapshot bytes (hsnapshot.trans hbytes), ?_⟩
    rw [foldlM_collectRecord _ _ (Nat.zero_le _), List.length_nil, Nat.zero_add] at hfold
    split at hfold
    · rename_i hcount
      rw [length_framedRecords, ← hjournal]
      exact (List.length_map _).symm.trans_le hcount
    · cases hfold
  · rintro ⟨hsnapshot, hcount⟩ hashing config store s hopened
    obtain ⟨hs, hkept, hjournal⟩ := whole_openStore h hopened
    refine exists_restore hs.isOpen hs.faults rfl ⟨fun bytes hbytes => ?_, fun image himage => ?_⟩ ?_
    · exact hsnapshot bytes (hkept.symm.trans hbytes)
    · have hbounded := hs.journal.bounded
      rw [himage] at hbounded
      exact hbounded
    · rw [length_framedRecords, ← hjournal] at hcount
      exact hcount

/-- A snapshot that was written is loaded exactly when its file, too, is within the bound. -/
theorem loads_iff {s s' : DurableStore} (hf : s.faults = []) {payload : Bytes} {covered : RecordSeq}
    {tick : Tick} (hwritten : s.writeSnapshot payload covered tick = (.ok (), s')) :
    (∃ report s'', s'.loadSnapshot {} = (.ok (report, payload), s'')) ↔
      payload.length + (snapshotHeaderBytes + snapshotTrailerBytes) ≤ Limits.maxSnapshotBytes := by
  have hfits : payload.length ≤ Limits.maxSnapshotBytes := by
    by_contra hlarge
    rw [writeSnapshot, if_pos (Nat.lt_of_not_le hlarge)] at hwritten
    cases hwritten
  obtain ⟨hfaults, journal, hdisk⟩ := writeSnapshot_disk hf hfits covered tick
  rw [hwritten] at hfaults hdisk
  dsimp only at hfaults hdisk
  have hlength : (buildSnapshot payload covered tick).length =
      payload.length + (snapshotHeaderBytes + snapshotTrailerBytes) := by
    have htrailer : snapshotTrailerBytes = 4 := rfl
    rw [buildSnapshot, List.length_append, length_snapshotBody, ByteWriter.length_u32]
    omega
  rw [loadSnapshot_nil hfaults, hdisk, readSnapshot]
  dsimp only
  constructor
  · rintro ⟨report, s'', hload⟩
    by_contra hlarge
    rw [readBounded, if_pos (by omega)] at hload
    cases hload
  · intro hle
    rw [readBounded_of_le (by omega)]
    dsimp only
    rw [scanSnapshot_buildSnapshot hfits]
    exact ⟨_, _, rfl⟩

/-- READ BACK: the files of lives on which no call fails are restored exactly when the snapshot's file
    and the records of the journal are within the limits of the reader, and a snapshot that was
    written is loaded exactly when its payload leaves room for the framing. -/
theorem readsBack_lives (lives : List Life)
    (hkeeps : ∀ l ∈ lives, ∀ op ∈ l.ops, op.keepsStore = true) :
    (Restores (filesAfter lives) ↔ WithinLimits (filesAfter lives)) ∧
      ∀ (s s' : DurableStore) payload covered tick, s.faults = [] →
        s.writeSnapshot payload covered tick = (.ok (), s') →
          ((∃ report s'', s'.loadSnapshot {} = (.ok (report, payload), s'')) ↔
            payload.length + (snapshotHeaderBytes + snapshotTrailerBytes) ≤
              Limits.maxSnapshotBytes) :=
  ⟨restores_of_wholeJournal (wholeJournal_filesAfter lives hkeeps),
    fun _ _ _ _ _ hf hwritten => loads_iff hf hwritten⟩

/-- A life that journals an epoch, and one after it. -/
def epochLife (epoch : UInt32) : Life where
  hashing := .back
  config := {}
  store := { directory := "store" }
  ops := [.restore, .bindAuthority ⟨epoch⟩ ⟨1⟩ ⟨1⟩, .checkpoint]

theorem readsBack_lives_epochs :
    (Restores (filesAfter [epochLife 1, epochLife 2]) ↔
      WithinLimits (filesAfter [epochLife 1, epochLife 2])) ∧
      ∀ (s s' : DurableStore) payload covered tick, s.faults = [] →
        s.writeSnapshot payload covered tick = (.ok (), s') →
          ((∃ report s'', s'.loadSnapshot {} = (.ok (report, payload), s'')) ↔
            payload.length + (snapshotHeaderBytes + snapshotTrailerBytes) ≤
              Limits.maxSnapshotBytes) :=
  readsBack_lives [epochLife 1, epochLife 2] (by decide)

/-! ### Too many records -/

/-- A governor with no intents, journaling into a store with room, of which every record so far is
    framed in a journal that no snapshot precedes. -/
structure Announced (g : Governor) (n : ℕ) : Prop where
  intents : g.interventions = UnorderedMap.empty
  journals : g.config.enableJournal = true
  store : ∃ s, g.store = some s ∧ Whole s ∧ s.config.maxJournalBytes.toNat = Limits.maxJournalBytes ∧
    s.journal.length = n * 64 ∧ (AckedStore.framedRecords s.disk).length = n

/-- With no intents there is nothing to revalidate. -/
theorem refreshAuthorityLocked_idle {g : Governor} (h : g.interventions = UnorderedMap.empty)
    (now : Tick) : (g.refreshAuthorityLocked now).1 = g := by
  have hkeys : g.interventions.keys = [] := by rw [h]; rfl
  rw [refreshAuthorityLocked, hkeys]
  rfl

/-- One more epoch is one more record of 64 bytes. -/
theorem Announced.bindAuthority {g : Governor} {n : ℕ} (h : g.Announced n)
    (hroom : (n + 1) * 64 ≤ Limits.maxJournalBytes) {epoch : Epoch} (hepoch : epoch.valid = true)
    (hnonzero : epoch.raw ≠ 0) (incarnation : IncarnationId) (boot : BootId) :
    (g.bindAuthority epoch incarnation boot).2.Announced (n + 1) := by
  obtain ⟨hintents, hjournals, s, hstore, hs, hlimit, hlength, hcount⟩ := h
  have hmax : Limits.maxJournalBytes = 67108864 := rfl
  rw [Governor.bindAuthority, if_neg (by simp [hepoch, hnonzero])]
  dsimp only
  rw [refreshAuthorityLocked_idle (by exact hintents)]
  generalize hg₁ : ({ g with
    context := { g.context with epoch, incarnation, boot }
    stats := { g.stats with authorityChanges := g.stats.authorityChanges + 1 } } : Governor) = g₁
  have hcore : g₁.core.interventions = UnorderedMap.empty ∧ g₁.core.config = g.config ∧
      g₁.store = some s := by
    rw [← hg₁]
    exact ⟨hintents, rfl, hstore⟩
  obtain ⟨hintents₁, hconfig₁, hstore₁⟩ := hcore
  have hpushed : ∀ e, (g₁.pushEmissionLocked e).core.interventions = UnorderedMap.empty ∧
      (g₁.pushEmissionLocked e).core.config = g.config ∧
        (g₁.pushEmissionLocked e).store = some s := by
    intro e
    rw [core_pushEmissionLocked]
    exact ⟨hintents₁, hconfig₁,
      (store_of_binding (g₁.binding_pushEmissionLocked e)).trans hstore₁⟩
  generalize ({ kind := .authorityBound, epoch, incarnation, tick := g₁.lastTick } : Emission) = e
  obtain ⟨hintents₂, hconfig₂, hstore₂⟩ := hpushed e
  generalize g₁.pushEmissionLocked e = g₂ at *
  have hpayload : g₂.authorityPayload.length = 20 := by simp [authorityPayload]
  have hheader : recordHeaderBytes = 44 := rfl
  have haccepts : Accepts s .authorityBound g₂.authorityPayload := by
    refine ⟨hs.isOpen, rfl, length_authorityPayload_le g₂, ?_⟩
    rw [hs.counted, hlength, hpayload, hlimit]
    omega
  have hjournaling : g₂.journaling = true := by
    have hconfig : g₂.config = g.config := hconfig₂
    rw [journaling, hstore₂, hconfig, hjournals]
    rfl
  have hcore := g₂.core_journalRecord .authorityBound g₂.authorityPayload g₂.lastTick
  rw [journalRecord, if_pos hjournaling] at hcore ⊢
  have hface := face_appendRecordLocked hstore₂ hs haccepts g₂.lastTick
  generalize g₂.appendRecordLocked .authorityBound g₂.authorityPayload g₂.lastTick = g₃ at *
  refine ⟨(congrArg Core.interventions hcore).trans hintents₂, ?_, _,
    congrArg Face.store hface, hs.appended haccepts _ _, hlimit, ?_, ?_⟩
  · have hconfig : g₃.config = g₂.config := congrArg Core.config hcore
    rw [hconfig]
    exact (congrArg GovernorConfig.enableJournal hconfig₂).trans hjournals
  · have hjournal : ∀ seq, (s.appended .authorityBound seq g₂.lastTick g₂.authorityPayload).journal =
        s.journal ++ buildRecord .authorityBound seq g₂.lastTick g₂.authorityPayload :=
      fun seq => rfl
    rw [hjournal, List.length_append, hlength, length_buildRecord, hpayload]
    omega
  · rw [hs.framed_appended haccepts, List.length_append, hcount, List.length_singleton]

/-- A life that binds the same authority again and again. -/
def boundLife (n : ℕ) : Life where
  hashing := .back
  config := {}
  store := { directory := "store" }
  ops := List.replicate n (.bindAuthority ⟨1⟩ ⟨1⟩ ⟨1⟩)

theorem announced_replicate {g : Governor} {k : ℕ} (h : g.Announced k) : ∀ n,
    (k + n) * 64 ≤ Limits.maxJournalBytes →
      (Runs.run step g (List.replicate n (.bindAuthority ⟨1⟩ ⟨1⟩ ⟨1⟩))).Announced (k + n) := by
  intro n
  induction n generalizing g k with
  | zero => exact fun _ => h
  | succ n ih =>
    intro hroom
    have hepoch : (⟨1⟩ : Epoch).valid = true := rfl
    have hnext := h.bindAuthority (by omega) hepoch (by decide) ⟨1⟩ ⟨1⟩
    have hrest := ih hnext (by rw [Nat.add_right_comm]; exact hroom)
    rw [Nat.add_right_comm, Nat.add_assoc] at hrest
    exact hrest

/-- A journal with one record more than a restore reads: every append to it succeeded. -/
theorem tooManyRecords_refused :
    ¬ ∀ lives : List Life, (∀ l ∈ lives, ∀ op ∈ l.ops, op.keepsStore = true) →
      Restores (filesAfter lives) := by
  intro hlaw
  have hmax : Limits.maxJournalBytes = 67108864 := rfl
  have hrecords : Limits.maxRecoveredRecords = 65536 := rfl
  have hkeeps : ∀ l ∈ [boundLife 65537], ∀ op ∈ l.ops, op.keepsStore = true := by
    intro l hl op hop
    rw [List.mem_singleton.mp hl] at hop
    rw [List.eq_of_mem_replicate hop]
    rfl
  have hwithin := (restores_of_wholeJournal (wholeJournal_filesAfter _ hkeeps)).mp (hlaw _ hkeeps)
  let s : DurableStore := ((DurableStore.ofFiles {}).openStore { directory := "store" }).2
  have hopened : (DurableStore.ofFiles {}).openStore { directory := "store" } = (.ok (), s) := rfl
  have hstart : ((new Hashing.back {}).bindStore (some s)).Announced 0 := by
    obtain ⟨hs, -, hjournal⟩ := whole_openStore wholeJournal_empty hopened
    exact ⟨rfl, rfl, s, rfl, hs, rfl, by rw [hjournal]; rfl, rfl⟩
  obtain ⟨-, -, s', hstore, -, -, -, hcount⟩ := announced_replicate hstart 65537 (by omega)
  have hfiles : filesAfter [boundLife 65537] = s'.disk := by
    rw [filesAfter, List.foldl_cons, List.foldl_nil, Life.leaves]
    have hstore' : (boundLife 65537).store = { directory := "store" } := rfl
    rw [hstore', hopened]
    dsimp only
    have hrun : (boundLife 65537).run s = Runs.run step ((new Hashing.back {}).bindStore (some s))
        (List.replicate 65537 (.bindAuthority ⟨1⟩ ⟨1⟩ ⟨1⟩)) := rfl
    rw [hrun, hstore]
    rfl
  have hjournal := hwithin.journal
  rw [hfiles, hcount] at hjournal
  omega

end Governor

end Mbg
