import MicroburstGovernor.Coordinator.Session
import MicroburstGovernor.Governor.Writes

/-! The epochs that coordinators bind over one store directory, in one incarnation after another.

    A coordinator binds the epoch after the largest on record. What is on record stays there until a
    snapshot takes its place, and the snapshot tells the epoch of the governor it is taken of: that of
    its configuration, until a coordinator binds another. -/

namespace Mbg

open DurableStore Framing

namespace Coordinator

/-! ### What the files tell of an epoch -/

/-- The epoch is on record, or a later one is. -/
def Covers (files : Files) (epoch : Epoch) : Prop :=
  ∃ seen ∈ recorded files, epoch.raw ≤ seen.epoch.raw

theorem Covers.of_subset {files files' : Files} (h : recorded files ⊆ recorded files')
    {epoch : Epoch} (hcovers : Covers files epoch) : Covers files' epoch := by
  obtain ⟨seen, hseen, hle⟩ := hcovers
  exact ⟨seen, h hseen, hle⟩

theorem Covers.of_le {files : Files} {epoch later : Epoch} (hle : epoch.raw ≤ later.raw)
    (hcovers : Covers files later) : Covers files epoch := by
  obtain ⟨seen, hseen, hlater⟩ := hcovers
  exact ⟨seen, hseen, UInt32.le_trans hle hlater⟩

theorem framedRecords_appendJournal {files : Files} (h : WholeJournal files) {type : RecordType}
    (htype : isValidRecordType type.raw = true) {payload : Bytes}
    (hlen : payload.length ≤ Limits.maxJournalRecordBytes) (seq : RecordSeq) (tick : Tick) :
    AckedStore.framedRecords ((Effect.appendJournal (buildRecord type seq tick payload)).apply files) =
      AckedStore.framedRecords files ++ [⟨type, seq, tick, payload⟩] := by
  have hframe : journalFormat.IsFrame (buildRecord type seq tick payload) :=
    isFrame_buildRecord htype hlen
  have hjournal : ((Effect.appendJournal (buildRecord type seq tick payload)).apply
      files).journal.getD [] = files.journal.getD [] ++ buildRecord type seq tick payload := rfl
  rw [AckedStore.framedRecords, hjournal, journalFormat.split_append_frame h.framed hframe,
    List.map_append, List.map_singleton, parseRecord_buildRecord hlen, AckedStore.framedRecords]

/-- A record behind the journal leaves on record what is there. -/
theorem recorded_appendJournal {files : Files} (h : WholeJournal files) {type : RecordType}
    (htype : isValidRecordType type.raw = true) {payload : Bytes}
    (hlen : payload.length ≤ Limits.maxJournalRecordBytes) (seq : RecordSeq) (tick : Tick) :
    recorded ((Effect.appendJournal (buildRecord type seq tick payload)).apply files) =
      (AckedStore.framedRecords files).filterMap authorityOf ++
        (authorityOf ⟨type, seq, tick, payload⟩).toList ++ snapshotAuthority files.snapshot := by
  rw [recorded, framedRecords_appendJournal h htype hlen, List.filterMap_append]
  have hlast : [(⟨type, seq, tick, payload⟩ : JournaledRecord)].filterMap authorityOf =
      (authorityOf ⟨type, seq, tick, payload⟩).toList := by
    rw [List.filterMap_cons]
    cases authorityOf ⟨type, seq, tick, payload⟩ <;> rfl
  rw [hlast]
  rfl

/-- A snapshot whose state decodes tells the authority of that state. -/
theorem snapshotAuthority_of_state {files : Files} {state : PersistedState}
    (h : snapshotState files = some state) :
    snapshotAuthority files.snapshot = [⟨state.epoch, state.boot⟩] := by
  rw [snapshotState, intactSnapshot] at h
  cases hfile : files.snapshot with
  | none =>
    rw [hfile] at h
    cases h
  | some bytes =>
    rw [hfile] at h
    rw [snapshotAuthority]
    dsimp only [Option.map_some] at h ⊢
    cases hscan : scanSnapshot bytes with
    | damaged outcome detail =>
      rw [hscan] at h
      cases h
    | intact payload covered =>
      rw [hscan] at h
      dsimp only at h ⊢
      rw [observeSnapshot]
      cases hempty : payload.isEmpty with
      | true =>
        rw [hempty] at h
        cases h
      | false =>
        rw [hempty] at h
        simp only [Bool.false_eq_true, if_false, Bool.not_false, Bool.and_self, if_true] at h ⊢
        cases hdecode : decodeState payload with
        | error failure =>
          rw [hdecode] at h
          cases h
        | ok decoded =>
          rw [hdecode] at h
          cases h
          rfl

/-- A snapshot that decodes tells the epoch of its governor. -/
theorem covers_snapshotFiles {g : Governor} (hw : g.WellFormed)
    (hfits : (encodeState g.exportState).length ≤ Limits.maxSnapshotBytes) (journal : Bytes)
    (hdecodes : Decodes (g.snapshotFiles journal)) :
    Covers (g.snapshotFiles journal) g.context.epoch := by
  have hstate := Governor.snapshotState_snapshotFiles hw hfits journal hdecodes
  refine ⟨⟨g.context.epoch, g.context.boot⟩, List.mem_append_right _ ?_, UInt32.le_refl _⟩
  rw [snapshotAuthority_of_state hstate]
  exact List.mem_singleton_self _

/-- The journal grew, under the same snapshot. -/
def Grows (files files' : Files) : Prop :=
  files'.snapshot = files.snapshot ∧ files.journal.getD [] <+: files'.journal.getD []

instance (files files' : Files) : Decidable (Grows files files') := by
  unfold Grows
  infer_instance

theorem recorded_of_grows {files files' : Files} (h : Grows files files') :
    recorded files ⊆ recorded files' := by
  obtain ⟨hsnapshot, image, hjournal⟩ := h
  rw [recorded, recorded, hsnapshot, AckedStore.framedRecords, AckedStore.framedRecords, ← hjournal,
    journalFormat.split_append, List.map_append, List.filterMap_append, List.append_assoc]
  intro seen hseen
  rcases List.mem_append.mp hseen with hseen | hseen
  · exact List.mem_append_left _ hseen
  · exact List.mem_append_right _ (List.mem_append_right _ hseen)

/-- What a call under this epoch does to the files: while the snapshot stays, so does what is on
    record, and another snapshot tells the epoch. -/
def Carries (epoch : Epoch) (files files' : Files) : Prop :=
  files'.snapshot = files.snapshot ∧ recorded files ⊆ recorded files' ∨
    (Decodes files' → Covers files' epoch)

theorem Carries.trans {epoch : Epoch} {files files₁ files₂ : Files}
    (h : Carries epoch files files₁) (h' : Carries epoch files₁ files₂) :
    Carries epoch files files₂ := by
  rcases h' with ⟨hsnapshot', hsame'⟩ | htells'
  · rcases h with ⟨hsnapshot, hsame⟩ | htells
    · exact Or.inl ⟨hsnapshot'.trans hsnapshot, List.Subset.trans hsame hsame'⟩
    · exact Or.inr fun hdecodes => (htells ((decodes_congr hsnapshot').mp hdecodes)).of_subset hsame'
  · exact Or.inr htells'

theorem carries_of_wrote {types : RecordType → Prop} {policies : PolicySet} {epoch : Epoch}
    {files files' : Files} (h : Governor.Wrote types policies epoch files files') :
    Carries epoch files files' := by
  cases h with
  | appended hwhole htype hmay hlen seq tick =>
    refine Or.inl ⟨rfl, fun seen hseen => ?_⟩
    rw [recorded_appendJournal hwhole htype hlen, List.append_assoc]
    rcases List.mem_append.mp hseen with hseen | hseen
    · exact List.mem_append_left _ hseen
    · exact List.mem_append_right _ (List.mem_append_right _ hseen)
  | saved hw hpolicies hepoch hfits hcovered =>
    subst hepoch
    exact Or.inr (covers_snapshotFiles hw hfits _)

theorem carries_of_writes {types : RecordType → Prop} {policies : PolicySet} {epoch : Epoch}
    {files files' : Files}
    (h : Relation.ReflTransGen (Governor.Wrote types policies epoch) files files') :
    Carries epoch files files' := by
  induction h with
  | refl => exact Or.inl ⟨rfl, List.Subset.refl _⟩
  | tail _ hlast ih => exact ih.trans (carries_of_wrote hlast)

/-- The record of an epoch covers it. -/
theorem covers_authorityRecord {files : Files} (h : WholeJournal files) (epoch : Epoch)
    (incarnation : IncarnationId) (boot : BootId) (seq : RecordSeq) (tick : Tick) :
    Covers ((Effect.appendJournal (buildRecord .authorityBound seq tick
      (authorityRecord epoch incarnation boot))).apply files) epoch := by
  have htype : isValidRecordType RecordType.authorityBound.raw = true := rfl
  have hlen : (authorityRecord epoch incarnation boot).length ≤ Limits.maxJournalRecordBytes := by
    have hlength : (authorityRecord epoch incarnation boot).length = 20 := by simp [authorityRecord]
    rw [hlength]
    decide
  have hof : authorityOf ⟨.authorityBound, seq, tick, authorityRecord epoch incarnation boot⟩ =
      some ⟨epoch, boot⟩ := by
    rw [authorityOf, if_pos rfl, readAuthorityRecord_authorityRecord]
  refine ⟨⟨epoch, boot⟩, ?_, UInt32.le_refl _⟩
  rw [recorded_appendJournal h htype hlen, hof]
  exact List.mem_append_left _ (List.mem_append_right _ (List.mem_singleton_self _))

theorem covers_snapshotRecord (g : Governor) (epoch : Epoch) (incarnation : IncarnationId)
    (boot : BootId) (seq : RecordSeq) (tick : Tick) :
    Covers (g.snapshotFiles (buildRecord .authorityBound seq tick
      (authorityRecord epoch incarnation boot))) epoch := by
  have hempty : WholeJournal (g.snapshotFiles []) := ⟨Nat.zero_le _, rfl⟩
  have happended : ∀ record : Bytes,
      (Effect.appendJournal record).apply (g.snapshotFiles []) = g.snapshotFiles record := fun _ => rfl
  rw [← happended]
  exact covers_authorityRecord hempty epoch incarnation boot seq tick

/-! ### A store directory and its processes -/

/-- What a coordinator is started with, besides the governor and the store of its process. -/
structure Config where
  seedEpoch : Epoch := ⟨1⟩
  seedBoot : BootId := ⟨1⟩
  incarnation : IncarnationId := default
  maxWorkers : ℕ := Limits.maxConnections

end Coordinator

/-- A store directory as the process that has it open sees it: its store, its governor, and every
    epoch that a coordinator of this or an earlier process bound, the newest first. -/
structure Directory where
  store : DurableStore
  governor : Governor
  bound : List Epoch := []

namespace Directory

open Coordinator

/-- A process that has opened a store and bound nothing. -/
def opened (hashing : Hashing) (config : GovernorConfig) (store : DurableStore) : Directory :=
  { store, governor := Governor.new hashing config }

/-- The governor after a call. It writes to the store of the process, if it was given it. -/
def withGovernor (d : Directory) (governor : Governor) : Directory :=
  { d with governor, store := governor.store.getD d.store }

/-- One call on the governor. The only store that there is to give is that of the process. -/
def call (d : Directory) : Governor.Op → Directory
  | .bindStore given => d.withGovernor (d.governor.bindStore (given.map fun _ => d.store))
  | op => d.withGovernor (d.governor.step op)

/-- The authority that a start binds: what is on record, advanced, or else the seed. -/
def startAuthority (config : Config) (incarnation : IncarnationId) (store : DurableStore) :
    Except Failure (Epoch × BootId) × DurableStore :=
  match recoverDurableAuthority store with
  | (.error e, store) => (.error e, store)
  | (.ok durable, store) =>
    if durable.present then
      match advanceAuthority ⟨durable.epoch, incarnation, durable.boot⟩ with
      | .error e => (.error e, store)
      | .ok advanced => (.ok (advanced.epoch, advanced.boot), store)
    else (.ok (config.seedEpoch, config.seedBoot), store)

/-- The process after a replay of its store, which the governor shares if it was given it. -/
def replayed (d : Directory) (store : DurableStore) : Directory :=
  { d with store, governor := { d.governor with store := d.governor.store.map fun _ => store } }

/-- `Coordinator::start` with authority recovery over the store of the process, without the sockets:
    the network is up before it, and what the listener answers comes after the epoch is bound. -/
def start (d : Directory) (config : Config) (minted : IncarnationId) : Status × Directory :=
  if config.maxWorkers = 0 ∨ config.maxWorkers > Limits.maxConnections then
    (Status.failure .outOfRange "worker bound outside supported range", d)
  else
    let incarnation := if config.incarnation.valid then config.incarnation else minted
    let (authority, store) := startAuthority config incarnation d.store
    let d := d.replayed store
    match authority with
    | .error e => (.error e, d)
    | .ok (epoch, boot) =>
      let epoch := if epoch.raw = 0 then ⟨1⟩ else epoch
      match d.governor.bindAuthority epoch incarnation boot with
      | (.error e, governor) => (.error e, d.withGovernor governor)
      | (.ok (), governor) => (.ok (), { d.withGovernor governor with bound := epoch :: d.bound })

/-- What happens over a directory. -/
inductive Event where
  /-- The next incarnation opens the store and makes a governor. -/
  | incarnate (hashing : Hashing) (config : GovernorConfig) (options : StoreConfig)
  | call (op : Governor.Op)
  | start (config : Config) (minted : IncarnationId)

def step (d : Directory) : Event → Directory
  | .incarnate hashing config options =>
    match (DurableStore.ofFiles d.store.disk).openStore options with
    | (.error _, _) => d
    | (.ok (), store) => { opened hashing config store with bound := d.bound }
  | .call op => d.call op
  | .start config minted => (d.start config minted).2

/-! ### The law -/

/-- Over the later epoch nobody is accepted who presents the earlier one. -/
structure Supersedes (later earlier : Epoch) : Prop where
  above : earlier.raw < later.raw
  refuses : ∀ current claim claimed expected, current.epoch = later → claim.epoch = earlier →
    validateClaim current claim claimed expected ≠ .accepted

theorem supersedes_of_lt {later earlier : Epoch} (h : earlier.raw < later.raw) :
    Supersedes later earlier := by
  refine ⟨h, fun current claim claimed expected hcurrent hclaim hverdict => ?_⟩
  have hne : claim.epoch ≠ current.epoch := by
    rw [hcurrent, hclaim]
    rintro rfl
    exact UInt32.lt_irrefl _ h
  rw [validateClaim] at hverdict
  split_ifs at hverdict

/-- A call that takes a snapshot takes it under an epoch that no bound one is above, and a start writes
    its authority to the store. -/
def Guarded (d : Directory) : Event → Prop
  | .incarnate _ _ _ => True
  | .call op => Grows d.store.disk (d.call op).store.disk ∨
      Decodes (d.call op).store.disk ∧
        ∀ epoch ∈ d.bound, epoch.raw ≤ (d.governor.actingEpoch op).raw
  | .start config minted => d.governor.journaling = true ∧
      (d.start config minted).2.governor.failures = d.governor.failures ∧
      d.governor.interventions.size + 1 < 2 ^ 64

/-- What holds whenever no call is under way. -/
structure Held (d : Directory) : Prop where
  whole : Whole d.store
  shared : d.governor.store = none ∨ d.governor.store = some d.store
  reached : d.governor.Reached
  covered : ∀ epoch ∈ d.bound, Covers d.store.disk epoch
  superseded : d.bound.Pairwise Supersedes

theorem held_opened (hashing : Hashing) (config : GovernorConfig) {s : DurableStore} (h : Whole s) :
    (opened hashing config s).Held where
  whole := h
  shared := Or.inl rfl
  reached := Governor.reached_new hashing config
  covered := fun _ hepoch => by cases hepoch
  superseded := .nil

variable {d : Directory}

theorem Held.overWhole (h : d.Held) (hbound : d.governor.store = some d.store) :
    d.governor.OverWhole d.store.disk := ⟨d.store, hbound, h.whole, rfl⟩

/-- CALL: a call that takes no snapshot, or takes it under an epoch that no bound one is above. -/
theorem Held.call (h : d.Held) {op : Governor.Op} (hop : d.Guarded (.call op)) :
    (d.call op).Held := by
  have hstep : ∀ op : Governor.Op, op.keepsStore = true → d.Guarded (.call op) →
      d.call op = d.withGovernor (d.governor.step op) → (d.call op).Held := by
    intro op hkeeps hguard hcall
    have hover : d.governor.store = none ∨ d.governor.Journaled :=
      h.shared.imp_right fun hbound => ⟨_, h.overWhole hbound⟩
    obtain ⟨g₀, policies, hacting, hwriting⟩ := Governor.writing_call h.reached hover hkeeps
    rw [Guarded] at hguard
    rw [hcall] at hguard ⊢
    have hreached := h.reached.step op
    generalize d.governor.step op = g' at *
    rcases h.shared with hnone | hbound
    · have hnone' := hwriting.unbound (hacting.store.trans hnone)
      have hsame : (d.withGovernor g').store = d.store := by
        rw [withGovernor, hnone']
        rfl
      exact ⟨hsame ▸ h.whole, Or.inl hnone', hreached, hsame ▸ h.covered, h.superseded⟩
    · obtain ⟨files', ⟨s', hstore', hs', rfl⟩, hwrites⟩ :=
        hwriting.files _ ((h.overWhole hbound).congr hacting.store)
      have hsame : (d.withGovernor g').store = s' := by
        rw [withGovernor, hstore']
        rfl
      rw [hsame] at hguard
      refine ⟨hsame ▸ hs', Or.inr (hstore'.trans (congrArg some hsame.symm)), hreached, ?_,
        h.superseded⟩
      intro bound hmem
      rw [hsame]
      have hcovers := h.covered bound hmem
      rcases hguard with hgrows | ⟨hdecodes, hbelow⟩
      · exact hcovers.of_subset (recorded_of_grows hgrows)
      · rw [hacting.epoch] at hwrites
        rcases carries_of_writes hwrites with ⟨-, hkept⟩ | htells
        · exact hcovers.of_subset hkept
        · exact (htells hdecodes).of_le (hbelow bound hmem)
  cases op with
  | bindStore given =>
    cases given with
    | none => exact ⟨h.whole, Or.inl rfl, h.reached.step (.bindStore none), h.covered, h.superseded⟩
    | some _ =>
      exact ⟨h.whole, Or.inr rfl, h.reached.step (.bindStore (some d.store)), h.covered, h.superseded⟩
  | _ => exact hstep _ rfl hop rfl

theorem recoverDurableAuthority_whole {s : DurableStore} (h : Whole s) :
    (recoverDurableAuthority s).2 = s := by
  have hreplay := h.replay observeRecord []
  rw [recoverDurableAuthority]
  generalize s.replay observeRecord [] = result at *
  obtain ⟨e | replayed, s'⟩ := result <;> exact hreplay

/-- The epoch that a start binds. -/
def boundEpoch (epoch : Epoch) : Epoch := if epoch.raw = 0 then ⟨1⟩ else epoch

/-- A start reads the store as it is, and finds an authority above every epoch that was bound. -/
theorem Held.startAuthority (h : d.Held) (config : Config) (incarnation : IncarnationId) :
    (startAuthority config incarnation d.store).2 = d.store ∧
      ∀ authority, (startAuthority config incarnation d.store).1 = .ok authority →
        ∀ bound ∈ d.bound, bound.raw < (boundEpoch authority.1).raw := by
  have hwhole := recoverDurableAuthority_whole h.whole
  rw [Directory.startAuthority]
  cases hrecover : recoverDurableAuthority d.store with
  | mk result s' =>
    rw [hrecover] at hwhole
    obtain rfl : s' = d.store := hwhole
    cases result with
    | error e => exact ⟨rfl, fun authority hok => by cases hok⟩
    | ok durable =>
      have hfound : (recoverDurableAuthority d.store).1 = .ok durable := by rw [hrecover]
      obtain ⟨hlargest, habsent⟩ := recorded_of_recover h.whole.isOpen h.whole.faults hfound
      dsimp only
      split
      · cases hadvance : advanceAuthority ⟨durable.epoch, incarnation, durable.boot⟩ with
        | error e => exact ⟨rfl, fun authority hok => by cases hok⟩
        | ok advanced =>
          refine ⟨rfl, fun authority hok bound hbound => ?_⟩
          obtain rfl := Except.ok.inj hok
          obtain ⟨hvalid, -, rfl⟩ := advanceAuthority_eq_ok.mp hadvance
          obtain ⟨seen, hseen, hle⟩ := h.covered bound hbound
          have hmost := hlargest seen hseen
          rw [UInt32.le_iff_toNat_le] at hle hmost
          have hvalid' : durable.epoch.raw.toNat ≠ 2 ^ 32 - 1 := epoch_valid_iff.mp hvalid
          have hlt := durable.epoch.raw.toNat_lt
          have hnext : (durable.epoch.raw + 1).toNat = durable.epoch.raw.toNat + 1 := by
            rw [UInt32.toNat_add]
            exact Nat.mod_eq_of_lt (by simp only [UInt32.reduceToNat]; omega)
          have hne : durable.epoch.raw + 1 ≠ 0 := by
            intro hzero
            rw [hzero] at hnext
            cases hnext
          rw [boundEpoch, if_neg hne, UInt32.lt_iff_toNat_lt]
          dsimp only
          omega
      · rename_i hpresent
        refine ⟨rfl, fun authority hok bound hbound => ?_⟩
        obtain ⟨seen, hseen, -⟩ := h.covered bound hbound
        rw [habsent (by simpa using hpresent)] at hseen
        cases hseen

/-- A rebinding that loses no record puts its epoch on record, whatever it does to the files. -/
theorem covers_bindAuthority {g g' : Governor} {files : Files} (hr : g.Reached)
    (hover : g.OverWhole files) (hjournaling : g.journaling = true)
    (hfew : g.interventions.size + 1 < 2 ^ 64) {epoch : Epoch} {incarnation : IncarnationId}
    {boot : BootId} (hbind : g.bindAuthority epoch incarnation boot = (.ok (), g'))
    (hkept : g'.failures = g.failures) : ∃ files', g'.OverWhole files' ∧ Covers files' epoch := by
  have hrebound : (g.rebound epoch incarnation boot).WellFormed := hr.wellFormed.congr rfl
  have hkeyed : (g.rebound epoch incarnation boot).core.Keyed := hr.keyed
  have htype : isValidRecordType RecordType.authorityBound.raw = true := rfl
  rcases Governor.bindAuthority_cases hr.wellFormed epoch incarnation boot with
    ⟨-, e, heq⟩ | ⟨-, g₁, hw₁, same, heq⟩
  · rw [heq] at hbind
    cases hbind
  obtain rfl : g₁.journalRecord .authorityBound g₁.authorityPayload g₁.lastTick = g' :=
    congrArg Prod.snd (heq.symm.trans hbind)
  have hwriting := Governor.writing_refresh hrebound g.lastTick
  obtain ⟨k, hk, hlost⟩ :=
    (g.rebound epoch incarnation boot).failures_refreshAuthorityLocked g.lastTick
  have hcore := Governor.core_refreshAuthorityLocked hkeyed g.lastTick default
  have hconfig := congrArg (fun c => c.config.enableJournal) hcore
  generalize ((g.rebound epoch incarnation boot).refreshAuthorityLocked g.lastTick).1 = g₂ at *
  obtain ⟨files₁, hfiles₁, -⟩ := hwriting.files files (hover.congr rfl)
  have hstore : g₁.store = g₂.store := congrArg Governor.Face.store same.face
  have hepoch : g₁.context.epoch = epoch :=
    (congrArg Governor.Face.epoch same.face).trans hwriting.epoch
  have hover₁ : g₁.OverWhole files₁ := hfiles₁.congr hstore
  have hjournaling₁ : g₁.journaling = true := by
    have henabled : g₁.config.enableJournal = g.config.enableJournal :=
      (congrArg Governor.Face.enableJournal same.face).trans hconfig
    rw [Governor.journaling, Bool.and_eq_true] at hjournaling ⊢
    obtain ⟨s, hs, -⟩ := hover₁
    rw [hs, henabled]
    exact ⟨rfl, hjournaling.2⟩
  have hkept₁ : (g₁.journalRecord .authorityBound g₁.authorityPayload g₁.lastTick).failures ≠
      g₁.failures + 1 := by
    have hle : k ≤ g.interventions.size := hk
    rw [hkept, same.failures, hlost]
    exact Governor.ne_raised (by omega)
  obtain ⟨files', hfiles', hlanded⟩ := Governor.journalRecord_kept hover₁ hjournaling₁ htype
    g₁.length_authorityPayload_le hkept₁
  refine ⟨files', hfiles', ?_⟩
  have hwhole : WholeJournal files₁ := by
    obtain ⟨s, -, hs, rfl⟩ := hover₁
    exact hs.journal
  rw [← hepoch]
  rw [Governor.Landed, authorityPayload_eq] at hlanded
  rcases hlanded with rfl | ⟨-, rfl⟩
  · exact covers_authorityRecord hwhole _ _ _ _ _
  · exact covers_snapshotRecord _ _ _ _ _ _

theorem Held.replayed (h : d.Held) : d.replayed d.store = d := by
  have hmap : (d.governor.store.map fun _ => d.store) = d.governor.store := by
    rcases h.shared with hnone | hbound
    · rw [hnone]
      rfl
    · rw [hbound]
      rfl
  rw [Directory.replayed, hmap]

/-- A start that fails before it binds leaves everything as it is. -/
theorem Held.start_cases (h : d.Held) (config : Config) (minted : IncarnationId) :
    (d.start config minted).2 = d ∨ ∃ incarnation authority,
      (Directory.startAuthority config incarnation d.store).1 = .ok authority ∧
      ((∃ e, d.governor.bindAuthority (boundEpoch authority.1) incarnation authority.2 =
          (.error e, d.governor)) ∧ (d.start config minted).2 = d.withGovernor d.governor ∨
        ∃ g', d.governor.bindAuthority (boundEpoch authority.1) incarnation authority.2 =
            (.ok (), g') ∧ (d.start config minted).2 =
          { d.withGovernor g' with bound := boundEpoch authority.1 :: d.bound }) := by
  rw [Directory.start]
  split
  · exact Or.inl rfl
  generalize (if config.incarnation.valid then config.incarnation else minted) = incarnation
  obtain ⟨hstore, -⟩ := h.startAuthority config incarnation
  have hreplayed := h.replayed
  dsimp only
  rw [hstore, hreplayed]
  cases hauthority : (Directory.startAuthority config incarnation d.store).1 with
  | error e => exact Or.inl rfl
  | ok authority =>
    refine Or.inr ⟨incarnation, authority, hauthority, ?_⟩
    dsimp only
    rcases Governor.bindAuthority_cases h.reached.wellFormed (boundEpoch authority.1) incarnation
      authority.2 with ⟨-, e, heq⟩ | ⟨-, g₁, -, -, heq⟩
    · rw [boundEpoch] at heq
      rw [boundEpoch, heq]
      exact Or.inl ⟨⟨e, rfl⟩, rfl⟩
    · rw [boundEpoch] at heq
      rw [boundEpoch, heq]
      exact Or.inr ⟨_, rfl, rfl⟩

/-- START: the epoch that a coordinator binds is on record before the start returns. -/
theorem Held.start (h : d.Held) {config : Config} {minted : IncarnationId}
    (hguard : d.Guarded (.start config minted)) : (d.start config minted).2.Held := by
  rw [Guarded] at hguard
  rcases h.start_cases config minted with hsame | ⟨incarnation, authority, hauthority, hbinds⟩
  · rw [hsame]
    exact h
  rcases hbinds with ⟨-, hsame⟩ | ⟨g', hbind, hstarted⟩
  · have hunchanged : d.withGovernor d.governor = d := by
      rw [withGovernor]
      rcases h.shared with hnone | hbound
      · rw [hnone]
        rfl
      · rw [hbound]
        rfl
    rw [hsame, hunchanged]
    exact h
  · rw [hstarted] at hguard ⊢
    obtain ⟨hjournaling, hkept, hfew⟩ := hguard
    have hbound : d.governor.store = some d.store := by
      rcases h.shared with hnone | hbound
      · rw [Governor.journaling, hnone] at hjournaling
        cases hjournaling
      · exact hbound
    obtain ⟨-, habove⟩ := h.startAuthority config incarnation
    obtain ⟨files', ⟨s', hstore', hs', rfl⟩, hcovers⟩ :=
      covers_bindAuthority h.reached (h.overWhole hbound) hjournaling hfew hbind hkept
    have hreached : g'.Reached := by
      have hstep := h.reached.step (.bindAuthority (boundEpoch authority.1) incarnation authority.2)
      rw [Governor.step, hbind] at hstep
      exact hstep
    have hsame : (d.withGovernor g').store = s' := by
      rw [withGovernor, hstore']
      rfl
    refine ⟨hsame ▸ hs', Or.inr (hstore'.trans (congrArg some hsame.symm)), hreached, ?_, ?_⟩
    · intro bound hmem
      have hdisk : (d.withGovernor g').store.disk = s'.disk := congrArg DurableStore.disk hsame
      change Covers (d.withGovernor g').store.disk bound
      rw [hdisk]
      rcases List.mem_cons.mp hmem with rfl | hmem
      · exact hcovers
      · exact hcovers.of_le (UInt32.le_of_lt (habove authority hauthority bound hmem))
    · exact List.pairwise_cons.mpr ⟨fun bound hmem =>
        supersedes_of_lt (habove authority hauthority bound hmem), h.superseded⟩

theorem Held.step (h : d.Held) {event : Event} (hguard : d.Guarded event) : (d.step event).Held := by
  cases event with
  | incarnate hashing config options =>
    rw [Directory.step]
    cases hopen : (DurableStore.ofFiles d.store.disk).openStore options with
    | mk status s =>
      cases status with
      | error e => exact h
      | ok _ =>
        obtain ⟨hs, hsnapshot, hjournal⟩ := whole_openStore h.whole.journal hopen
        refine ⟨hs, Or.inl rfl, Governor.reached_new hashing config, fun bound hbound => ?_,
          h.superseded⟩
        refine (h.covered bound hbound).of_subset (recorded_of_grows ⟨hsnapshot, ?_⟩)
        rw [← hjournal]
        exact List.prefix_rfl
  | call op => exact h.call hguard
  | start config minted => exact h.start hguard

/-- EPOCHS RISE: over a directory whose snapshots are taken under epochs that no bound one is above,
    every epoch that a coordinator binds supersedes all that were bound before it. -/
theorem epochs_supersede (hashing : Hashing) (config : GovernorConfig) (s : DurableStore)
    (events : List Event) (hs : Whole s)
    (hmeets : Runs.Meets Directory.step Guarded (opened hashing config s) events) :
    (Runs.run Directory.step (opened hashing config s) events).bound.Pairwise Supersedes := by
  have hheld : (Runs.run Directory.step (opened hashing config s) events).Held :=
    Runs.run_invariant (I := Held) (fun _ _ h hguard => Held.step h hguard) (held_opened hashing config hs) hmeets
  exact hheld.superseded

instance (d : Directory) (event : Event) : Decidable (d.Guarded event) := by
  cases event <;> unfold Guarded <;> infer_instance

/-- A governor configured with a boot generation. -/
def bootedConfig : GovernorConfig := { boot := ⟨1⟩ }

/-- A process that opens the directory, gives the store to its governor and does some calls before it
    starts a coordinator. -/
def incarnation (calls : List Governor.Op) : List Event :=
  .incarnate .back bootedConfig { directory := "store" } :: .call (.bindStore (some default)) ::
    calls.map .call ++ [.start {} ⟨7⟩]

/-- A checkpoint under the epoch that was bound, and another start. -/
def savedEpoch : List Event := incarnation [] ++ [.call .checkpoint, .start {} ⟨7⟩]

theorem epochs_supersede_saved :
    (Runs.run Directory.step (opened .back bootedConfig emptyStore) savedEpoch).bound.Pairwise
      Supersedes :=
  epochs_supersede .back bootedConfig emptyStore savedEpoch whole_emptyStore
    ⟨by decide +kernel, by decide +kernel, by decide +kernel, by decide +kernel, by decide +kernel,
      trivial⟩

/-- The third process takes a checkpoint before it starts its coordinator. -/
def earlyCheckpoint : List Event :=
  incarnation [] ++ incarnation [] ++ incarnation [.restore, .checkpoint]

/-- REBOUND: the checkpoint tells the configured epoch in place of the last one bound, and the third
    coordinator binds the epoch of the second. -/
theorem epoch_rebound :
    let d := Runs.run Directory.step (opened .back bootedConfig emptyStore) earlyCheckpoint
    d.bound = [⟨2⟩, ⟨2⟩, ⟨1⟩] ∧ d.governor.failures = 0 ∧ ¬ d.bound.Pairwise Supersedes := by
  intro d
  have hrun : d.bound = [⟨2⟩, ⟨2⟩, ⟨1⟩] ∧ d.governor.failures = 0 := by decide +kernel
  refine ⟨hrun.1, hrun.2, fun hpairwise => ?_⟩
  rw [hrun.1, List.pairwise_cons] at hpairwise
  have hsuperseded := hpairwise.1 ⟨2⟩ (by simp)
  exact absurd hsuperseded.above (by decide)

end Directory

end Mbg
