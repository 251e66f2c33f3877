import MicroburstGovernor.Governor.Recovery
import MicroburstGovernor.Persist.Acknowledged

/-! The authority a coordinator starts under: recovered from the store, then advanced.

    Recovery takes the largest raw epoch and boot on record, and the raw value of an unset identity
    is the largest there is. -/

namespace Mbg

/-- The authority a process acts under: which epoch, which incarnation, which boot generation. -/
structure AuthorityState where
  epoch : Epoch := default
  incarnation : IncarnationId := default
  boot : BootId := default
  deriving DecidableEq, Repr, Inhabited

def AuthorityState.valid (a : AuthorityState) : Bool :=
  a.epoch.valid && a.epoch.raw != 0 && a.incarnation.valid && a.boot.valid

/-- Advances a boot generation and an epoch together, refusing to wrap. -/
def advanceAuthority (previous : AuthorityState) : Except Failure AuthorityState :=
  match addChecked previous.epoch.raw 1 with
  | none => Status.failure .overflow "authority epoch is exhausted"
  | some epoch =>
    match addChecked previous.boot.raw 1 with
    | none => Status.failure .overflow "boot generation is exhausted"
    | some boot => .ok { previous with epoch := ⟨epoch⟩, boot := ⟨boot⟩ }

namespace Coordinator

/-! ### Recovery -/

/-- An epoch and a boot generation found in the store. -/
structure Observed where
  epoch : Epoch
  boot : BootId
  deriving DecidableEq, Repr

/-- The visitor of the recovery: collects the authority of every authority record. -/
def observeRecord (observed : List Observed) (record : JournaledRecord) :
    Except Failure (List Observed) :=
  if record.type ≠ .authorityBound then .ok observed
  else
    let (authority, reader) :=
      RecoveryAccumulator.readAuthorityRecord (ByteReader.of record.payload)
    if !reader.ok || !reader.atEnd then
      Status.failure .corrupt "authority record payload is malformed"
    else .ok (observed ++ [⟨⟨authority.1⟩, ⟨authority.2.2⟩⟩])

/-- The authority of the snapshot, if it is present and decodes. -/
def observeSnapshot (present : Bool) (payload : Bytes) : List Observed :=
  if present && !payload.isEmpty then
    match decodeState payload with
    | .ok state => [⟨state.epoch, state.boot⟩]
    | .error _ => []
  else []

/-- Takes over an epoch, and a boot, that is not smaller. -/
def raiseAuthority (best seen : Observed) : Observed where
  epoch := if seen.epoch.raw ≥ best.epoch.raw then seen.epoch else best.epoch
  boot := if seen.boot.raw ≥ best.boot.raw then seen.boot else best.boot

/-- What the recovery returns: the authority to advance from, and whether any was on record. -/
structure DurableAuthority where
  epoch : Epoch
  boot : BootId
  present : Bool
  deriving DecidableEq, Repr

/-- Reads the durable authority written by previous incarnations. -/
def recoverDurableAuthority (store : DurableStore) :
    Except Failure DurableAuthority × DurableStore :=
  match store.replay observeRecord [] with
  | (.error e, store) => (.error e, store)
  | (.ok replayed, store) =>
    let observed := replayed.visited ++
      observeSnapshot replayed.report.snapshotPresent replayed.snapshotPayload
    let best := observed.foldl raiseAuthority ⟨⟨0⟩, ⟨0⟩⟩
    (.ok ⟨best.epoch, best.boot, !observed.isEmpty⟩, store)

/-! ### The fold -/

/-- Keeping what is not smaller ends at a largest one: of those seen, or the one at the start. -/
theorem foldl_largest {α : Type} (key : α → ℕ) : ∀ (seen : List α) (best : α),
    let last := seen.foldl (fun best a => if key best ≤ key a then a else best) best
    key best ≤ key last ∧ (∀ a ∈ seen, key a ≤ key last) ∧ (last = best ∨ last ∈ seen)
  | [], best => by simp
  | a :: seen, best => by
    obtain ⟨hbest, hseen, hmem⟩ :=
      foldl_largest key seen (if key best ≤ key a then a else best)
    rw [List.foldl_cons]
    dsimp only
    generalize seen.foldl (fun best a => if key best ≤ key a then a else best)
      (if key best ≤ key a then a else best) = last at *
    split_ifs at hbest hmem with hle
    · refine ⟨by omega, ?_, Or.inr ?_⟩
      · intro b hb
        rcases List.mem_cons.mp hb with rfl | hb
        · exact hbest
        · exact hseen b hb
      · rcases hmem with rfl | hmem
        · exact List.mem_cons_self
        · exact List.mem_cons_of_mem _ hmem
    · refine ⟨hbest, ?_, ?_⟩
      · intro b hb
        rcases List.mem_cons.mp hb with rfl | hb
        · omega
        · exact hseen b hb
      · exact hmem.imp_right (List.mem_cons_of_mem _)

theorem foldl_raiseAuthority : ∀ (seen : List Observed) (best : Observed),
    seen.foldl raiseAuthority best =
      ⟨(seen.map Observed.epoch).foldl
          (fun best e => if best.raw.toNat ≤ e.raw.toNat then e else best) best.epoch,
        (seen.map Observed.boot).foldl
          (fun best b => if best.raw.toNat ≤ b.raw.toNat then b else best) best.boot⟩
  | [], _ => rfl
  | a :: seen, best => by
    simp only [List.foldl_cons, List.map_cons]
    rw [foldl_raiseAuthority seen]
    simp only [raiseAuthority, ge_iff_le, UInt32.le_iff_toNat_le, UInt64.le_iff_toNat_le]

/-! ### What is on record -/

/-- The payload of an authority record. -/
def authorityRecord (epoch : Epoch) (incarnation : IncarnationId) (boot : BootId) : Bytes :=
  [ByteWriter.u32 epoch.raw, ByteWriter.u64 incarnation.raw, ByteWriter.u64 boot.raw].flatten

/-- Rebinding and recovery journal the authority in force, and nothing else as authority. -/
theorem authorityPayload_eq (g : Governor) : g.authorityPayload =
    authorityRecord g.context.epoch g.context.incarnation g.context.boot := rfl

/-- The authority a record holds. -/
def authorityOf (record : JournaledRecord) : Option Observed :=
  if record.type = .authorityBound then
    let authority := (RecoveryAccumulator.readAuthorityRecord (ByteReader.of record.payload)).1
    some ⟨⟨authority.1⟩, ⟨authority.2.2⟩⟩
  else none

/-- The authority the snapshot file holds. -/
def snapshotAuthority (file : Option Bytes) : List Observed :=
  match file with
  | none => []
  | some bytes =>
    match DurableStore.scanSnapshot bytes with
    | .damaged _ _ => []
    | .intact payload _ => observeSnapshot true payload

/-- Every authority on record, of the journal and of the snapshot. -/
def recorded (files : Files) : List Observed :=
  (AckedStore.framedRecords files).filterMap authorityOf ++ snapshotAuthority files.snapshot

/-- Every authority record was written as a governor writes it. -/
def Written (files : Files) : Prop :=
  ∀ record ∈ AckedStore.framedRecords files, record.type = .authorityBound →
    ∃ epoch incarnation boot, record.payload = authorityRecord epoch incarnation boot

open ByteReader in
theorem readAuthorityRecord_authorityRecord (epoch : Epoch) (incarnation : IncarnationId)
    (boot : BootId) :
    RecoveryAccumulator.readAuthorityRecord (.of (authorityRecord epoch incarnation boot)) =
      ((epoch.raw, incarnation.raw, boot.raw), .of []) := by
  have hlast : u64 (of (ByteWriter.u64 boot.raw)) = (boot.raw, of []) := by
    simpa using u64_write boot.raw []
  simp only [RecoveryAccumulator.readAuthorityRecord, authorityRecord, List.flatten_cons,
    List.flatten_nil, List.append_nil, u32_bind, u64_bind, bind_of_eq hlast, pure_apply]

theorem foldlM_observeRecord : ∀ {records : List JournaledRecord} (start : List Observed),
    (∀ record ∈ records, record.type = .authorityBound →
      ∃ epoch incarnation boot, record.payload = authorityRecord epoch incarnation boot) →
    records.foldlM observeRecord start = .ok (start ++ records.filterMap authorityOf)
  | [], start, _ => by simp [pure, Except.pure]
  | record :: records, start, h => by
    have htail := fun r hr => h r (List.mem_cons_of_mem _ hr)
    rw [List.foldlM_cons]
    by_cases htype : record.type = .authorityBound
    · obtain ⟨epoch, incarnation, boot, hpayload⟩ := h record List.mem_cons_self htype
      have hread := readAuthorityRecord_authorityRecord epoch incarnation boot
      have hobserve : observeRecord start record = .ok (start ++ [⟨epoch, boot⟩]) := by
        rw [observeRecord, if_neg (not_not_intro htype), hpayload, hread]
        rfl
      have hof : authorityOf record = some ⟨epoch, boot⟩ := by
        rw [authorityOf, if_pos htype, hpayload, hread]
      rw [hobserve, List.filterMap_cons_some hof]
      have ih := foldlM_observeRecord (start ++ [⟨epoch, boot⟩]) htail
      rw [List.append_assoc] at ih
      exact ih
    · have hobserve : observeRecord start record = .ok start := by
        rw [observeRecord, if_pos htype]
      have hof : authorityOf record = none := by rw [authorityOf, if_neg htype]
      rw [hobserve, List.filterMap_cons_none hof]
      exact foldlM_observeRecord start htail

theorem observeSnapshot_readSnapshot {report report' : RecoveryReport} {payload : Bytes}
    {file : Option Bytes} (h : DurableStore.readSnapshot report file = .ok (report', payload)) :
    observeSnapshot report'.snapshotPresent payload = snapshotAuthority file := by
  rw [DurableStore.readSnapshot] at h
  cases file with
  | none =>
    simp only [DurableStore.readBounded, Except.ok.injEq, Prod.mk.injEq] at h
    obtain ⟨rfl, rfl⟩ := h
    rfl
  | some bytes =>
    rw [DurableStore.readBounded] at h
    split_ifs at h with hlen
    · simp [Status.failure] at h
    · dsimp only at h
      rw [snapshotAuthority]
      cases hs : DurableStore.scanSnapshot bytes with
      | damaged outcome detail =>
        rw [hs] at h
        simp only [Except.ok.injEq, Prod.mk.injEq] at h
        obtain ⟨rfl, rfl⟩ := h
        rfl
      | intact body covered =>
        rw [hs] at h
        simp only [Except.ok.injEq, Prod.mk.injEq] at h
        obtain ⟨rfl, rfl⟩ := h
        rfl

/-- The recovery of readable files whose records are taken: the largest raw epoch and boot on record. -/
theorem recoverDurableAuthority_of_visit {s : DurableStore} (hopen : s.isOpen) (hf : s.faults = [])
    (hr : DurableStore.Readable s.disk)
    (hvisit : (AckedStore.framedRecords s.disk).foldlM observeRecord [] =
      .ok ((AckedStore.framedRecords s.disk).filterMap authorityOf)) :
    (recoverDurableAuthority s).1 =
      .ok ⟨((recorded s.disk).foldl raiseAuthority ⟨⟨0⟩, ⟨0⟩⟩).epoch,
        ((recorded s.disk).foldl raiseAuthority ⟨⟨0⟩, ⟨0⟩⟩).boot, !(recorded s.disk).isEmpty⟩ := by
  obtain ⟨report, payload, hs⟩ :=
    DurableStore.readSnapshot_readable { formatVersion := stateFormatVersion } hr.snapshot
  have hsnapshot := observeSnapshot_readSnapshot hs
  have hreplay : ∃ replayed s', s.replay observeRecord [] = (.ok replayed, s') ∧
      replayed.visited ++
        observeSnapshot replayed.report.snapshotPresent replayed.snapshotPayload =
          recorded s.disk := by
    rw [DurableStore.replay_nil hopen hf, hs]
    have hnil : journalFormat.split ([] : Bytes) = [] := journalFormat.split_nil
    rcases hj : s.disk.journal with - | (- | ⟨b, bs⟩)
    · refine ⟨_, _, rfl, ?_⟩
      rw [recorded, AckedStore.framedRecords, hj, Option.getD_none, hnil, ← hsnapshot]
      cases hp : report.snapshotPresent <;> simp [DurableStore.unscannedReport, hp]
    · refine ⟨_, _, rfl, ?_⟩
      rw [recorded, AckedStore.framedRecords, hj, Option.getD_some, hnil, ← hsnapshot]
      cases hp : report.snapshotPresent <;> simp [DurableStore.unscannedReport, hp]
    · rw [AckedStore.framedRecords, hj, Option.getD_some] at hvisit
      rw [DurableStore.readBounded_of_le (hr.journal _ hj)]
      dsimp only
      rw [hvisit]
      refine ⟨_, _, rfl, ?_⟩
      rw [recorded, AckedStore.framedRecords, hj, Option.getD_some, ← hsnapshot]
      rfl
  obtain ⟨replayed, s', hreplay, hobserved⟩ := hreplay
  rw [recoverDurableAuthority, hreplay]
  dsimp only
  rw [hobserved]

/-- So is the recovery of readable files whose authority records a governor wrote. -/
theorem recoverDurableAuthority_eq {s : DurableStore} (hopen : s.isOpen) (hf : s.faults = [])
    (hr : DurableStore.Readable s.disk) (hw : Written s.disk) :
    (recoverDurableAuthority s).1 =
      .ok ⟨((recorded s.disk).foldl raiseAuthority ⟨⟨0⟩, ⟨0⟩⟩).epoch,
        ((recorded s.disk).foldl raiseAuthority ⟨⟨0⟩, ⟨0⟩⟩).boot, !(recorded s.disk).isEmpty⟩ :=
  recoverDurableAuthority_of_visit hopen hf hr (foldlM_observeRecord [] hw)

/-! ### The law -/

/-- The largest valid epoch and boot on record are at least two below the unset identity. -/
structure Headroom (files : Files) : Prop where
  epoch : ∀ seen ∈ recorded files, seen.epoch.valid → seen.epoch.raw.toNat + 2 < 2 ^ 32
  boot : ∀ seen ∈ recorded files, seen.boot.valid → seen.boot.raw.toNat + 2 < 2 ^ 64

/-- Authority above everything valid on record. -/
structure Above (files : Files) (authority : AuthorityState) : Prop where
  validEpoch : authority.epoch.valid
  validBoot : authority.boot.valid
  epoch : ∀ seen ∈ recorded files, seen.epoch.valid → seen.epoch.raw < authority.epoch.raw
  boot : ∀ seen ∈ recorded files, seen.boot.valid → seen.boot.raw < authority.boot.raw

/-- Recovering the authority of a store and advancing it succeeds, above everything on record. -/
def Advances (s : DurableStore) (incarnation : IncarnationId) : Prop :=
  ∃ durable next, (recoverDurableAuthority s).1 = .ok durable ∧
    advanceAuthority ⟨durable.epoch, incarnation, durable.boot⟩ = .ok next ∧ Above s.disk next

/-- No identity on record was left unset. -/
def NoneUnset (files : Files) : Prop :=
  ∀ seen ∈ recorded files, seen.epoch.valid ∧ seen.boot.valid

theorem epoch_valid_iff {e : Epoch} : e.valid ↔ e.raw.toNat ≠ 2 ^ 32 - 1 := by
  have hmax : (~~~0 : UInt32).toNat = 2 ^ 32 - 1 := by decide
  rw [StrongId.valid, decide_eq_true_iff, ne_eq, ← UInt32.toNat_inj, hmax]

theorem boot_valid_iff {b : BootId} : b.valid ↔ b.raw.toNat ≠ 2 ^ 64 - 1 := by
  have hmax : (~~~0 : UInt64).toNat = 2 ^ 64 - 1 := by decide
  rw [StrongId.valid, decide_eq_true_iff, ne_eq, ← UInt64.toNat_inj, hmax]

theorem addChecked_one_epoch (e : UInt32) : addChecked e 1 =
    if e.toNat = 2 ^ 32 - 1 then none else some (e + 1) := by
  have hmax : (~~~0 - 1 : UInt32).toNat = 2 ^ 32 - 2 := by decide
  have := e.toNat_lt
  rw [addChecked]
  refine if_congr ?_ rfl rfl
  rw [gt_iff_lt, UInt32.lt_iff_toNat_lt, hmax]
  omega

theorem addChecked_one_boot (b : UInt64) : addChecked b 1 =
    if b.toNat = 2 ^ 64 - 1 then none else some (b + 1) := by
  have hmax : (~~~0 - 1 : UInt64).toNat = 2 ^ 64 - 2 := by decide
  have := b.toNat_lt
  rw [addChecked]
  refine if_congr ?_ rfl rfl
  rw [gt_iff_lt, UInt64.lt_iff_toNat_lt, hmax]
  omega

/-- Advancing succeeds exactly from a set epoch and a set boot. -/
theorem advanceAuthority_eq_ok {previous next : AuthorityState} :
    advanceAuthority previous = .ok next ↔ previous.epoch.valid ∧ previous.boot.valid ∧
      next = { previous with epoch := ⟨previous.epoch.raw + 1⟩, boot := ⟨previous.boot.raw + 1⟩ } := by
  rw [epoch_valid_iff, boot_valid_iff, advanceAuthority, addChecked_one_epoch, addChecked_one_boot]
  by_cases hepoch : previous.epoch.raw.toNat = 2 ^ 32 - 1
  · rw [if_pos hepoch]
    exact iff_of_false (by simp [Status.failure]) (fun h => h.1 hepoch)
  · by_cases hboot : previous.boot.raw.toNat = 2 ^ 64 - 1
    · rw [if_neg hepoch, if_pos hboot]
      exact iff_of_false (by simp [Status.failure]) (fun h => h.2.1 hboot)
    · rw [if_neg hepoch, if_neg hboot]
      constructor
      · intro h
        exact ⟨hepoch, hboot, (Except.ok.inj h).symm⟩
      · rintro ⟨-, -, rfl⟩
        rfl

/-- The fold ends at a largest epoch: of those on record, or zero. -/
theorem raisedEpoch (seen : List Observed) :
    (∀ a ∈ seen, a.epoch.raw.toNat ≤ (seen.foldl raiseAuthority ⟨⟨0⟩, ⟨0⟩⟩).epoch.raw.toNat) ∧
      ((seen.foldl raiseAuthority ⟨⟨0⟩, ⟨0⟩⟩).epoch = ⟨0⟩ ∨
        ∃ a ∈ seen, (seen.foldl raiseAuthority ⟨⟨0⟩, ⟨0⟩⟩).epoch = a.epoch) := by
  obtain ⟨-, hle, hmem⟩ :=
    foldl_largest (fun e : Epoch => e.raw.toNat) (seen.map Observed.epoch) ⟨0⟩
  rw [foldl_raiseAuthority]
  refine ⟨fun a ha => hle _ (List.mem_map_of_mem ha), hmem.imp_right fun h => ?_⟩
  obtain ⟨a, ha, heq⟩ := List.mem_map.mp h
  exact ⟨a, ha, heq.symm⟩

theorem raisedBoot (seen : List Observed) :
    (∀ a ∈ seen, a.boot.raw.toNat ≤ (seen.foldl raiseAuthority ⟨⟨0⟩, ⟨0⟩⟩).boot.raw.toNat) ∧
      ((seen.foldl raiseAuthority ⟨⟨0⟩, ⟨0⟩⟩).boot = ⟨0⟩ ∨
        ∃ a ∈ seen, (seen.foldl raiseAuthority ⟨⟨0⟩, ⟨0⟩⟩).boot = a.boot) := by
  obtain ⟨-, hle, hmem⟩ :=
    foldl_largest (fun b : BootId => b.raw.toNat) (seen.map Observed.boot) ⟨0⟩
  rw [foldl_raiseAuthority]
  refine ⟨fun a ha => hle _ (List.mem_map_of_mem ha), hmem.imp_right fun h => ?_⟩
  obtain ⟨a, ha, heq⟩ := List.mem_map.mp h
  exact ⟨a, ha, heq.symm⟩

/-- A recovery that succeeds read both files. -/
theorem readable_of_recover {s : DurableStore} (hopen : s.isOpen) (hf : s.faults = [])
    {durable : DurableAuthority} (h : (recoverDurableAuthority s).1 = .ok durable) :
    DurableStore.Readable s.disk := by
  rw [recoverDurableAuthority] at h
  rcases hreplay : s.replay observeRecord [] with ⟨e | replayed, s'⟩
  · rw [hreplay] at h
    cases h
  · exact DurableStore.readable_of_replay hopen hf hreplay

/-- Records that were all taken left the authority that each of them holds. -/
theorem foldlM_observeRecord_ok : ∀ {records : List JournaledRecord} {start out : List Observed},
    records.foldlM observeRecord start = .ok out → out = start ++ records.filterMap authorityOf
  | [], start, out, h => by
    obtain rfl := Except.ok.inj h
    simp
  | record :: records, start, out, h => by
    rw [List.foldlM_cons] at h
    cases hobserve : observeRecord start record with
    | error e =>
      rw [hobserve] at h
      cases h
    | ok next =>
      rw [hobserve] at h
      have ih := foldlM_observeRecord_ok h
      rw [observeRecord] at hobserve
      by_cases htype : record.type = .authorityBound
      · have hof : authorityOf record = some
            (⟨⟨(RecoveryAccumulator.readAuthorityRecord (.of record.payload)).1.1⟩,
              ⟨(RecoveryAccumulator.readAuthorityRecord (.of record.payload)).1.2.2⟩⟩ : Observed) := by
          rw [authorityOf, if_pos htype]
        rw [if_neg (not_not_intro htype)] at hobserve
        rw [ih, List.filterMap_cons_some hof]
        generalize RecoveryAccumulator.readAuthorityRecord (ByteReader.of record.payload) = read at *
        obtain ⟨authority, reader⟩ := read
        dsimp only at hobserve
        split_ifs at hobserve with hread
        · cases hobserve
        · obtain rfl := Except.ok.inj hobserve
          rw [List.append_assoc]
          rfl
      · rw [if_pos htype] at hobserve
        obtain rfl := Except.ok.inj hobserve
        rw [ih, List.filterMap_cons_none (by rw [authorityOf, if_neg htype])]

/-- Whatever stands in the files: a recovery that succeeds found the largest raw epoch on record. -/
theorem recorded_of_recover {s : DurableStore} (hopen : s.isOpen) (hf : s.faults = [])
    {durable : DurableAuthority} (h : (recoverDurableAuthority s).1 = .ok durable) :
    (∀ seen ∈ recorded s.disk, seen.epoch.raw ≤ durable.epoch.raw) ∧
      (durable.present = false → recorded s.disk = []) := by
  have hr := readable_of_recover hopen hf h
  cases hvisit : (AckedStore.framedRecords s.disk).foldlM observeRecord [] with
  | ok visited =>
    have hall := foldlM_observeRecord_ok hvisit
    rw [List.nil_append] at hall
    rw [hall] at hvisit
    rw [recoverDurableAuthority_of_visit hopen hf hr hvisit, Except.ok.injEq] at h
    subst h
    refine ⟨fun seen hseen => ?_, fun habsent => ?_⟩
    · rw [UInt32.le_iff_toNat_le]
      exact (raisedEpoch (recorded s.disk)).1 seen hseen
    · simpa using habsent
  | error e =>
    -- a record that is not taken fails the recovery
    obtain ⟨report, payload, hs⟩ :=
      DurableStore.readSnapshot_readable { formatVersion := stateFormatVersion } hr.snapshot
    have hnil : journalFormat.split ([] : Bytes) = [] := journalFormat.split_nil
    rw [recoverDurableAuthority, DurableStore.replay_nil hopen hf, hs] at h
    rw [AckedStore.framedRecords] at hvisit
    rcases hj : s.disk.journal with - | (- | ⟨b, bs⟩)
    · rw [hj, Option.getD_none, hnil] at hvisit
      cases hvisit
    · rw [hj, Option.getD_some, hnil] at hvisit
      cases hvisit
    · rw [hj, Option.getD_some] at hvisit
      rw [hj, DurableStore.readBounded_of_le (hr.journal _ hj)] at h
      dsimp only at h
      rw [hvisit] at h
      cases h

/-- A governor as it is configured by default, restored from an empty directory. -/
def defaultRestored : Governor :=
  ((Governor.new Hashing.back {}).bindStore (some { isOpen := true })).step .restore

end Coordinator

end Mbg
