import MicroburstGovernor.Core.Incremental
import MicroburstGovernor.Model.Restorable
import MicroburstGovernor.Persist.Snapshot

/-! The durable state round trip: what is encoded is read back, and nothing else is.

    The decoder checks what it reads, so the round trip is of states that meet its checks. -/

namespace Mbg

/-! ### Every decoder is incremental -/

namespace ByteReader

theorem incremental_decodeStream : Incremental decodeStream := by
  iterate 3 refine incremental_bind incremental_u64 fun _ => ?_
  exact incremental_pure _

theorem incremental_decodeMetrics : Incremental decodeMetrics := by
  iterate 3 refine incremental_bind incremental_u64 fun _ => ?_
  iterate 2 refine incremental_bind incremental_i64 fun _ => ?_
  iterate 7 refine incremental_bind incremental_u64 fun _ => ?_
  exact incremental_pure _

theorem incremental_decodeSummary : Incremental decodeSummary := by
  iterate 4 refine incremental_bind incremental_u64 fun _ => ?_
  refine incremental_bind incremental_u32 fun _ => ?_
  iterate 6 refine incremental_bind incremental_u64 fun _ => ?_
  refine incremental_bind incremental_bool fun _ => ?_
  refine incremental_bind incremental_u64 fun _ => ?_
  iterate 2 refine incremental_bind incremental_bool fun _ => ?_
  refine incremental_bind incremental_u64 fun _ => ?_
  refine incremental_bind incremental_u32 fun _ => ?_
  refine incremental_bind incremental_isOk fun _ => ?_
  refine incremental_ite (incremental_pure _) ?_
  exact incremental_ite (incremental_pure _) (incremental_pure _)

theorem incremental_decodeEvent : Incremental decodeEvent := by
  refine incremental_bind incremental_u64 fun _ => ?_
  refine incremental_bind incremental_decodeStream fun _ => ?_
  refine incremental_bind incremental_u32 fun _ => ?_
  iterate 3 refine incremental_bind incremental_u8 fun _ => ?_
  refine incremental_bind incremental_decodeMetrics fun _ => ?_
  refine incremental_bind incremental_decodeSummary fun evidence => ?_
  cases evidence with
  | error e => exact incremental_pure _
  | ok evidence =>
    refine incremental_bind incremental_u64 fun _ => ?_
    refine incremental_bind incremental_u32 fun _ => ?_
    refine incremental_bind incremental_u64 fun _ => ?_
    refine incremental_bind incremental_u32 fun _ => ?_
    iterate 2 refine incremental_bind incremental_u64 fun _ => ?_
    refine incremental_bind incremental_u8 fun _ => ?_
    iterate 3 refine incremental_bind incremental_u64 fun _ => ?_
    refine incremental_bind incremental_u32 fun _ => ?_
    refine incremental_bind incremental_isOk fun _ => ?_
    -- nothing is read from here on
    repeat' first | exact incremental_pure _ | split

theorem incremental_decodeAuthority : Incremental decodeAuthority := by
  refine incremental_bind incremental_u32 fun _ => ?_
  iterate 2 refine incremental_bind incremental_u64 fun _ => ?_
  iterate 2 refine incremental_bind incremental_u32 fun _ => ?_
  iterate 4 refine incremental_bind incremental_u64 fun _ => ?_
  exact incremental_pure _

theorem incremental_decodeIntent : Incremental decodeIntent := by
  iterate 2 refine incremental_bind incremental_u64 fun _ => ?_
  refine incremental_bind incremental_decodeStream fun _ => ?_
  iterate 2 refine incremental_bind incremental_u8 fun _ => ?_
  refine incremental_bind incremental_u32 fun _ => ?_
  refine incremental_bind incremental_u64 fun _ => ?_
  refine incremental_bind incremental_decodeAuthority fun _ => ?_
  refine incremental_bind incremental_u64 fun _ => ?_
  refine incremental_bind incremental_u8 fun _ => ?_
  refine incremental_bind incremental_u16 fun _ => ?_
  refine incremental_bind incremental_u64 fun _ => ?_
  refine incremental_bind incremental_u8 fun _ => ?_
  refine incremental_bind incremental_isOk fun _ => ?_
  repeat' first | exact incremental_pure _ | split

theorem incremental_decodeLadder : Incremental decodeLadder := by
  iterate 4 refine incremental_bind incremental_u64 fun _ => ?_
  exact incremental_pure _

theorem incremental_decodeKindLimit : Incremental decodeKindLimit := by
  refine incremental_bind incremental_bool fun _ => ?_
  refine incremental_bind incremental_u32 fun _ => ?_
  refine incremental_bind incremental_u64 fun _ => ?_
  refine incremental_bind incremental_u8 fun _ => ?_
  exact incremental_pure _

theorem incremental_decodeRules : Incremental decodeRules := by
  iterate 4 refine incremental_bind incremental_u64 fun _ => ?_
  refine incremental_bind incremental_u32 fun _ => ?_
  iterate 3 refine incremental_bind incremental_u64 fun _ => ?_
  refine incremental_bind incremental_i64 fun _ => ?_
  iterate 3 refine incremental_bind incremental_u64 fun _ => ?_
  refine incremental_bind incremental_i64 fun _ => ?_
  refine incremental_bind incremental_u64 fun _ => ?_
  iterate 5 refine incremental_bind incremental_decodeLadder fun _ => ?_
  exact incremental_pure _

theorem incremental_decodeShaping (d : DetectionPolicy) : Incremental (decodeShaping d) := by
  iterate 4 refine incremental_bind incremental_u64 fun _ => ?_
  refine incremental_bind incremental_bool fun _ => ?_
  refine incremental_bind incremental_u32 fun _ => ?_
  refine incremental_bind incremental_u8 fun _ => ?_
  refine incremental_bind incremental_bool fun _ => ?_
  exact incremental_pure _

theorem incremental_decodeKinds : Incremental decodeKinds := by
  iterate 4 refine incremental_bind incremental_decodeKindLimit fun _ => ?_
  exact incremental_pure _

theorem incremental_decodePolicy : Incremental decodePolicy := by
  refine incremental_bind incremental_u64 fun _ => ?_
  refine incremental_bind incremental_decodeRules fun _ => ?_
  refine incremental_bind incremental_isOk fun _ => incremental_ite (incremental_pure _) ?_
  refine incremental_bind (incremental_decodeShaping _) fun _ => ?_
  refine incremental_bind incremental_decodeKinds fun _ => ?_
  refine incremental_bind incremental_isOk fun _ => incremental_ite (incremental_pure _) ?_
  iterate 2 refine incremental_bind incremental_u32 fun _ => ?_
  refine incremental_bind incremental_bool fun _ => ?_
  refine incremental_bind incremental_isOk fun _ => incremental_ite (incremental_pure _) ?_
  exact incremental_pure _

theorem incremental_decodeMany {α : Type} {decode : ReaderM (Except Failure α)}
    (h : Incremental decode) : ∀ count, Incremental (decodeMany decode count)
  | 0 => incremental_pure _
  | count + 1 => by
    refine incremental_bind h fun result => ?_
    cases result with
    | error e => exact incremental_pure _
    | ok a =>
      exact incremental_bind (incremental_decodeMany h count) fun _ => incremental_pure _

theorem incremental_decodeCounted {α : Type} {decode : ReaderM (Except Failure α)}
    (h : Incremental decode) (maximum : ℕ) (oversized : String) :
    Incremental (decodeCounted decode maximum oversized) := by
  refine incremental_bind incremental_u32 fun count => ?_
  refine incremental_bind incremental_isOk fun _ => incremental_ite (incremental_pure _) ?_
  exact incremental_ite (incremental_pure _) (incremental_decodeMany h _)

theorem incremental_decodeOverride : Incremental decodeOverride := by
  refine incremental_bind incremental_u64 fun _ => ?_
  exact incremental_bind incremental_decodePolicy fun _ => incremental_pure _

theorem incremental_decodePolicySet : Incremental decodePolicySet := by
  refine incremental_bind incremental_u32 fun _ => ?_
  refine incremental_bind incremental_decodePolicy fun fallback => ?_
  cases fallback with
  | error e => exact incremental_pure _
  | ok fallback =>
    refine incremental_bind incremental_u32 fun _ => ?_
    refine incremental_bind incremental_isOk fun _ => incremental_ite (incremental_pure _) ?_
    refine incremental_ite (incremental_pure _) ?_
    refine incremental_bind (incremental_decodeMany incremental_decodeOverride _) fun overrides => ?_
    cases overrides <;> exact incremental_pure _

theorem incremental_decodeCounters (s : PersistedState) : Incremental (decodeCounters s) := by
  iterate 9 refine incremental_bind incremental_u64 fun _ => ?_
  exact incremental_pure _

/-! ### Lists -/

/-- Elements that are read back one by one are read back as a list. -/
theorem decodeMany_write {α : Type} {decode : ReaderM (Except Failure α)} {encode : α → Bytes} :
    ∀ {as : List α}, (∀ a ∈ as, ∀ rest, decode (of (encode a ++ rest)) = (.ok a, of rest)) →
      ∀ rest, decodeMany decode as.length (of (as.flatMap encode ++ rest)) = (.ok as, of rest)
  | [], _, _ => rfl
  | a :: as, h, rest => by
    have htail : ∀ a' ∈ as, ∀ rest, decode (of (encode a' ++ rest)) = (.ok a', of rest) :=
      fun a' ha' => h a' (List.mem_cons_of_mem _ ha')
    have ih := decodeMany_write htail rest
    rw [List.length_cons, decodeMany, List.flatMap_cons, List.append_assoc,
      bind_of_eq (h a (by simp) _)]
    dsimp only
    rw [bind_of_eq ih]
    rfl

theorem toNat_length {α : Type} {as : List α} (h : as.length < 2 ^ 32) :
    as.length.toUInt32.toNat = as.length := by
  rw [Nat.toUInt32, UInt32.toNat_ofNat']
  omega

theorem decodeCounted_write {α : Type} {decode : ReaderM (Except Failure α)} {encode : α → Bytes}
    {as : List α} (h : ∀ a ∈ as, ∀ rest, decode (of (encode a ++ rest)) = (.ok a, of rest))
    {maximum : ℕ} (hbounded : as.length ≤ maximum) (hmaximum : maximum < 2 ^ 32)
    (oversized : String) (rest : Bytes) :
    decodeCounted decode maximum oversized
      (of (ByteWriter.u32 as.length.toUInt32 ++ (as.flatMap encode ++ rest))) = (.ok as, of rest) := by
  have hlt : as.length < 2 ^ 32 := by omega
  have hcount := toNat_length hlt
  rw [decodeCounted, u32_bind, isOk_bind, Bool.not_true, if_neg Bool.false_ne_true, hcount,
    if_neg (by omega)]
  exact decodeMany_write h rest

theorem always_decodeMany {α : Type} {P : α → Prop} {decode : ReaderM (Except Failure α)}
    (h : Always (fun x : Except Failure α => ∀ a, x = .ok a → P a) decode) : ∀ count,
    Always (fun x : Except Failure (List α) => ∀ as, x = .ok as → as.length = count ∧ ∀ a ∈ as, P a)
      (decodeMany decode count)
  | 0 => always_pure fun as has => by
    rw [← Except.ok.inj has]
    simp
  | count + 1 => by
    refine always_bind_of h fun result hresult => ?_
    cases result with
    | error e => exact always_pure fun a h => by simp at h
    | ok a =>
      refine always_bind_of (always_decodeMany h count) fun rest hrest => always_pure fun as has => ?_
      cases rest with
      | error e => cases has
      | ok rest =>
        obtain ⟨hlength, hall⟩ := hrest rest rfl
        rw [← Except.ok.inj has]
        refine ⟨by rw [List.length_cons, hlength], fun b hb => ?_⟩
        rcases List.mem_cons.mp hb with rfl | hb
        · exact hresult b rfl
        · exact hall b hb

theorem always_decodeCounted {α : Type} {P : α → Prop} {decode : ReaderM (Except Failure α)}
    (h : Always (fun x : Except Failure α => ∀ a, x = .ok a → P a) decode) (maximum : ℕ)
    (oversized : String) :
    Always (fun x : Except Failure (List α) => ∀ as, x = .ok as →
      as.length ≤ maximum ∧ ∀ a ∈ as, P a) (decodeCounted decode maximum oversized) := by
  refine always_bind fun count => always_bind fun _ => ?_
  refine always_ite (fun _ => always_failure) fun _ => ?_
  refine always_ite (fun _ => always_failure) fun hle r as has => ?_
  obtain ⟨hlength, hall⟩ := always_decodeMany h count.toNat r as has
  exact ⟨by omega, hall⟩

/-! ### The policy set and the counters -/

theorem decodeOverride_write {entry : PolicyOverride}
    (h : PolicySet.validate entry.policy = .ok ()) (rest : Bytes) :
    decodeOverride (of (encodeOverride entry ++ rest)) = (.ok entry, of rest) := by
  rw [decodeOverride, encodeOverride, List.append_assoc, u64_bind,
    bind_of_eq (decodePolicy_write h rest)]
  rfl

theorem decodePolicySet_write {s : PolicySet} (h : s.Restorable) (rest : Bytes) :
    decodePolicySet (of (encodePolicySet s ++ rest)) = (.ok s, of rest) := by
  have hfallback := h.valid s.fallback List.mem_cons_self
  have hoverrides : ∀ entry ∈ s.overrides, ∀ rest,
      decodeOverride (of (encodeOverride entry ++ rest)) = (.ok entry, of rest) :=
    fun entry hentry => decodeOverride_write
      (h.valid entry.policy (List.mem_cons_of_mem _ (List.mem_map_of_mem hentry)))
  have hmax : Limits.maxPolicyOverrides = 256 := rfl
  have hbounded := h.bounded
  have hlt : s.overrides.length < 2 ^ 32 := by omega
  have hcount := toNat_length hlt
  rw [encodePolicySet]
  simp only [List.flatten_cons, List.flatten_nil, List.append_nil, List.append_assoc]
  rw [decodePolicySet, u32_bind, bind_of_eq (decodePolicy_write hfallback _)]
  dsimp only
  rw [u32_bind, isOk_bind, Bool.not_true, if_neg Bool.false_ne_true, hcount, if_neg (by omega),
    bind_of_eq (decodeMany_write hoverrides rest)]
  dsimp only
  rw [pure_apply, h.restore_eq]

theorem restorable_of_decodePolicySet : Always (fun x : Except Failure PolicySet =>
    ∀ s, x = .ok s → s.Restorable) decodePolicySet := by
  rw [decodePolicySet]
  refine always_bind fun generation => always_bind fun fallback => ?_
  cases fallback with
  | error e => exact always_pure fun a h => by simp at h
  | ok fallback =>
  refine always_bind fun count => always_bind fun _ => ?_
  refine always_ite (fun _ => always_failure) fun _ => ?_
  refine always_ite (fun _ => always_failure) fun _ => always_bind fun overrides => ?_
  cases overrides with
  | error e => exact always_pure fun a h => by simp at h
  | ok overrides => exact always_pure fun s hs => PolicySet.restorable_restore hs

theorem decodeCounters_write (s : PersistedState) {base : PersistedState}
    (hbase : { s with
      lastDecisionSeq := base.lastDecisionSeq, lastRecordSeq := base.lastRecordSeq
      lastTick := base.lastTick, decisions := base.decisions
      episodesOpened := base.episodesOpened, episodesClosed := base.episodesClosed
      episodesFenced := base.episodesFenced
      interventionsRequested := base.interventionsRequested
      interventionsRevoked := base.interventionsRevoked } = base) (rest : Bytes) :
    decodeCounters base (of (encodeCounters s ++ rest)) = (s, of rest) := by
  rw [← hbase]
  simp only [decodeCounters, encodeCounters, List.flatten_cons, List.append_assoc, u64_bind,
    List.flatten_nil, List.nil_append, pure_apply]

/-! ### The state -/

open ByteWriter in
/-- `decode` of a state up to its last two checks. -/
def readState : ReaderM (Except Failure PersistedState) := do
  if (← u32) ≠ persistedMagic then
    return Status.failure .corrupt "persisted state magic mismatch"
  if (← u16) ≠ stateFormatVersion then
    return Status.failure .unsupported "persisted state version is not supported"
  let _ ← u16
  let boot ← u64
  let epoch ← u32
  let incarnation ← u64
  match ← decodePolicySet with
  | .error e => return .error e
  | .ok policies =>
  match ← decodeCounted decodeEvent Limits.maxEventsPersisted
      "persisted event count exceeds the bound" with
  | .error e => return .error e
  | .ok events =>
  match ← decodeCounted decodeIntent Limits.maxInterventions
      "persisted intervention count exceeds the bound" with
  | .error e => return .error e
  | .ok interventions =>
  return .ok (← decodeCounters
    { boot := ⟨boot⟩, epoch := ⟨epoch⟩, incarnation := ⟨incarnation⟩, policies, events,
      interventions })

/-- The last two checks: nothing is missing, and nothing is left. -/
def finishState : Except Failure PersistedState × ByteReader → Except Failure PersistedState
  | (.error e, _) => .error e
  | (.ok state, r) =>
    if !r.ok then Status.failure .truncated "persisted state is truncated"
    else if !r.atEnd then Status.failure .corrupt "persisted state carries trailing bytes"
    else .ok state

/-- A reader whose result is that of another one, finished. -/
def Finishes (x y : ReaderM (Except Failure PersistedState)) : Prop :=
  ∀ r, (x r).1 = finishState (y r)

theorem finishes_error (e : Failure) : Finishes (pure (.error e)) (pure (.error e)) := fun _ => rfl

theorem finishes_bind {α : Type} {x : ReaderM α} {f g : α → ReaderM (Except Failure PersistedState)}
    (h : ∀ a, Finishes (f a) (g a)) : Finishes (x >>= f) (x >>= g) := fun r => h (x r).1 (x r).2

theorem finishes_ite {c : Prop} [Decidable c] {x y z w : ReaderM (Except Failure PersistedState)}
    (h₁ : Finishes x y) (h₂ : Finishes z w) :
    Finishes (if c then x else z) (if c then y else w) := by
  split
  · exact h₁
  · exact h₂

theorem decodeState_eq (bytes : Bytes) : decodeState bytes =
    if bytes.length > Limits.maxSnapshotBytes then
      Status.failure .oversized "persisted state exceeds the bound"
    else finishState (readState (of bytes)) := by
  rw [decodeState]
  refine if_congr Iff.rfl rfl ?_
  revert bytes
  suffices h : Finishes _ readState by exact fun bytes => h (of bytes)
  refine finishes_bind fun magic => finishes_ite (finishes_error _) ?_
  refine finishes_bind fun version => finishes_ite (finishes_error _) ?_
  refine finishes_bind fun _ => finishes_bind fun boot => finishes_bind fun epoch => ?_
  refine finishes_bind fun incarnation => finishes_bind fun policies => ?_
  cases policies with
  | error e => exact finishes_error e
  | ok policies =>
  refine finishes_bind fun events => ?_
  cases events with
  | error e => exact finishes_error e
  | ok events =>
  refine finishes_bind fun interventions => ?_
  cases interventions with
  | error e => exact finishes_error e
  | ok interventions =>
  refine finishes_bind fun state r => ?_
  -- the last two checks read the latch and what is left
  obtain ⟨data, ok⟩ := r
  cases ok with
  | false => rfl
  | true =>
    cases data with
    | nil => rfl
    | cons b data => rfl

theorem incremental_readState : Incremental readState := by
  refine incremental_bind incremental_u32 fun _ => incremental_ite (incremental_pure _) ?_
  refine incremental_bind incremental_u16 fun _ => incremental_ite (incremental_pure _) ?_
  refine incremental_bind incremental_u16 fun _ => ?_
  refine incremental_bind incremental_u64 fun _ => ?_
  refine incremental_bind incremental_u32 fun _ => ?_
  refine incremental_bind incremental_u64 fun _ => ?_
  refine incremental_bind incremental_decodePolicySet fun policies => ?_
  cases policies with
  | error e => exact incremental_pure _
  | ok policies =>
  refine incremental_bind (incremental_decodeCounted incremental_decodeEvent _ _) fun events => ?_
  cases events with
  | error e => exact incremental_pure _
  | ok events =>
  refine incremental_bind (incremental_decodeCounted incremental_decodeIntent _ _)
    fun interventions => ?_
  cases interventions with
  | error e => exact incremental_pure _
  | ok interventions =>
  exact incremental_bind (incremental_decodeCounters _) fun _ => incremental_pure _

end ByteReader

/-- What the decoder demands of a state beyond its bytes. -/
structure PersistedState.WellFormed (s : PersistedState) : Prop where
  policies : s.policies.Restorable
  events : ∀ e ∈ s.events, e.WellFormed
  eventCount : s.events.length ≤ Limits.maxEventsPersisted
  interventions : ∀ i ∈ s.interventions, i.WellFormed
  interventionCount : s.interventions.length ≤ Limits.maxInterventions

namespace ByteReader

theorem readState_write {s : PersistedState} (h : s.WellFormed) (rest : Bytes) :
    readState (of (encodeState s ++ rest)) = (.ok s, of rest) := by
  have hevents := decodeCounted_write
    (fun e he rest => decodeEvent_write (h.events e he) rest) h.eventCount (by decide)
    "persisted event count exceeds the bound"
  have hintents := decodeCounted_write
    (fun i hi rest => decodeIntent_write (h.interventions i hi) rest) h.interventionCount (by decide)
    "persisted intervention count exceeds the bound"
  rw [encodeState]
  simp only [List.flatten_cons, List.flatten_nil, List.append_nil, List.append_assoc]
  rw [readState, u32_bind, if_neg (by simp), u16_bind, if_neg (by simp), u16_bind, u64_bind, u32_bind,
    u64_bind, bind_of_eq (decodePolicySet_write h.policies _)]
  dsimp only
  rw [bind_of_eq (hevents _)]
  dsimp only
  rw [bind_of_eq (hintents _)]
  dsimp only
  rw [bind_of_eq (decodeCounters_write s rfl rest)]
  rfl

end ByteReader

/-! ### Sizes -/

theorem length_encodeEvent (e : BurstEvent) : (encodeEvent e).length = 311 := by
  simp [encodeEvent, encodeStream, encodeMetrics, encodeSummary]

theorem length_encodePolicy (p : Policy) : (encodePolicy p).length = 380 := by
  simp [encodePolicy, encodeRules, encodeShaping, encodeKinds, encodeLadder, encodeKindLimit]

/-- A list of encodings of one size. -/
theorem length_flatMap {α : Type} {encode : α → Bytes} {size : ℕ}
    (h : ∀ a, (encode a).length = size) (as : List α) :
    (as.flatMap encode).length = as.length * size := by
  induction as with
  | nil => simp
  | cons a as ih =>
    rw [List.flatMap_cons, List.length_append, h, ih, List.length_cons, Nat.succ_mul, Nat.add_comm]

theorem length_encodeState (s : PersistedState) : (encodeState s).length =
    s.policies.overrides.length * 388 + s.events.length * 311 + s.interventions.length * 134 +
      496 := by
  have hoverride : ∀ entry : PolicyOverride, (encodeOverride entry).length = 388 := by
    intro entry
    rw [encodeOverride, List.length_append, length_encodePolicy, ByteWriter.length_u64]
  rw [encodeState]
  simp only [List.flatten_cons, List.flatten_nil, List.length_append, List.length_nil,
    ByteWriter.length_u16, ByteWriter.length_u32, ByteWriter.length_u64, encodePolicySet,
    encodeCounters, length_flatMap length_encodeEvent, length_flatMap length_encodeIntent,
    length_flatMap hoverride, length_encodePolicy]
  omega

/-- A state within the bounds of its lists fits a snapshot. -/
theorem PersistedState.WellFormed.length_le {s : PersistedState} (h : s.WellFormed) :
    (encodeState s).length ≤ Limits.maxSnapshotBytes := by
  have hevents : s.events.length ≤ 65536 := h.eventCount
  have hintents : s.interventions.length ≤ 1024 := h.interventionCount
  have hoverrides : s.policies.overrides.length ≤ 256 := h.policies.bounded
  have hmax : Limits.maxSnapshotBytes = 67108864 := rfl
  rw [length_encodeState]
  omega

/-! ### The round trip -/

open ByteReader

theorem decodeState_encodeState {s : PersistedState} (h : s.WellFormed) :
    decodeState (encodeState s) = .ok s := by
  have hread := readState_write h []
  rw [List.append_nil] at hread
  rw [decodeState_eq, if_neg (Nat.not_lt.mpr h.length_le), hread]
  rfl

/-- An accepted input was read to its end without underflow. -/
theorem readState_of_decodeState {bytes : Bytes} {s : PersistedState}
    (h : decodeState bytes = .ok s) : readState (of bytes) = (.ok s, of []) := by
  rw [decodeState_eq] at h
  split at h
  · cases h
  · generalize readState (of bytes) = read at h ⊢
    obtain ⟨result, data, ok⟩ := read
    cases result with
    | error e => cases h
    | ok state =>
      cases ok with
      | false => cases h
      | true =>
        cases data with
        | nil => rw [Except.ok.inj h]
        | cons b data => cases h

/-- A snapshot that decodes holds no more events than the decoder takes. -/
theorem eventCount_of_decodeState {s s' : PersistedState} (hpolicies : s.policies.Restorable)
    (h : decodeState (encodeState s) = .ok s') : s.events.length ≤ Limits.maxEventsPersisted := by
  have hmax : Limits.maxSnapshotBytes = 67108864 := rfl
  have hevents : Limits.maxEventsPersisted = 65536 := rfl
  have hfits : (encodeState s).length ≤ Limits.maxSnapshotBytes := by
    by_contra hlarge
    rw [decodeState_eq, if_pos (Nat.lt_of_not_le hlarge)] at h
    cases h
  rw [length_encodeState] at hfits
  have hcount : s.events.length.toUInt32.toNat = s.events.length := toNat_length (by omega)
  have hread := readState_of_decodeState h
  by_contra hmany
  rw [encodeState] at hread
  simp only [List.flatten_cons, List.flatten_nil, List.append_nil] at hread
  rw [readState, u32_bind, if_neg (by simp), u16_bind, if_neg (by simp), u16_bind, u64_bind, u32_bind,
    u64_bind, bind_of_eq (decodePolicySet_write hpolicies _)] at hread
  dsimp only at hread
  have hrefused : ∀ rest, (decodeCounted decodeEvent Limits.maxEventsPersisted
      "persisted event count exceeds the bound" (of (ByteWriter.u32 s.events.length.toUInt32 ++ rest))) =
      (Status.failure .oversized "persisted event count exceeds the bound", of rest) := by
    intro rest
    rw [decodeCounted, u32_bind, isOk_bind, Bool.not_true, if_neg Bool.false_ne_true, hcount,
      if_pos (by omega)]
    rfl
  rw [bind_of_eq (hrefused _)] at hread
  cases hread

theorem always_decodeCounters {s : PersistedState} (h : s.WellFormed) :
    Always PersistedState.WellFormed (decodeCounters s) := by
  rw [decodeCounters]
  iterate 9 refine always_bind fun _ => ?_
  exact always_pure ⟨h.policies, h.events, h.eventCount, h.interventions, h.interventionCount⟩

/-- Whatever bytes it was read from, a decoded state is well formed. -/
theorem wellFormed_of_readState : Always (fun x : Except Failure PersistedState =>
    ∀ s, x = .ok s → s.WellFormed) readState := by
  rw [readState]
  refine always_bind fun _ => always_ite (fun _ => always_failure) fun _ => ?_
  refine always_bind fun _ => always_ite (fun _ => always_failure) fun _ => ?_
  refine always_bind fun _ => always_bind fun _ => always_bind fun _ => always_bind fun _ => ?_
  refine always_bind_of restorable_of_decodePolicySet fun policies hpolicies => ?_
  cases policies with
  | error e => exact always_pure fun a h => by simp at h
  | ok policies =>
  refine always_bind_of (always_decodeCounted wellFormed_of_decodeEvent _ _) fun events hevents => ?_
  cases events with
  | error e => exact always_pure fun a h => by simp at h
  | ok events =>
  refine always_bind_of (always_decodeCounted wellFormed_of_decodeIntent _ _)
    fun interventions hinterventions => ?_
  cases interventions with
  | error e => exact always_pure fun a h => by simp at h
  | ok interventions =>
  obtain ⟨heventCount, hevents⟩ := hevents events rfl
  obtain ⟨hintentCount, hintents⟩ := hinterventions interventions rfl
  refine always_bind_of (always_decodeCounters ⟨hpolicies policies rfl, hevents, heventCount, hintents,
    hintentCount⟩) fun state hstate => always_pure fun s hs => ?_
  rw [← Except.ok.inj hs]
  exact hstate

theorem wellFormed_of_decodeState {bytes : Bytes} {s : PersistedState}
    (h : decodeState bytes = .ok s) : s.WellFormed :=
  wellFormed_of_readState _ s (congrArg Prod.fst (readState_of_decodeState h))

/-- No strict prefix of an encoded state is accepted. -/
theorem decodeState_prefix {s : PersistedState} (h : s.WellFormed) {p : Bytes}
    (hp : p <+: encodeState s) (hne : p ≠ encodeState s) (s' : PersistedState) :
    decodeState p ≠ .ok s' := by
  intro haccepted
  obtain ⟨q, hq⟩ := hp
  have hwhole := readState_write h []
  rw [List.append_nil, ← hq] at hwhole
  have hread := readState_of_decodeState haccepted
  have hnil := incremental_readState.prefix_latches hwhole (by rw [hread])
  rw [hnil, List.append_nil] at hq
  exact hne hq

/-- No extension of an encoded state is accepted. -/
theorem decodeState_extension {s : PersistedState} (h : s.WellFormed) {more : Bytes}
    (hmore : more ≠ []) (s' : PersistedState) : decodeState (encodeState s ++ more) ≠ .ok s' := by
  intro haccepted
  have hread := readState_of_decodeState haccepted
  rw [readState_write h more] at hread
  exact hmore (congrArg (fun r => r.2.data) hread)

end Mbg
