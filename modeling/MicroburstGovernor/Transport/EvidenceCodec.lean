import MicroburstGovernor.Core.Canonical
import MicroburstGovernor.Persist.Checkpoint
import MicroburstGovernor.Transport.Payloads

/-! The evidence batch on the wire: its writer, and that the decoder accepts what the writer wrote and
    nothing else. -/

namespace Mbg

/-! ### Writers -/

/-- An identity on the wire; one that is not valid is written as the sentinel. -/
def rawOrInvalid {d : IdDomain} (id : StrongId d UInt64) : UInt64 := if id.valid then id.raw else ~~~0

open ByteWriter in
def encodeSample (s : Sample) : Bytes :=
  [u64 s.stream.resource.raw, u64 s.stream.queue.raw, u64 (rawOrInvalid s.stream.path),
    u64 s.tick.value, u64 s.seq.raw, u32 s.resourceGeneration.raw, u64 s.depth, u64 s.occupancyBytes,
    u64 s.capacityBytes, i64 s.ingressRateQ16, i64 s.egressRateQ16, u64 s.ingressTotal,
    u64 s.egressTotal, u64 s.dropTotal, u64 s.markTotal, u32 s.flags, u64 (rawOrInvalid s.provenance),
    u8 s.affectedClassCount,
    (s.affectedClasses.toList.take s.affectedClassCount.toNat).flatMap fun c => u64 c.raw].flatten

open ByteWriter in
def encodeBatch (b : EvidenceBatch) : Bytes :=
  [u64 b.worker.raw, u32 b.epoch.raw, u32 b.sampleCount, b.samples.flatMap encodeSample].flatten

/-- The samples the wire can carry: validated, with defined flags, and nothing beyond the classes
    that are counted. -/
structure Sample.Encodable (s : Sample) : Prop where
  valid : validateSample s = .ok ()
  flags : s.flags &&& ~~~knownFlags = 0
  unused : ∀ i : Fin 4, s.affectedClassCount.toNat ≤ i.val → s.affectedClasses[i] = default

/-- The batches the wire can carry. -/
structure EvidenceBatch.Encodable (b : EvidenceBatch) : Prop where
  count : b.sampleCount.toNat = b.samples.length
  bounded : b.samples.length ≤ maxSamplesPerFrame.toNat
  samples : ∀ s ∈ b.samples, s.Encodable

theorem rawOrInvalid_eq {d : IdDomain} (id : StrongId d UInt64) : rawOrInvalid id = id.raw := by
  rw [rawOrInvalid]
  split
  · rfl
  · rename_i h
    have hid := Classical.not_not.mp (mt StrongId.valid_iff.mpr h)
    rw [hid]
    rfl

/-- A valid sample counts no more classes than it has room for. -/
theorem affectedClassCount_le {s : Sample} (h : validateSample s = .ok ()) :
    s.affectedClassCount.toNat ≤ 4 := by
  have hle := (validateSample_eq_ok.mp h).2.1
  simpa using hle

/-- The classes that are counted, with nothing beyond them, are all of them. -/
theorem fillClasses_take {classes : Vector ClassId 4} {count : ℕ}
    (h : ∀ i : Fin 4, count ≤ i.val → classes[i] = default) :
    fillClasses (classes.toList.take count) = classes := by
  refine Vector.ext fun i hi => ?_
  rw [fillClasses, Vector.getElem_ofFn, List.getD_eq_getElem?_getD, List.getElem?_take]
  split
  · simp [hi]
  · rename_i hbeyond
    have := h ⟨i, hi⟩ (by omega)
    simpa using this.symm

/-- Classes that fit are the counted ones of the array they fill. -/
theorem take_fillClasses {classes : List ClassId} (h : classes.length ≤ 4) :
    (fillClasses classes).toList.take classes.length = classes := by
  refine List.ext_getElem (by simpa using h) fun i h₁ h₂ => ?_
  simp [fillClasses, List.getElem?_eq_getElem h₂]

theorem fillClasses_unused {classes : List ClassId} (i : Fin 4) (h : classes.length ≤ i.val) :
    (fillClasses classes)[i] = default := by
  simp [fillClasses, List.getElem?_eq_none h]

namespace ByteReader

/-! ### What was written is read back -/

theorem readClasses_write : ∀ (classes : List ClassId) (rest : Bytes),
    readClasses classes.length (of ((classes.flatMap fun c => ByteWriter.u64 c.raw) ++ rest)) =
      (classes, of rest)
  | [], _ => rfl
  | c :: classes, rest => by
    rw [List.length_cons, readClasses, List.flatMap_cons, List.append_assoc, u64_bind,
      bind_of_eq (readClasses_write classes rest)]
    rfl

theorem decodeSample_write {s : Sample} (h : s.Encodable) (rest : Bytes) :
    decodeSample (of (encodeSample s ++ rest)) = (.ok s, of rest) := by
  have hcount := affectedClassCount_le h.valid
  have hclasses := readClasses_write (s.affectedClasses.toList.take s.affectedClassCount.toNat) rest
  have hlength : (s.affectedClasses.toList.take s.affectedClassCount.toNat).length =
      s.affectedClassCount.toNat := by
    rw [List.length_take]
    simpa using hcount
  rw [hlength] at hclasses
  rw [encodeSample]
  simp only [List.flatten_cons, List.flatten_nil, List.append_nil, List.append_assoc, rawOrInvalid_eq]
  rw [decodeSample]
  simp only [u64_bind, u32_bind, i64_bind, u8_bind, isOk_bind]
  rw [Bool.not_true, if_neg Bool.false_ne_true, if_neg (by simpa using hcount),
    if_neg (by simpa using h.flags), bind_of_eq hclasses, isOk_bind, Bool.not_true,
    if_neg Bool.false_ne_true, fillClasses_take h.unused, h.valid]
  rfl

/-- What follows a batch decides whether it is accepted: nothing may. -/
theorem decodeBatch_write {b : EvidenceBatch} (h : b.Encodable) (rest : Bytes) :
    (decodeBatch (of (encodeBatch b ++ rest))).1 =
      if rest = [] then .ok b
      else Status.failure .corrupt "evidence payload carries trailing bytes" := by
  have hsamples := decodeMany_write (fun s hs rest => decodeSample_write (h.samples s hs) rest) rest
  have hbound : ¬ b.sampleCount > maxSamplesPerFrame := by
    rw [gt_iff_lt, UInt32.lt_iff_toNat_lt, h.count]
    exact Nat.not_lt.mpr h.bounded
  rw [encodeBatch]
  simp only [List.flatten_cons, List.flatten_nil, List.append_nil, List.append_assoc]
  rw [decodeBatch]
  simp only [u64_bind, u32_bind, isOk_bind]
  rw [Bool.not_true, if_neg Bool.false_ne_true, if_neg hbound, h.count, bind_of_eq hsamples]
  cases rest with
  | nil => rfl
  | cons byte rest => rfl

/-! ### What is accepted was written -/

theorem consumes_readClasses : ∀ count, Consumes (readClasses count) fun classes w =>
    classes.length = count ∧ w = classes.flatMap fun c => ByteWriter.u64 c.raw
  | 0 => consumes_pure ⟨rfl, rfl⟩
  | count + 1 => by
    refine consumes_field consumes_u64 fun id => ?_
    refine consumes_bind (consumes_readClasses count) fun classes => consumes_pure ?_
    rintro w ⟨hlength, rfl⟩
    rw [List.length_cons, hlength, List.append_nil]
    exact ⟨rfl, rfl⟩

theorem consumes_decodeSample : Consumes decodeSample fun x w =>
    ∀ s, x = .ok s → s.Encodable ∧ w = encodeSample s := by
  refine consumes_field consumes_u64 fun resource => consumes_field consumes_u64 fun queue => ?_
  refine consumes_field consumes_u64 fun path => consumes_field consumes_u64 fun tick => ?_
  refine consumes_field consumes_u64 fun seq => consumes_field consumes_u32 fun generation => ?_
  refine consumes_field consumes_u64 fun depth => consumes_field consumes_u64 fun occupancy => ?_
  refine consumes_field consumes_u64 fun capacity => consumes_field consumes_i64 fun ingress => ?_
  refine consumes_field consumes_i64 fun egress => consumes_field consumes_u64 fun ingressTotal => ?_
  refine consumes_field consumes_u64 fun egressTotal => consumes_field consumes_u64 fun drop => ?_
  refine consumes_field consumes_u64 fun mark => consumes_field consumes_u32 fun flags => ?_
  refine consumes_field consumes_u64 fun provenance => consumes_field consumes_u8 fun count => ?_
  refine consumes_isOk ?_ (consumes_pure trivial)
  refine consumes_ite (fun h => absurd h (by simp)) fun _ => ?_
  refine consumes_ite (fun _ => consumes_pure fun s h => by cases h) fun hcount => ?_
  refine consumes_ite (fun _ => consumes_pure fun s h => by cases h) fun hflags => ?_
  refine consumes_bind (consumes_readClasses _) fun classes => ?_
  refine consumes_isOk ?_ (consumes_pure trivial)
  refine consumes_ite (fun h => absurd h (by simp)) fun _ => consumes_pure ?_
  -- the fields are read: the sample is what they say
  rintro w ⟨hlength, rfl⟩ s hs
  dsimp only at hcount hflags hlength hs
  cases hvalid : validateSample _ with
  | error e =>
    rw [hvalid] at hs
    cases hs
  | ok u =>
    rw [hvalid] at hs
    have hs := (Except.ok.inj hs).symm
    subst hs
    have hfits : classes.length ≤ 4 := by
      rw [hlength]
      simpa using hcount
    refine ⟨⟨hvalid, by simpa using hflags, fun i hi => ?_⟩, ?_⟩
    · exact fillClasses_unused i (hlength ▸ hi)
    · rw [encodeSample]
      simp only [List.flatten_cons, List.flatten_nil, List.append_nil, rawOrInvalid_eq]
      rw [← hlength, take_fillClasses hfits]

theorem consumes_decodeMany {α : Type} {P : α → Prop} {encode : α → Bytes}
    {decode : ReaderM (Except Failure α)}
    (h : Consumes decode fun x w => ∀ a, x = .ok a → P a ∧ w = encode a) : ∀ count,
    Consumes (decodeMany decode count) fun x w => ∀ as, x = .ok as →
      as.length = count ∧ (∀ a ∈ as, P a) ∧ w = as.flatMap encode
  | 0 => consumes_pure fun as has => by
    rw [← Except.ok.inj has]
    exact ⟨rfl, by simp, rfl⟩
  | count + 1 => by
    refine consumes_bind h fun result => ?_
    cases result with
    | error e => exact consumes_pure fun u _ as has => by cases has
    | ok a =>
      refine consumes_bind (consumes_decodeMany h count) fun rest => consumes_pure ?_
      intro w hrest u ha as has
      cases rest with
      | error e => cases has
      | ok rest =>
        obtain ⟨hlength, hall, rfl⟩ := hrest rest rfl
        obtain ⟨hP, rfl⟩ := ha a rfl
        rw [← Except.ok.inj has, List.append_nil]
        refine ⟨by rw [List.length_cons, hlength], fun b hb => ?_, rfl⟩
        rcases List.mem_cons.mp hb with rfl | hb
        · exact hP
        · exact hall b hb

theorem consumes_decodeBatch : Consumes decodeBatch fun x w =>
    ∀ b, x = .ok b → b.Encodable ∧ w = encodeBatch b := by
  refine consumes_field consumes_u64 fun worker => consumes_field consumes_u32 fun epoch => ?_
  refine consumes_field consumes_u32 fun count => ?_
  refine consumes_isOk ?_ (consumes_pure trivial)
  refine consumes_ite (fun h => absurd h (by simp)) fun _ => ?_
  refine consumes_ite (fun _ => consumes_pure fun b h => by cases h) fun hbound => ?_
  refine consumes_bind (consumes_decodeMany consumes_decodeSample _) fun result => ?_
  cases result with
  | error e => exact consumes_pure fun w _ b h => by cases h
  | ok samples =>
    refine consumes_atEnd ?_ fun w _ b h => by cases h
    intro w hsamples b hb
    obtain ⟨hlength, hall, rfl⟩ := hsamples samples rfl
    have hb := (Except.ok.inj hb).symm
    subst hb
    refine ⟨⟨hlength.symm, ?_, hall⟩, ?_⟩
    · have hle : count.toNat ≤ maxSamplesPerFrame.toNat := by
        rw [gt_iff_lt, UInt32.lt_iff_toNat_lt] at hbound
        exact Nat.not_lt.mp hbound
      exact hlength ▸ hle
    · rw [encodeBatch]
      simp only [List.flatten_cons, List.flatten_nil]

theorem ends_decodeBatch : Ends decodeBatch := by
  refine ends_bind fun worker => ends_bind fun epoch => ends_bind fun count => ends_bind fun _ => ?_
  refine ends_ite ends_failure (ends_ite ends_failure (ends_bind fun result => ?_))
  cases result with
  | error e => exact ends_failure
  | ok samples => exact ends_atEnd

end ByteReader

open ByteReader

/-- Accepted bytes are those of a batch the wire can carry. -/
theorem encodable_of_decodeBatch {bytes : Bytes} {b : EvidenceBatch}
    (h : (decodeBatch (of bytes)).1 = .ok b) : b.Encodable ∧ bytes = encodeBatch b :=
  consumes_decodeBatch.of_ends ends_decodeBatch h

/-- Nothing may follow accepted bytes. -/
theorem decodeBatch_append {bytes more : Bytes} {b b' : EvidenceBatch}
    (h : (decodeBatch (of bytes)).1 = .ok b) (h' : (decodeBatch (of (bytes ++ more))).1 = .ok b') :
    more = [] := by
  obtain ⟨hb, hbytes⟩ := encodable_of_decodeBatch h
  rw [hbytes, decodeBatch_write hb] at h'
  by_contra hmore
  rw [if_neg hmore] at h'
  cases h'

/-- ROUND TRIP: a batch the wire can carry is read back as it was; accepted bytes hold valid samples and
    are what encoding their batch gives, so neither a strict prefix nor an extension is accepted. -/
theorem evidenceBatch_codec :
    (∀ b : EvidenceBatch, b.Encodable → (decodeBatch (of (encodeBatch b))).1 = .ok b) ∧
    ∀ (bytes : Bytes) (b : EvidenceBatch), (decodeBatch (of bytes)).1 = .ok b →
      (∀ s ∈ b.samples, validateSample s = .ok ()) ∧ encodeBatch b = bytes ∧
      (∀ p, p <+: bytes → p ≠ bytes → ∀ b', (decodeBatch (of p)).1 ≠ .ok b') ∧
      ∀ more, more ≠ [] → ∀ b', (decodeBatch (of (bytes ++ more))).1 ≠ .ok b' := by
  constructor
  · intro b hb
    have hwrite := decodeBatch_write hb []
    rw [List.append_nil, if_pos rfl] at hwrite
    exact hwrite
  · intro bytes b h
    obtain ⟨hb, hbytes⟩ := encodable_of_decodeBatch h
    refine ⟨fun s hs => (hb.samples s hs).valid, hbytes.symm, ?_, ?_⟩
    · rintro p ⟨q, rfl⟩ hne b' hp
      have hnil := decodeBatch_append hp h
      rw [hnil, List.append_nil] at hne
      exact hne rfl
    · exact fun more hmore b' h' => hmore (decodeBatch_append h h')

/-- A batch of one sample with one class. -/
def oneClassBatch : EvidenceBatch where
  worker := ⟨7⟩
  epoch := ⟨1⟩
  sampleCount := 1
  samples :=
    [{ stream := ⟨⟨1⟩, ⟨2⟩, default⟩, tick := ⟨5⟩, capacityBytes := 4096, occupancyBytes := 100
       flags := 8, affectedClasses := fillClasses [⟨3⟩], affectedClassCount := 1 }]

theorem oneClassBatch_codec : (decodeBatch (of (encodeBatch oneClassBatch))).1 = .ok oneClassBatch :=
  evidenceBatch_codec.1 oneClassBatch
    ⟨rfl, by decide, fun s hs => by
      rw [List.mem_singleton.mp hs]
      exact ⟨rfl, by decide, by decide⟩⟩

end Mbg
