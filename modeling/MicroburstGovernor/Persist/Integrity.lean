import MicroburstGovernor.Persist.Replay

/-! Integrity of what a replay delivers: header and payload checksums of the records. -/

namespace Mbg

namespace DurableStore

open Framing

/-- A record image passes the integrity check of the format: both of its checksums. -/
structure RecordIntact (frame : Bytes) : Prop where
  header : Crc32c.compute (frame.take recordHeaderCrcCoverage) = (recordHeader frame).1.headerCrc
  payload : Crc32c.compute (parseRecord frame).payload = (recordHeader frame).1.payloadCrc

/-- The integrity law of a replay over a journal image: the records delivered are those of
    intact frames at the front, and a framed record after them is reported as a corrupt tail. -/
def IntegrityLaw (image : Bytes) : Prop :=
  ∀ s : DurableStore, s.isOpen → s.faults = [] → s.disk.journal = some image →
    ∀ replayed s', s.replay collectAll [] = (.ok replayed, s') →
      ∃ frames : List Bytes, frames.flatten <+: image ∧
        (∀ f ∈ frames, journalFormat.IsFrame f ∧ RecordIntact f) ∧
        replayed.visited = frames.map parseRecord ∧
        ∀ total, scanRecord (image.drop frames.flatten.length) = .record total →
          replayed.report.outcome = .corruptTail

/-- The payload checksum word of a framed record matches the payload it frames. -/
def PayloadVerified (frame : Bytes) : Prop :=
  Crc32c.compute (parseRecord frame).payload = (recordHeader frame).1.payloadCrc

/-- A frame's header checksum is always verified. -/
theorem recordIntact_of_isFrame {f : Bytes} (hf : journalFormat.IsFrame f)
    (hp : PayloadVerified f) : RecordIntact f :=
  ⟨(scanRecord_eq_record.mp (journalFormat_head.mp hf)).1.checksum, hp⟩

/-- A replay of a readable journal delivers its frames. -/
theorem replay_collectAll {s : DurableStore} (hopen : s.isOpen) (hf : s.faults = [])
    {image : Bytes} (hj : s.disk.journal = some image) {replayed : Replayed (List JournaledRecord)}
    {s' : DurableStore} (h : s.replay collectAll [] = (.ok replayed, s')) :
    image.length ≤ Limits.maxJournalBytes ∧
      replayed.visited = (journalFormat.split image).map parseRecord := by
  rw [replay_nil hopen hf, hj] at h
  cases hs : readSnapshot { formatVersion := stateFormatVersion } s.disk.snapshot with
  | error e => simp [hs] at h
  | ok rp =>
    simp only [hs] at h
    by_cases hlen : image.length ≤ Limits.maxJournalBytes
    · refine ⟨hlen, ?_⟩
      rw [readBounded_of_le hlen] at h
      cases image with
      | nil => simp only [Prod.mk.injEq, Except.ok.injEq] at h; rw [← h.1]; rfl
      | cons b bs =>
        simp only [foldlM_collectAll, List.nil_append, Prod.mk.injEq, Except.ok.injEq] at h
        rw [← h.1]
    · rw [readBounded, if_pos (by omega)] at h
      simp [Status.failure] at h

/-- The replay of an open store over one readable journal and no snapshot succeeds. -/
theorem exists_replay {image : Bytes} (hlen : image.length ≤ Limits.maxJournalBytes) :
    ∃ replayed s', ({ isOpen := true, disk := { journal := some image } } : DurableStore).replay
      collectAll [] = (.ok replayed, s') := by
  rw [replay_nil rfl rfl]
  cases image with
  | nil => exact ⟨_, _, rfl⟩
  | cons b bs =>
    simp only [readBounded_of_le hlen, foldlM_collectAll]
    exact ⟨_, _, rfl⟩

/-- Whatever obeys the law has verified payloads in every frame of its front. -/
theorem payloadVerified_of_integrityLaw {image : Bytes} (h : IntegrityLaw image)
    (hlen : image.length ≤ Limits.maxJournalBytes) :
    ∀ f ∈ journalFormat.split image, PayloadVerified f := by
  obtain ⟨replayed, s', hr⟩ := exists_replay hlen
  obtain ⟨frames, ⟨rest, himage⟩, hframes, hvisited, _⟩ := h _ rfl rfl rfl replayed s' hr
  have hsplit : journalFormat.split image = frames ++ journalFormat.split rest := by
    rw [← himage]
    exact journalFormat.split_flatten_append (fun f hf => (hframes f hf).1) rest
  have hcount : (journalFormat.split rest).length = 0 := by
    have := congrArg List.length ((replay_collectAll rfl rfl rfl hr).2.symm.trans hvisited)
    rw [hsplit, List.length_map, List.length_map, List.length_append] at this
    omega
  rw [hsplit, List.length_eq_zero_iff.mp hcount, List.append_nil]
  exact fun f hf => (hframes f hf).2.payload

/-- CORRECT: a replay is sound exactly on the images it refuses to read, and on those whose framed
    records all carry the checksum of their payload; the scan itself never looks at that word. -/
theorem integrityLaw_iff (image : Bytes) : IntegrityLaw image ↔
    Limits.maxJournalBytes < image.length ∨
      ∀ f ∈ journalFormat.split image, PayloadVerified f := by
  constructor
  · intro h
    by_cases hlen : image.length ≤ Limits.maxJournalBytes
    · exact Or.inr (payloadVerified_of_integrityLaw h hlen)
    · exact Or.inl (by omega)
  · rintro h s hopen hf hj replayed s' hr
    obtain ⟨hlen, hvisited⟩ := replay_collectAll hopen hf hj hr
    have hp := h.resolve_left (by omega)
    refine ⟨journalFormat.split image, ?_, fun f hf => ?_, hvisited, fun total ht => ?_⟩
    · exact ⟨journalFormat.tail image, journalFormat.split_flatten_tail image⟩
    · have hframe := journalFormat.isFrame_of_mem_split image f hf
      exact ⟨hframe, recordIntact_of_isFrame hframe (hp f hf)⟩
    · have hnone := journalFormat.head_tail image
      rw [FrameFormat.tail, journalFormat_head.mpr ht] at hnone
      exact absurd hnone (by simp)

/-- A checkpoint record of one byte whose byte was changed after it was written. -/
def tamperedRecord : Bytes :=
  (buildRecord .checkpoint ⟨1⟩ ⟨0⟩ [0x01]).take recordHeaderBytes ++ [0x02]

/-- One changed payload byte is delivered. -/
theorem tamperedRecord_delivered : ¬ ∀ image, IntegrityLaw image := by
  intro h
  have hframe : journalFormat.IsFrame tamperedRecord := by
    have hscan : scanRecord tamperedRecord = .record tamperedRecord.length := by decide +kernel
    exact journalFormat_head.mpr hscan
  have hsplit : journalFormat.split tamperedRecord = [tamperedRecord] := by
    simpa using journalFormat.split_frame_append hframe []
  have hbad : Crc32c.compute (parseRecord tamperedRecord).payload ≠
      (recordHeader tamperedRecord).1.payloadCrc := by decide +kernel
  have hlen : tamperedRecord.length ≤ Limits.maxJournalBytes := by decide +kernel
  exact hbad (payloadVerified_of_integrityLaw (h _) hlen tamperedRecord (by simp [hsplit]))

end DurableStore

end Mbg
