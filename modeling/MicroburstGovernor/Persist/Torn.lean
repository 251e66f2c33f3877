import MicroburstGovernor.Persist.Acknowledged

/-! A journal cut anywhere: what the scan and the replay of the first `n` bytes make of it.

    The cut leaves some whole records and a beginning of the next one. A beginning of a built record
    is never a record, and the scan sees that it ends too early, in its header or in its payload.

        record record record rec│ord record
        └───── delivered ──┘ └───┘ truncated tail -/

namespace Mbg

open Framing

/-! ### Both loops end inside the image -/

/-- Bytes of the image from one offset to another. -/
abbrev Span := ℕ × ℕ

def Span.Inside (span : Span) (image : Bytes) : Prop := span.1 ≤ span.2 ∧ span.2 ≤ image.length

/-- The bytes one turn of the scan reads: the header, if there are bytes for one. -/
def scanSpans (image : Bytes) (offset : ℕ) : List Span :=
  if image.length - offset < recordHeaderBytes then [] else [(offset, offset + recordHeaderBytes)]

/-- A run of the scan loop from an offset: what it returns and every span it read. -/
inductive ScanRun (image : Bytes) : ℕ → ScanResult → List Span → Prop where
  | finished {offset : ℕ} (hend : image.length ≤ offset) :
      ScanRun image offset { validEnd := offset } []
  | stopped {offset : ℕ} {outcome : RecoveryOutcome} {detail : String}
      (hmore : offset < image.length)
      (hstop : scanRecord (image.drop offset) = .stop outcome detail) :
      ScanRun image offset { validEnd := offset, outcome, detail } (scanSpans image offset)
  | record {offset total : ℕ} {result : ScanResult} {spans : List Span}
      (hmore : offset < image.length)
      (hrecord : scanRecord (image.drop offset) = .record total)
      (rest : ScanRun image (offset + total) result spans) :
      ScanRun image offset result (scanSpans image offset ++ spans)

/-- A run of the dispatch loop from an offset: what it delivers and every span it read. -/
inductive DispatchRun (image : Bytes) (validEnd : ℕ) :
    ℕ → List JournaledRecord → List Span → Prop where
  | finished {offset : ℕ} (hend : validEnd ≤ offset) : DispatchRun image validEnd offset [] []
  | record {offset total : ℕ} {records : List JournaledRecord} {spans : List Span}
      (hmore : offset < validEnd) (htotal : (recordHeader (image.drop offset)).1.total = total)
      (rest : DispatchRun image validEnd (offset + total) records spans) :
      DispatchRun image validEnd offset (parseRecord (image.drop offset) :: records)
        ((offset, offset + recordHeaderBytes) ::
          (offset + recordHeaderBytes, offset + total) :: spans)

theorem scanSpans_inside (image : Bytes) (offset : ℕ) :
    ∀ span ∈ scanSpans image offset, span.Inside image := by
  intro span hspan
  rw [scanSpans] at hspan
  split_ifs at hspan with hshort
  · simp at hspan
  · obtain rfl := List.mem_singleton.mp hspan
    have hheader : 0 < recordHeaderBytes := by decide
    exact ⟨Nat.le_add_right _ _, by simp only; omega⟩

theorem scanRun_inside {image : Bytes} {offset : ℕ} {result : ScanResult} {spans : List Span}
    (h : ScanRun image offset result spans) : ∀ span ∈ spans, span.Inside image := by
  induction h with
  | finished hend => simp
  | stopped hmore hstop => exact scanSpans_inside image _
  | record hmore hrecord rest ih =>
    intro span hspan
    rcases List.mem_append.mp hspan with hspan | hspan
    · exact scanSpans_inside image _ span hspan
    · exact ih span hspan

/-- The scan loop terminates: from every offset there is a run, and it returns what the loop with a
    turn for each byte left returns. -/
theorem exists_scanRun (image : Bytes) : ∀ {fuel offset : ℕ}, image.length - offset ≤ fuel →
    ∃ spans, ScanRun image offset (scanLoop fuel offset (image.drop offset)) spans
  | 0, offset, h => ⟨[], .finished (by omega)⟩
  | fuel + 1, offset, h => by
    rw [scanLoop]
    by_cases hmore : offset < image.length
    · have hne : (image.drop offset).isEmpty = false := by
        rw [List.isEmpty_eq_false_iff, ← List.length_pos_iff, List.length_drop]
        omega
      rw [hne, if_neg Bool.false_ne_true]
      cases hs : scanRecord (image.drop offset) with
      | stop outcome detail => exact ⟨_, .stopped hmore hs⟩
      | record total =>
        have hpos := scanRecord_pos hs
        obtain ⟨spans, hrun⟩ := @exists_scanRun image fuel (offset + total) (by omega)
        rw [← List.drop_drop] at hrun
        exact ⟨_, .record hmore hs hrun⟩
    · have hempty : (image.drop offset).isEmpty := by
        rw [List.isEmpty_iff]
        exact List.drop_eq_nil_of_le (Nat.le_of_not_lt hmore)
      rw [if_pos hempty]
      exact ⟨[], .finished (Nat.le_of_not_lt hmore)⟩

/-- The dispatch loop terminates too, and reads no byte beyond the image: it turns only at the
    records the scan accepted. -/
theorem exists_dispatchRun (image : Bytes) : ∀ {fuel offset : ℕ}, image.length - offset ≤ fuel →
    ∃ spans, DispatchRun image
        (offset + (journalFormat.split (image.drop offset)).flatten.length) offset
        ((journalFormat.split (image.drop offset)).map parseRecord) spans ∧
      ∀ span ∈ spans, span.Inside image
  | 0, offset, h => by
    have hempty : image.drop offset = [] := List.drop_eq_nil_of_le (by omega)
    rw [hempty, journalFormat.split_nil]
    exact ⟨[], .finished (Nat.le_refl _), by simp⟩
  | fuel + 1, offset, h => by
    cases hhead : journalFormat.head (image.drop offset) with
    | none =>
      rw [journalFormat.split_none hhead]
      exact ⟨[], .finished (Nat.le_refl _), by simp⟩
    | some total =>
      have hpos := journalFormat.pos hhead
      have hle := journalFormat.le hhead
      obtain ⟨_, ht, _⟩ := scanRecord_eq_record.mp (journalFormat_head.mp hhead)
      have htotal : recordHeaderBytes ≤ total := by rw [ht, RecordHeader.total]; omega
      have hlen : ((image.drop offset).take total).length = total := by
        rw [List.length_take, Nat.min_eq_left hle]
      rw [List.length_drop] at hle
      obtain ⟨spans, hrun, hinside⟩ := @exists_dispatchRun image fuel (offset + total) (by omega)
      rw [← List.drop_drop] at hrun
      rw [journalFormat.split_some hhead, List.flatten_cons, List.length_append, hlen,
        List.map_cons, parseRecord_take hhead, ← Nat.add_assoc]
      refine ⟨_, .record (by omega) ht.symm hrun, ?_⟩
      intro span hspan
      rcases List.mem_cons.mp hspan with rfl | hspan
      · exact ⟨Nat.le_add_right _ _, by simp only; omega⟩
      · rcases List.mem_cons.mp hspan with rfl | hspan
        · exact ⟨by simp only; omega, by simp only; omega⟩
        · exact hinside span hspan

/-! ### The cut -/

/-- The record as `append` writes it. -/
def JournaledRecord.image (record : JournaledRecord) : Bytes :=
  buildRecord record.type record.seq record.tick record.payload

theorem buildJournal_eq (records : List JournaledRecord) :
    buildJournal records = (records.map JournaledRecord.image).flatten := rfl

/-- A header that verifies, with fewer payload bytes behind it than it says. -/
theorem scanRecord_short_payload {bytes : Bytes} (hv : HeaderVerified bytes)
    (hheader : recordHeaderBytes ≤ bytes.length)
    (hshort : bytes.length < (recordHeader bytes).1.total) :
    scanRecord bytes = .stop .truncatedTail "journal ends inside a record payload" := by
  obtain ⟨h1, h2, h3, h4, h5, h6⟩ := hv
  simp only [scanRecord, Nat.not_lt.mpr hheader, h1, h2, h3, h4, h5, Nat.not_lt.mpr h6, hshort,
    ne_eq, not_true_eq_false, Bool.not_true, Bool.false_eq_true, if_false, if_true]

/-- A built record cut short is a truncated tail, wherever the cut falls. -/
theorem scanRecord_take_image {record : JournaledRecord} (h : record.Writable) {m : ℕ}
    (hm : m < record.image.length) :
    ∃ detail, scanRecord (record.image.take m) = .stop .truncatedTail detail := by
  have hlen : (record.image.take m).length = m := by rw [List.length_take]; omega
  by_cases hheader : m < recordHeaderBytes
  · exact ⟨_, by rw [scanRecord, if_pos (by rw [hlen]; exact hheader)]⟩
  · have htake : record.image.take recordHeaderBytes =
        (record.image.take m).take recordHeaderBytes := by
      rw [List.take_take, Nat.min_eq_left (Nat.le_of_not_lt hheader)]
    obtain ⟨hv, htotal, -⟩ := scanRecord_eq_record.mp
      (@scanRecord_buildRecord _ record.seq record.tick _ h.1 h.2)
    refine ⟨_, scanRecord_short_payload (headerVerified_congr htake hv) ?_ ?_⟩
    · rw [hlen]
      exact Nat.le_of_not_lt hheader
    · rw [hlen, ← recordHeader_congr htake]
      rw [JournaledRecord.image, length_buildRecord, htotal] at hm
      exact hm

/-- Where the first `n` bytes of a journal of built records end: after `k` whole records, and
    inside the next one if there is more. -/
structure CutAt (records : List JournaledRecord) (n k : ℕ) : Prop where
  le : k ≤ records.length
  whole : ∀ i < records.length, i < k ↔ (buildJournal (records.take (i + 1))).length ≤ n

/-- `n` is the end of a record, or the beginning of the journal. -/
def Boundary (records : List JournaledRecord) (n : ℕ) : Prop :=
  ∃ j ≤ records.length, (buildJournal (records.take j)).length = n

theorem length_buildJournal_mono (records : List JournaledRecord) {i j : ℕ} (h : i ≤ j) :
    (buildJournal (records.take i)).length ≤ (buildJournal (records.take j)).length := by
  rw [buildJournal_eq, buildJournal_eq, List.map_take, List.map_take]
  exact FrameFormat.take_flatten_length_mono _ h

theorem length_buildJournal_succ {records : List JournaledRecord} {k : ℕ}
    {record : JournaledRecord} (h : records[k]? = some record) :
    (buildJournal (records.take (k + 1))).length =
      (buildJournal (records.take k)).length + record.image.length := by
  simp [buildJournal_eq, List.take_add_one, h]

/-- The frames of a journal cut anywhere, and the tail behind them. -/
structure CutFrames (records : List JournaledRecord) (n k : ℕ) (cut : Bytes) : Prop where
  at_cut : CutAt records n k
  split : journalFormat.split cut = (records.take k).map JournaledRecord.image
  tail : journalFormat.tail cut = [] ↔ Boundary records n
  torn : journalFormat.tail cut ≠ [] →
    ∃ detail, scanRecord (journalFormat.tail cut) = .stop .truncatedTail detail

theorem exists_cutFrames {records : List JournaledRecord} (h : ∀ r ∈ records, r.Writable) {n : ℕ}
    (hn : n ≤ (buildJournal records).length) :
    ∃ k, CutFrames records n k ((buildJournal records).take n) := by
  obtain ⟨k, hk, hle, hlt, htake⟩ :=
    FrameFormat.exists_take_flatten (records.map JournaledRecord.image) n
  rw [List.length_map] at hk
  rw [← List.map_take, ← buildJournal_eq] at hle hlt htake
  rw [← buildJournal_eq] at htake
  generalize ht : ((records.map JournaledRecord.image)[k]?.getD []).take
    (n - (buildJournal (records.take k)).length) = t at htake
  -- either every record is whole and nothing follows, or a strict beginning of record `k` does
  have hnext : (k = records.length ∧ t = []) ∨ ∃ record ∈ records, records[k]? = some record ∧
      t = record.image.take (n - (buildJournal (records.take k)).length) ∧
      n - (buildJournal (records.take k)).length < record.image.length ∧
      n < (buildJournal (records.take (k + 1))).length := by
    rcases Nat.lt_or_ge k records.length with hlen | hlen
    · have hget : records[k]? = some records[k] := List.getElem?_eq_getElem hlen
      have hcut := hlt records[k].image (by rw [List.getElem?_map, hget]; rfl)
      refine Or.inr ⟨records[k], List.getElem_mem hlen, hget, ?_, by omega, ?_⟩
      · rw [← ht, List.getElem?_map, hget]
        rfl
      · rw [length_buildJournal_succ hget]
        exact hcut
    · refine Or.inl ⟨Nat.le_antisymm hk hlen, ?_⟩
      rw [← ht, List.getElem?_eq_none (by rw [List.length_map]; exact hlen), Option.getD_none,
        List.take_nil]
  have hstop : t ≠ [] → ∃ detail, scanRecord t = .stop .truncatedTail detail := by
    intro hne
    rcases hnext with ⟨-, rfl⟩ | ⟨record, hmem, -, rfl, hm, -⟩
    · exact absurd rfl hne
    · exact scanRecord_take_image (h record hmem) hm
  have hhead : journalFormat.head t = none := by
    by_cases hne : t = []
    · rw [hne]; rfl
    · obtain ⟨detail, hs⟩ := hstop hne
      exact journalFormat_head_none.mpr ⟨_, _, hs⟩
  have hsplit : journalFormat.split ((buildJournal records).take n) =
      (records.take k).map JournaledRecord.image := by
    rw [htake, buildJournal_eq]
    refine journalFormat.split_eq_of (fun f hf => ?_) hhead
    obtain ⟨r, hr, rfl⟩ := List.mem_map.mp hf
    exact isFrame_buildRecord (h r (List.mem_of_mem_take hr)).1 (h r (List.mem_of_mem_take hr)).2
  have htail : journalFormat.tail ((buildJournal records).take n) = t := by
    rw [FrameFormat.tail, hsplit, ← buildJournal_eq, htake]
    exact List.drop_left' rfl
  have hlength : n = (buildJournal (records.take k)).length + t.length := by
    have := congrArg List.length htake
    rw [List.length_take, Nat.min_eq_left hn, List.length_append] at this
    exact this
  refine ⟨k, ⟨hk, fun i hi => ⟨fun hik => ?_, fun hin => ?_⟩⟩, hsplit, ?_, ?_⟩
  · exact Nat.le_trans (length_buildJournal_mono records hik) hle
  · rcases hnext with ⟨rfl, -⟩ | ⟨record, -, -, -, -, hnk⟩
    · exact hi
    · by_contra hki
      have hsucc : k + 1 ≤ i + 1 := by omega
      have := length_buildJournal_mono records hsucc
      omega
  · rw [htail]
    constructor
    · rintro rfl
      exact ⟨k, hk, hlength.symm⟩
    · rintro ⟨j, hj, hjn⟩
      rcases hnext with ⟨-, ht⟩ | ⟨record, -, -, -, -, hnk⟩
      · exact ht
      · have hjk : j ≤ k := by
          by_contra hkj
          have hsucc : k + 1 ≤ j := by omega
          have := length_buildJournal_mono records hsucc
          omega
        have := length_buildJournal_mono records hjk
        exact List.length_eq_zero_iff.mp (by omega)
  · rw [htail]
    exact hstop

namespace DurableStore

/-- What recovery makes of the first `n` bytes of a journal of `records`. -/
structure TornRecovery (records : List JournaledRecord) (n : ℕ) (image : Bytes) : Prop where
  /-- The records wholly inside the image, and where the last of them ends. -/
  recovered : ∃ k, CutAt records n k ∧
    (scanJournal image).validEnd = (buildJournal (records.take k)).length ∧
    dispatch image (scanJournal image).validEnd = records.take k ∧
    ∀ s : DurableStore, s.isOpen → s.faults = [] → s.disk.journal = some image →
      (∀ bytes, s.disk.snapshot = some bytes → bytes.length ≤ Limits.maxSnapshotBytes) →
      ∃ replayed, (s.replay collectAll []).1 = .ok replayed ∧ replayed.visited = records.take k ∧
        replayed.report.bytesValid = (buildJournal (records.take k)).length ∧
        replayed.report.recordsReplayed = k ∧
        replayed.report.outcome = (scanJournal image).outcome ∧
        (s.replay collectAll []).2.disk.journal = some (buildJournal (records.take k))
  clean : Boundary records n → (scanJournal image).outcome = .clean
  truncated : ¬ Boundary records n → (scanJournal image).outcome = .truncatedTail
  /-- Both loops terminate and read inside the image. -/
  scanned : ∃ spans, ScanRun image 0 (scanJournal image) spans ∧
    ∀ span ∈ spans, span.Inside image
  dispatched : ∃ spans, DispatchRun image (scanJournal image).validEnd 0
      (dispatch image (scanJournal image).validEnd) spans ∧ ∀ span ∈ spans, span.Inside image

/-- A replay of a journal that has bytes, by its frames. -/
theorem replay_frames {s : DurableStore} (hopen : s.isOpen) (hf : s.faults = []) {image : Bytes}
    (hj : s.disk.journal = some image) (hne : image ≠ [])
    (hlen : image.length ≤ Limits.maxJournalBytes)
    (hsnap : ∀ bytes, s.disk.snapshot = some bytes → bytes.length ≤ Limits.maxSnapshotBytes) :
    ∃ report payload, (s.replay collectAll []).1 =
        .ok ⟨scannedReport report image, payload, (journalFormat.split image).map parseRecord⟩ ∧
      (s.replay collectAll []).2 = s.retireTail image := by
  obtain ⟨report, payload, hs⟩ :=
    readSnapshot_readable { formatVersion := stateFormatVersion } hsnap
  rw [replay_nil hopen hf, hs, hj, readBounded_of_le hlen]
  cases image with
  | nil => exact absurd rfl hne
  | cons b bs =>
    dsimp only
    rw [foldlM_collectAll, List.nil_append]
    exact ⟨report, payload, rfl, rfl⟩

theorem scanEnd_cut {t : Bytes} (h : t ≠ [] → ∃ detail, scanRecord t = .stop .truncatedTail detail) :
    (scanEnd t).1 = if t = [] then .clean else .truncatedTail := by
  rw [scanEnd]
  by_cases ht : t = []
  · simp [ht]
  · obtain ⟨detail, hs⟩ := h ht
    simp [ht, hs]

/-- TORN-TAIL RECOVERY: the first `n` bytes of a journal of built records deliver the records wholly
    inside them, and are clean exactly when `n` is a record boundary. -/
theorem truncated_tail_is_recovered (records : List JournaledRecord)
    (hwritable : ∀ r ∈ records, r.Writable)
    (hbound : (buildJournal records).length ≤ Limits.maxJournalBytes) (n : ℕ) (hpos : 0 < n)
    (hn : n ≤ (buildJournal records).length) :
    TornRecovery records n ((buildJournal records).take n) := by
  obtain ⟨k, hcut, hsplit, htail, htorn⟩ := exists_cutFrames hwritable hn
  have hlen : ((buildJournal records).take n).length = n := by
    rw [List.length_take, Nat.min_eq_left hn]
  generalize (buildJournal records).take n = image at *
  have hend : (scanJournal image).validEnd = (buildJournal (records.take k)).length := by
    rw [scanJournal_eq, hsplit, ← buildJournal_eq]
  have hout : (scanJournal image).outcome = (scanEnd (journalFormat.tail image)).1 := by
    rw [scanJournal_eq]
  have hparse : (journalFormat.split image).map parseRecord = records.take k := by
    rw [hsplit, List.map_map]
    refine (List.map_congr_left fun r hr => ?_).trans (List.map_id _)
    rw [Function.comp_apply, JournaledRecord.image,
      parseRecord_buildRecord (hwritable r (List.mem_of_mem_take hr)).2, id]
  refine ⟨⟨k, hcut, hend, ?_, ?_⟩, ?_, ?_, ?_, ?_⟩
  · rw [dispatch_scanJournal, hparse]
  · intro s hopen hf hj hsnap
    have hne : image ≠ [] := by
      rintro rfl
      exact absurd hlen (by simp; omega)
    obtain ⟨report, payload, hreplay, hstore⟩ :=
      replay_frames hopen hf hj hne (by omega) hsnap
    refine ⟨_, hreplay, hparse, ?_, ?_, ?_, ?_⟩
    · rw [scannedReport, hsplit, ← buildJournal_eq]
    · rw [scannedReport, hsplit, List.length_map, List.length_take, Nat.min_eq_left hcut.le]
    · rw [scannedReport, hout]
    · rw [hstore, AckedStore.retireTail_disk s hj, hsplit, ← buildJournal_eq]
  · intro hb
    rw [hout, scanEnd_cut htorn, if_pos (htail.mpr hb)]
  · intro hb
    rw [hout, scanEnd_cut htorn, if_neg (fun ht => hb (htail.mp ht))]
  · obtain ⟨spans, hrun⟩ := @exists_scanRun image image.length 0 (by omega)
    rw [List.drop_zero] at hrun
    exact ⟨spans, hrun, scanRun_inside hrun⟩
  · obtain ⟨spans, hrun, hinside⟩ := @exists_dispatchRun image image.length 0 (by omega)
    rw [List.drop_zero, Nat.zero_add] at hrun
    rw [dispatch_scanJournal, scanJournal_eq]
    exact ⟨spans, hrun, hinside⟩

/-- Two records, cut inside the header of the second. -/
theorem truncated_tail_is_recovered_inside_header :
    TornRecovery [⟨.episodeOpened, ⟨1⟩, ⟨7⟩, [1, 2]⟩, ⟨.episodeClosed, ⟨2⟩, ⟨9⟩, [3]⟩] 50
      ((buildJournal [⟨.episodeOpened, ⟨1⟩, ⟨7⟩, [1, 2]⟩, ⟨.episodeClosed, ⟨2⟩, ⟨9⟩, [3]⟩]).take 50) := by
  refine truncated_tail_is_recovered _ ?_ (by decide +kernel) 50 (by decide) (by decide +kernel)
  intro r hr
  rcases List.mem_cons.mp hr with rfl | hr
  · exact ⟨by decide, by decide⟩
  · obtain rfl := List.mem_singleton.mp hr
    exact ⟨by decide, by decide⟩

end DurableStore

end Mbg
