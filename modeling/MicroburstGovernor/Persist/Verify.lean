import MicroburstGovernor.Persist.Replay

/-! The two readers of a store: `verify`, which only reports, and `replay`, which delivers.

    They start from the same default report and disagree on what overwrites it. `replay` takes the
    verdict on the journal whatever the snapshot was, and calls a store with a snapshot and nothing to
    scan clean; `verify` keeps the default and the verdict on the snapshot unless the journal is
    damaged. -/

namespace Mbg

namespace DurableStore

/-! ### What the files determine -/

/-- The report on a readable snapshot file. -/
def snapshotReport (report : RecoveryReport) (file : Option Bytes) : RecoveryReport :=
  match file.map scanSnapshot with
  | none => { report with snapshotPresent := false }
  | some (.damaged outcome detail) => { report with snapshotPresent := true, outcome, detail }
  | some (.intact _ covered) => { report with snapshotPresent := true, snapshotCoveredSeq := covered }

theorem readSnapshot_eq (report : RecoveryReport) {file : Option Bytes}
    (h : ∀ bytes, file = some bytes → bytes.length ≤ Limits.maxSnapshotBytes) :
    ∃ payload, readSnapshot report file = .ok (snapshotReport report file, payload) := by
  cases file with
  | none => exact ⟨_, rfl⟩
  | some bytes =>
    rw [readSnapshot, readBounded_of_le (h bytes rfl), snapshotReport, Option.map_some]
    dsimp only
    cases scanSnapshot bytes <;> exact ⟨_, rfl⟩

/-- The report of `verify` on a readable journal file, from that on the snapshot. -/
def verifiedReport (report : RecoveryReport) (file : Option Bytes) : RecoveryReport :=
  match file with
  | none =>
    if report.snapshotPresent then report
    else { report with outcome := .missing, detail := "no durable state present" }
  | some [] => report
  | some image =>
    let report :=
      if (scanEnd (journalFormat.tail image)).1 ≠ .clean then
        { report with
          outcome := (scanEnd (journalFormat.tail image)).1
          detail := (scanEnd (journalFormat.tail image)).2 }
      else report
    { report with
      bytesValid := (journalFormat.split image).flatten.length
      bytesDiscarded := image.length - (journalFormat.split image).flatten.length }

/-- A verification that meets no fault, by the contents of the two files. -/
theorem verify_nil {s : DurableStore} (h : s.faults = []) : s.verify =
    match readSnapshot {} s.disk.snapshot with
    | .error e => (.error e, s)
    | .ok (report, _) =>
      match readBounded s.disk.journal Limits.maxJournalBytes with
      | .error e => (.error e, s)
      | .ok file => (.ok { verifiedReport report file with formatVersion := stateFormatVersion }, s) := by
  rw [verify, loadSnapshot_nil h]
  cases readSnapshot {} s.disk.snapshot with
  | error e => rfl
  | ok rp =>
    obtain ⟨report, payload⟩ := rp
    dsimp only
    rw [readFile_nil h]
    cases readBounded s.disk.journal Limits.maxJournalBytes with
    | error e => rfl
    | ok file =>
      rcases file with - | (- | ⟨b, bs⟩)
      · cases hp : report.snapshotPresent <;> simp [verifiedReport, hp]
      · simp [verifiedReport]
      · simp only [Option.isNone_some, Bool.false_and, Bool.false_eq_true, if_false,
          Option.getD_some, List.isEmpty_cons, Bool.not_false, if_true, scanJournal_eq,
          verifiedReport]

theorem foldlM_total {σ : Type} (f : σ → JournaledRecord → σ) :
    ∀ (records : List JournaledRecord) (start : σ),
      records.foldlM (fun a r => (.ok (f a r) : Except Failure σ)) start =
        .ok (records.foldl f start)
  | [], _ => rfl
  | r :: rs, start => by
    rw [List.foldlM_cons]
    exact foldlM_total f rs (f start r)

/-! ### Agreement -/

/-- Two reports that say the same of a store. -/
structure SameReport (v r : RecoveryReport) : Prop where
  outcome : v.outcome = r.outcome
  snapshotPresent : v.snapshotPresent = r.snapshotPresent
  snapshotCoveredSeq : v.snapshotCoveredSeq = r.snapshotCoveredSeq
  bytesValid : v.bytesValid = r.bytesValid
  bytesDiscarded : v.bytesDiscarded = r.bytesDiscarded

/-- Both readers fail, or both succeed and say the same. -/
def Agree {σ : Type} : Except Failure RecoveryReport → Except Failure (Replayed σ) → Prop
  | .ok v, .ok r => SameReport v r.report
  | .error _, .error _ => True
  | _, _ => False

/-- Both files are there, readable, and verify to their last byte. -/
structure FullyVerified (files : Files) : Prop extends Readable files where
  intact : ∃ bytes payload covered,
    files.snapshot = some bytes ∧ scanSnapshot bytes = .intact payload covered
  whole : ∃ image, files.journal = some image ∧ journalFormat.tail image = []

/-- An open store over files, whose calls do not fail. -/
def openedOn (files : Files) : DurableStore := { isOpen := true, disk := files }

/-- The two readers agree on a store, and report it clean if it fully verifies. -/
structure VerifyLaw {σ : Type} (files : Files) (f : σ → JournaledRecord → σ) (start : σ) : Prop where
  agree : Agree (openedOn files).verify.1
    ((openedOn files).replay (fun a r => .ok (f a r)) start).1
  clean : FullyVerified files → ∃ v r, (openedOn files).verify.1 = .ok v ∧
    ((openedOn files).replay (fun a r => .ok (f a r)) start).1 = .ok r ∧
      v.outcome = .clean ∧ r.report.outcome = .clean

/-- The condition on the files: one of them is beyond its bound, or the journal ends in a tail that
    does not verify, or there is neither a snapshot nor a journal byte. -/
def ReadersAgree (files : Files) : Prop :=
  ¬ Readable files ∨ journalFormat.tail (files.journal.getD []) ≠ [] ∨
    (files.snapshot = none ∧ files.journal.getD [] = [])

/-- The report of `replay` on a readable journal file, from that on the snapshot. -/
def replayedReport (report : RecoveryReport) (file : Option Bytes) : RecoveryReport :=
  match file with
  | none => unscannedReport report false
  | some [] => unscannedReport report true
  | some image => scannedReport report image

section

variable {σ : Type} (files : Files) (f : σ → JournaledRecord → σ) (start : σ)

theorem verify_openedOn (h : Readable files) : (openedOn files).verify.1 =
    .ok { verifiedReport (snapshotReport {} files.snapshot) files.journal with
      formatVersion := stateFormatVersion } := by
  obtain ⟨payload, hs⟩ := readSnapshot_eq {} h.snapshot
  have hj : readBounded files.journal Limits.maxJournalBytes = .ok files.journal := by
    cases hj : files.journal with
    | none => rfl
    | some image => exact readBounded_of_le (h.journal image hj)
  have hdisk : (openedOn files).disk = files := rfl
  rw [verify_nil rfl, hdisk, hs]
  dsimp only
  rw [hj]

theorem replay_openedOn (h : Readable files) :
    ∃ r, ((openedOn files).replay (fun a r => .ok (f a r)) start).1 = .ok r ∧
      r.report = replayedReport
        (snapshotReport { formatVersion := stateFormatVersion } files.snapshot) files.journal := by
  obtain ⟨payload, hs⟩ := readSnapshot_eq { formatVersion := stateFormatVersion } h.snapshot
  have hdisk : (openedOn files).disk = files := rfl
  rw [replay_nil rfl rfl, hdisk, hs]
  dsimp only
  rcases hj : files.journal with - | (- | ⟨b, bs⟩)
  · exact ⟨_, rfl, rfl⟩
  · exact ⟨_, rfl, rfl⟩
  · rw [readBounded_of_le (h.journal _ hj)]
    dsimp only
    rw [foldlM_total]
    exact ⟨_, rfl, rfl⟩

/-- A file beyond its bound stops both readers. -/
theorem readers_fail (h : ¬ Readable files) : (∃ e, (openedOn files).verify.1 = .error e) ∧
    ∃ e, ((openedOn files).replay (fun a r => .ok (f a r)) start).1 = .error e := by
  have hdisk : (openedOn files).disk = files := rfl
  rw [verify_nil rfl, replay_nil rfl rfl, hdisk]
  by_cases hs : ∀ bytes, files.snapshot = some bytes → bytes.length ≤ Limits.maxSnapshotBytes
  · obtain ⟨payload, hv⟩ := readSnapshot_eq {} hs
    obtain ⟨payload', hr⟩ := readSnapshot_eq { formatVersion := stateFormatVersion } hs
    rw [hv, hr]
    have hj : ∃ e, readBounded files.journal Limits.maxJournalBytes = .error e := by
      by_contra hj
      refine h ⟨hs, fun image himage => ?_⟩
      by_contra hlen
      rw [himage, readBounded, if_pos (by omega)] at hj
      exact hj ⟨_, rfl⟩
    obtain ⟨e, he⟩ := hj
    rw [he]
    exact ⟨⟨e, rfl⟩, ⟨e, rfl⟩⟩
  · obtain ⟨bytes, hbytes, hlen⟩ : ∃ bytes, files.snapshot = some bytes ∧
        ¬ bytes.length ≤ Limits.maxSnapshotBytes := by
      by_contra hno
      exact hs fun bytes hbytes => by_contra fun hlen => hno ⟨bytes, hbytes, hlen⟩
    have he : ∀ report, readSnapshot report files.snapshot =
        Status.failure .oversized "durable store file exceeds the size bound" := by
      intro report
      rw [hbytes, readSnapshot, readBounded, if_pos (by omega)]
      rfl
    rw [he, he]
    exact ⟨⟨_, rfl⟩, ⟨_, rfl⟩⟩

end

theorem scanEnd_clean {image : Bytes} :
    (scanEnd (journalFormat.tail image)).1 = .clean ↔ journalFormat.tail image = [] := by
  rw [← scanJournal_clean, scanJournal_eq]

theorem snapshotReport_fields (report : RecoveryReport) (file : Option Bytes) :
    (snapshotReport report file).snapshotPresent = file.isSome ∧
      (snapshotReport report file).bytesValid = report.bytesValid ∧
      (snapshotReport report file).bytesDiscarded = report.bytesDiscarded := by
  cases file with
  | none => exact ⟨rfl, rfl, rfl⟩
  | some bytes =>
    rw [snapshotReport, Option.map_some]
    cases scanSnapshot bytes <;> exact ⟨rfl, rfl, rfl⟩

theorem scanSnapshot_ne_clean {bytes : Bytes} {outcome : RecoveryOutcome} {detail : String}
    (h : scanSnapshot bytes = .damaged outcome detail) : outcome ≠ .clean := by
  unfold scanSnapshot at h
  extract_lets header body trailer at h
  split_ifs at h <;> cases h <;> decide

/-- On a snapshot the default outcome stays, or gives way to what damaged it: never to clean. -/
theorem snapshotReport_ne_clean (file : Option Bytes) :
    (snapshotReport {} file).outcome ≠ .clean := by
  cases file with
  | none => decide
  | some bytes =>
    rw [snapshotReport, Option.map_some]
    cases hs : scanSnapshot bytes with
    | damaged outcome detail => exact scanSnapshot_ne_clean hs
    | intact payload covered => exact RecoveryOutcome.noConfusion

theorem snapshotReport_covered (file : Option Bytes) (report report' : RecoveryReport)
    (h : report.snapshotCoveredSeq = report'.snapshotCoveredSeq) :
    (snapshotReport report file).snapshotCoveredSeq =
      (snapshotReport report' file).snapshotCoveredSeq := by
  cases file with
  | none => exact h
  | some bytes =>
    rw [snapshotReport, snapshotReport, Option.map_some]
    cases scanSnapshot bytes with
    | damaged outcome detail => exact h
    | intact payload covered => rfl

/-- The reports of the two readers on readable files agree exactly on a damaged journal and on a
    store with nothing in it. -/
theorem sameReport_iff (files : Files) :
    SameReport { verifiedReport (snapshotReport {} files.snapshot) files.journal with
        formatVersion := stateFormatVersion }
      (replayedReport (snapshotReport { formatVersion := stateFormatVersion } files.snapshot)
        files.journal) ↔
    journalFormat.tail (files.journal.getD []) ≠ [] ∨
      (files.snapshot = none ∧ files.journal.getD [] = []) := by
  obtain ⟨hp, hvalid, hdiscarded⟩ := snapshotReport_fields {} files.snapshot
  obtain ⟨hp', hvalid', hdiscarded'⟩ :=
    snapshotReport_fields { formatVersion := stateFormatVersion } files.snapshot
  have hne := snapshotReport_ne_clean files.snapshot
  have hcovered := snapshotReport_covered files.snapshot {} { formatVersion := stateFormatVersion } rfl
  have hnone : files.snapshot = none → (snapshotReport {} files.snapshot).outcome = .missing ∧
      (snapshotReport { formatVersion := stateFormatVersion } files.snapshot).outcome =
        .missing := by
    intro h
    rw [h]
    exact ⟨rfl, rfl⟩
  generalize snapshotReport {} files.snapshot = v at *
  generalize snapshotReport { formatVersion := stateFormatVersion } files.snapshot = r at *
  rcases hj : files.journal with - | (- | ⟨b, bs⟩)
  · have htail : journalFormat.tail ((none : Option Bytes).getD []) = [] := rfl
    cases hs : files.snapshot with
    | none =>
      rw [hs] at hp hp'
      refine iff_of_true ?_ (Or.inr ⟨rfl, rfl⟩)
      simp only [verifiedReport, replayedReport, unscannedReport, hp, hp', Option.isSome_none,
        Bool.false_eq_true, if_false]
      exact ⟨rfl, rfl, hcovered, hvalid.trans hvalid'.symm,
        hdiscarded.trans hdiscarded'.symm⟩
    | some bytes =>
      rw [hs] at hp hp'
      refine iff_of_false (fun h => ?_) (fun h => ?_)
      swap
      · rcases h with h | ⟨h, -⟩
        · exact h htail
        · cases h
      have hout := h.outcome
      simp only [verifiedReport, replayedReport, unscannedReport, hp, hp', Option.isSome_some,
        if_true] at hout
      exact hne hout
  · have htail : journalFormat.tail ((some [] : Option Bytes).getD []) = [] := rfl
    cases hs : files.snapshot with
    | none =>
      rw [hs] at hp hp'
      refine iff_of_true ?_ (Or.inr ⟨rfl, rfl⟩)
      obtain ⟨hv, hr⟩ := hnone hs
      simp only [verifiedReport, replayedReport, unscannedReport, hp', Option.isSome_none,
        Bool.false_eq_true, if_false, if_true]
      exact ⟨hv.trans hr.symm, hp.trans hp'.symm, hcovered, hvalid.trans hvalid'.symm,
        hdiscarded.trans hdiscarded'.symm⟩
    | some bytes =>
      rw [hs] at hp hp'
      refine iff_of_false (fun h => ?_) (fun h => ?_)
      swap
      · rcases h with h | ⟨h, -⟩
        · exact h htail
        · cases h
      have hout := h.outcome
      simp only [verifiedReport, replayedReport, unscannedReport, hp', Option.isSome_some,
        if_true] at hout
      exact hne hout
  · rw [Option.getD_some]
    by_cases ht : journalFormat.tail (b :: bs) = []
    · refine iff_of_false (fun h => ?_) (by simp [ht])
      have hout := h.outcome
      simp only [verifiedReport, replayedReport, scannedReport, scanEnd_clean.mpr ht] at hout
      exact hne hout
    · refine iff_of_true ?_ (Or.inl ht)
      have hend := mt scanEnd_clean.mp ht
      simp only [verifiedReport, replayedReport, scannedReport, if_pos hend]
      exact ⟨rfl, hp.trans hp'.symm, hcovered, rfl, rfl⟩

/-- What the law asks of readable files. -/
theorem of_verifyLaw {σ : Type} {files : Files} {f : σ → JournaledRecord → σ} {start : σ}
    (h : VerifyLaw files f start) (hr : Readable files) :
    journalFormat.tail (files.journal.getD []) ≠ [] ∨
      (files.snapshot = none ∧ files.journal.getD [] = []) := by
  obtain ⟨replayed, hreplay, hreport⟩ := replay_openedOn files f start hr
  have hagree := h.agree
  rw [verify_openedOn files hr, hreplay, Agree, hreport] at hagree
  exact (sameReport_iff files).mp hagree

/-- THE READERS AGREE exactly on what neither can read, on a damaged journal, and on a store with
    nothing in it. -/
theorem verifyLaw_iff {σ : Type} (files : Files) (f : σ → JournaledRecord → σ) (start : σ) :
    VerifyLaw files f start ↔ ReadersAgree files := by
  by_cases hr : Readable files
  · constructor
    · intro h
      exact Or.inr (of_verifyLaw h hr)
    · intro hcond
      have hcond' := hcond.resolve_left (fun h => h hr)
      obtain ⟨replayed, hreplay, hreport⟩ := replay_openedOn files f start hr
      refine ⟨?_, fun hfull => ?_⟩
      · rw [verify_openedOn files hr, hreplay, Agree, hreport]
        exact (sameReport_iff files).mpr hcond'
      · obtain ⟨bytes, payload, covered, hbytes, -⟩ := hfull.intact
        obtain ⟨image, himage, hwhole⟩ := hfull.whole
        rw [himage, hbytes] at hcond'
        rcases hcond' with htail | ⟨hnone, -⟩
        · exact absurd hwhole htail
        · cases hnone
  · obtain ⟨⟨e, he⟩, e', he'⟩ := readers_fail files f start hr
    refine iff_of_true ⟨?_, fun hfull => absurd hfull.toReadable hr⟩ (Or.inl hr)
    rw [he, he']
    trivial

def oneRecord : Bytes := Framing.buildRecord .checkpoint ⟨1⟩ ⟨0⟩ []

/-- One record in the journal and no snapshot: `replay` finds the store clean, `verify` finds no
    durable state in it. -/
theorem verify_misses_journal :
    ¬ ∀ files, VerifyLaw files (fun (_ : Unit) (_ : JournaledRecord) => ()) () := by
  intro h
  have hlen : oneRecord.length ≤ Limits.maxJournalBytes := by decide +kernel
  have hwhole : journalFormat.tail oneRecord = [] := scanJournal_clean.mp (by decide +kernel)
  have hne : oneRecord ≠ [] := by decide +kernel
  generalize oneRecord = image at hlen hwhole hne
  have hr : Readable { journal := some image } :=
    ⟨fun _ h => (by cases h), fun _ h => Option.some.inj h ▸ hlen⟩
  rcases of_verifyLaw (h { journal := some image }) hr with htail | ⟨-, hempty⟩
  · exact htail hwhole
  · exact hne hempty

end DurableStore

end Mbg
