import MicroburstGovernor.Lib.Runs
import MicroburstGovernor.Persist.Append
import MicroburstGovernor.Persist.Integrity

/-! The acknowledged records of a store against the bytes of its journal, over runs with failing
    writes, crashes and reopens. -/

namespace Mbg

open DurableStore Framing

/-- A store and the records acknowledged since its journal was last reset. -/
structure AckedStore where
  store : DurableStore
  acked : List JournaledRecord := []

/-- What may happen to a store: the calls of its interface, and the end of its process. -/
inductive StoreOp where
  | openStore (config : StoreConfig)
  | append (type : RecordType) (seq : RecordSeq) (tick : Tick) (payload : Bytes)
      (fault : Option Fault)
  /-- The process dies in an append, after some bytes of the record. -/
  | crash (type : RecordType) (seq : RecordSeq) (tick : Tick) (payload : Bytes) (written : ℕ)
  | close
  | replay
  | resetJournal

namespace AckedStore

/-- An append whose write meets this fault, or none. -/
def appendUnder (s : DurableStore) (fault : Option Fault) (type : RecordType) (seq : RecordSeq)
    (tick : Tick) (payload : Bytes) : Status × DurableStore :=
  let (status, s) := { s with faults := [fault] }.append type seq tick payload
  (status, { s with faults := [] })

def step (a : AckedStore) : StoreOp → AckedStore
  | .openStore config => { a with store := (a.store.openStore config).2 }
  | .append type seq tick payload fault =>
    match appendUnder a.store fault type seq tick payload with
    | (.ok (), s) => ⟨s, a.acked ++ [⟨type, seq, tick, payload⟩]⟩
    | (.error _, s) => ⟨s, a.acked⟩
  | .crash type seq tick payload written =>
    { a with store := .ofFiles (appendUnder a.store (some ⟨0, written⟩) type seq tick payload).2.disk }
  | .close => { a with store := .ofFiles a.store.disk }
  | .replay => { a with store := (a.store.replay collectAll []).2 }
  | .resetJournal =>
    match a.store.resetJournal with
    | (.ok (), s) => ⟨s, []⟩
    | (.error _, s) => { a with store := s }

/-- A store object that was not opened yet, over a directory with these files. -/
def initial (files : Files) : AckedStore := ⟨.ofFiles files, []⟩

/-- The next replay delivers every acknowledged record, in append order. -/
def Delivers (a : AckedStore) : Prop :=
  a.store.isOpen → ∃ replayed s', a.store.replay collectAll [] = (.ok replayed, s') ∧
    a.acked.Sublist replayed.visited

/-! ### What the operations do to the files -/

/-- An append refuses and leaves the files alone, fails after a prefix of the record, or writes it
    whole and acknowledges it. -/
theorem appendUnder_cases (s : DurableStore) (fault : Option Fault) (type : RecordType)
    (seq : RecordSeq) (tick : Tick) (payload : Bytes) :
    ∃ status s', appendUnder s fault type seq tick payload = (status, s') ∧ s'.faults = [] ∧
    ((¬ Accepts s type payload ∧ (∃ e, status = .error e) ∧ s'.disk = s.disk) ∨
     (Accepts s type payload ∧ ∃ f, fault = some f ∧ (∃ e, status = .error e) ∧
        s'.disk = (Effect.appendJournal ((buildRecord type seq tick payload).take f.written)).apply
          s.disk) ∨
     (Accepts s type payload ∧ fault = none ∧ status = .ok () ∧
        s'.disk = (Effect.appendJournal (buildRecord type seq tick payload)).apply s.disk)) := by
  have hiff : Accepts { s with faults := [fault] } type payload ↔ Accepts s type payload :=
    ⟨fun ⟨h1, h2, h3, h4⟩ => ⟨h1, h2, h3, h4⟩, fun ⟨h1, h2, h3, h4⟩ => ⟨h1, h2, h3, h4⟩⟩
  dsimp only [appendUnder]
  by_cases h : Accepts s type payload
  · rcases append_accepted (hiff.mpr h) seq tick with ⟨hn, h'⟩ | ⟨f, e, hn, h'⟩
    · rw [h']; exact ⟨_, _, rfl, rfl, Or.inr (Or.inr ⟨h, hn, rfl, rfl⟩)⟩
    · rw [h']; exact ⟨_, _, rfl, rfl, Or.inr (Or.inl ⟨h, f, hn, ⟨e, rfl⟩, rfl⟩)⟩
  · obtain ⟨e, required, h'⟩ := append_refused (mt hiff.mp h) seq tick
    rw [h']; exact ⟨_, _, rfl, rfl, Or.inl ⟨h, ⟨e, rfl⟩, rfl⟩⟩

/-- Opening leaves the bytes of both files alone; at most it creates an empty journal. -/
theorem openStore_disk {s : DurableStore} (hf : s.faults = []) (config : StoreConfig) :
    (s.openStore config).2.faults = [] ∧ ((s.openStore config).2.disk = s.disk ∨
      s.disk.journal = none ∧ (s.openStore config).2.disk = { s.disk with journal := some [] }) := by
  rw [openStore]
  by_cases hdir : config.directory.isEmpty = true
  · rw [if_pos hdir]; exact ⟨hf, Or.inl rfl⟩
  by_cases hsize : config.maxJournalBytes = 0 ∨
      config.maxJournalBytes.toNat > Limits.maxJournalBytes
  · rw [if_neg hdir, if_pos hsize]; exact ⟨hf, Or.inl rfl⟩
  by_cases hopen : s.isOpen = true
  · rw [if_neg hdir, if_neg hsize, if_pos hopen]; exact ⟨hf, Or.inl rfl⟩
  rw [if_neg hdir, if_neg hsize, if_neg hopen, nextFault_nil hf]
  cases hj : s.disk.journal with
  | none => exact ⟨by simp [commit, hf, hj], Or.inr ⟨rfl, by simp [hj, Effect.apply]⟩⟩
  | some image => exact ⟨by simp [hf, hj], Or.inl (by simp [hj])⟩

theorem resetJournal_disk {s : DurableStore} (hf : s.faults = []) :
    (s.isOpen = false ∧ ∃ e, s.resetJournal = (.error e, s)) ∨
      ∃ s', s.resetJournal = (.ok (), s') ∧ s'.faults = [] ∧
        s'.disk = { s.disk with journal := some [] } := by
  rw [resetJournal, nextFault_nil hf]
  cases hopen : s.isOpen with
  | false => exact Or.inl ⟨rfl, _, rfl⟩
  | true => exact Or.inr ⟨_, rfl, hf, rfl⟩

theorem retireTail_disk (s : DurableStore) {image : Bytes} (hj : s.disk.journal = some image) :
    (s.retireTail image).disk =
      { s.disk with journal := some (journalFormat.split image).flatten } := by
  rw [retireTail]
  by_cases ht : journalFormat.tail image = []
  · rw [if_pos ht, journalFormat.tail_eq_nil_iff.mp ht, ← hj]
  · rw [if_neg ht]
    simp only [commit, Effect.apply, hj, Option.getD_some, journalFormat.take_split_flatten]

/-- A replay leaves the frames of the journal, and cuts off at most what follows them. -/
theorem replay_disk {σ : Type} {s : DurableStore} (hopen : s.isOpen) (hf : s.faults = [])
    (visitor : σ → JournaledRecord → Except Failure σ) (start : σ) :
    (s.replay visitor start).2.faults = [] ∧ ((s.replay visitor start).2.disk = s.disk ∨
      ∃ image, s.disk.journal = some image ∧ (s.replay visitor start).2.disk =
        { s.disk with journal := some (journalFormat.split image).flatten }) := by
  rw [replay_nil hopen hf]
  cases readSnapshot { formatVersion := stateFormatVersion } s.disk.snapshot with
  | error e => exact ⟨hf, Or.inl rfl⟩
  | ok read =>
    cases hj : s.disk.journal with
    | none => exact ⟨hf, Or.inl rfl⟩
    | some image =>
      by_cases hlen : image.length ≤ Limits.maxJournalBytes
      · rw [readBounded_of_le hlen]
        cases image with
        | nil => exact ⟨hf, Or.inl rfl⟩
        | cons b bs =>
          dsimp only
          cases ((journalFormat.split (b :: bs)).map parseRecord).foldlM visitor start with
          | error e => exact ⟨hf, Or.inl rfl⟩
          | ok visited =>
            refine ⟨?_, Or.inr ⟨_, rfl, retireTail_disk s hj⟩⟩
            dsimp only
            rw [retireTail]
            split <;> exact hf
      · rw [readBounded, if_pos (Nat.lt_of_not_le hlen)]; exact ⟨hf, Or.inl rfl⟩

/-- On a store that is not open a replay changes nothing: it cannot truncate. -/
theorem replay_closed {s : DurableStore} (hopen : s.isOpen = false) (hf : s.faults = []) :
    (s.replay collectAll []).2 = s := by
  rw [replay, loadSnapshot_nil hf]
  cases readSnapshot { formatVersion := stateFormatVersion } s.disk.snapshot with
  | error e => rfl
  | ok read =>
    dsimp only
    rw [readFile_nil hf]
    cases readBounded s.disk.journal Limits.maxJournalBytes with
    | error e => rfl
    | ok file =>
      rcases file with - | (- | ⟨b, bs⟩)
      · rfl
      · rfl
      · simp only [foldlM_collectAll, truncateJournal, hopen, Bool.not_false, if_true]
        split <;> rfl

/-! ### The acknowledged records -/

/-- The records whose frames the files hold. -/
def framedRecords (files : Files) : List JournaledRecord :=
  (journalFormat.split (files.journal.getD [])).map parseRecord

/-- The condition on a step: an accepted append finds no torn tail in front of it, and leaves a
    journal that the reader's bound admits. -/
def StepOk (a : AckedStore) : StoreOp → Prop
  | .append type _ _ payload fault => Accepts a.store type payload →
    (fault = none → journalFormat.tail a.store.journal = []) ∧
      a.store.journal.length + (recordHeaderBytes + payload.length) ≤ Limits.maxJournalBytes
  | .crash type _ _ payload _ => Accepts a.store type payload →
    a.store.journal.length + (recordHeaderBytes + payload.length) ≤ Limits.maxJournalBytes
  | _ => True

/-- The invariant: the acknowledged records are framed in the journal, in order. -/
structure Sound (a : AckedStore) : Prop where
  faults : a.store.faults = []
  readable : Readable a.store.disk
  framed : a.acked.Sublist (framedRecords a.store.disk)

/-- What the frames of a journal hold is still there after bytes were appended. -/
theorem framed_appendJournal (files : Files) (bytes : Bytes) :
    framedRecords files <+: framedRecords ((Effect.appendJournal bytes).apply files) := by
  simp only [framedRecords, Effect.apply, Option.getD_some]
  rw [journalFormat.split_append, List.map_append]
  exact List.prefix_append _ _

theorem readable_appendJournal {files : Files} (hr : Readable files) {bytes : Bytes}
    (h : (files.journal.getD []).length + bytes.length ≤ Limits.maxJournalBytes) :
    Readable ((Effect.appendJournal bytes).apply files) := by
  refine ⟨hr.snapshot, fun image himage => ?_⟩
  obtain rfl := Option.some.inj himage
  rw [List.length_append]
  exact h

/-- An append that is acknowledged over whole frames is framed after them. -/
theorem framed_acknowledged {s : DurableStore} {type : RecordType} {payload : Bytes}
    (h : Accepts s type payload) (ht : journalFormat.tail s.journal = []) (seq : RecordSeq)
    (tick : Tick) :
    framedRecords ((Effect.appendJournal (buildRecord type seq tick payload)).apply s.disk) =
      framedRecords s.disk ++ [⟨type, seq, tick, payload⟩] := by
  simp only [framedRecords, Effect.apply, Option.getD_some]
  rw [journalFormat.split_append_frame (b := s.disk.journal.getD []) ht (isFrame_buildRecord h.writable h.bounded),
    List.map_append, List.map_singleton, parseRecord_buildRecord h.bounded]

/-- Files with no more journal than before, framing the same records. -/
theorem Sound.of_disk {a : AckedStore} (h : Sound a) {s : DurableStore} (hf : s.faults = [])
    (hd : s.disk = a.store.disk ∨ a.store.disk.journal = none ∧
        s.disk = { a.store.disk with journal := some [] } ∨
      ∃ image, a.store.disk.journal = some image ∧
        s.disk = { a.store.disk with journal := some (journalFormat.split image).flatten }) :
    Sound { a with store := s } := by
  obtain ⟨-, hr, hs⟩ := h
  rcases hd with hd | ⟨hj, hd⟩ | ⟨image, hj, hd⟩
  · exact ⟨hf, hd ▸ hr, hd ▸ hs⟩
  · refine ⟨hf, ⟨hd ▸ hr.snapshot, fun image himage => ?_⟩, ?_⟩
    · rw [hd] at himage; obtain rfl := Option.some.inj himage; exact Nat.zero_le _
    · rw [framedRecords, hj] at hs; rw [framedRecords, hd]; exact hs
  · refine ⟨hf, ⟨hd ▸ hr.snapshot, fun bytes hbytes => ?_⟩, ?_⟩
    · rw [hd] at hbytes
      obtain rfl := Option.some.inj hbytes
      exact Nat.le_trans (journalFormat.length_split_flatten_le image) (hr.journal image hj)
    · rw [framedRecords, hd, Option.getD_some, journalFormat.split_split_flatten]
      rwa [framedRecords, hj] at hs

theorem Sound.append {a : AckedStore} (h : Sound a) {type : RecordType} {seq : RecordSeq}
    {tick : Tick} {payload : Bytes} {fault : Option Fault}
    (hok : StepOk a (.append type seq tick payload fault)) :
    Sound (step a (.append type seq tick payload fault)) := by
  obtain ⟨status, s', happ, hf, hcases⟩ := appendUnder_cases a.store fault type seq tick payload
  rw [step, happ]
  rcases hcases with ⟨hacc, ⟨e, rfl⟩, hd⟩ | ⟨hacc, f, hfault, ⟨e, rfl⟩, hd⟩ | ⟨hacc, hfault, rfl, hd⟩
  · exact h.of_disk hf (Or.inl hd)
  · obtain ⟨-, hroom⟩ := hok hacc
    refine ⟨hf, ?_, ?_⟩
    · refine hd ▸ readable_appendJournal h.readable ?_
      rw [List.length_take, length_buildRecord]
      have := Nat.min_le_right f.written (recordHeaderBytes + payload.length)
      exact Nat.le_trans (Nat.add_le_add_left this _) hroom
    · exact hd ▸ h.framed.trans (framed_appendJournal _ _).sublist
  · obtain ⟨htail, hroom⟩ := hok hacc
    refine ⟨hf, hd ▸ readable_appendJournal h.readable ?_, ?_⟩
    · rw [length_buildRecord]; exact hroom
    · rw [hd, framed_acknowledged hacc (htail hfault)]
      exact h.framed.append (List.Sublist.refl _)

theorem Sound.crash {a : AckedStore} (h : Sound a) {type : RecordType} {seq : RecordSeq}
    {tick : Tick} {payload : Bytes} {written : ℕ}
    (hok : StepOk a (.crash type seq tick payload written)) :
    Sound (step a (.crash type seq tick payload written)) := by
  obtain ⟨status, s', happ, -, hcases⟩ :=
    appendUnder_cases a.store (some ⟨0, written⟩) type seq tick payload
  rw [step, happ]
  rcases hcases with ⟨-, -, hd⟩ | ⟨hacc, f, hfault, -, hd⟩ | ⟨-, hfault, -⟩
  · exact h.of_disk rfl (Or.inl hd)
  · refine ⟨rfl, ?_, ?_⟩
    · refine hd ▸ readable_appendJournal h.readable ?_
      rw [List.length_take, length_buildRecord]
      have := Nat.min_le_right f.written (recordHeaderBytes + payload.length)
      exact Nat.le_trans (Nat.add_le_add_left this _) (hok hacc)
    · exact hd ▸ h.framed.trans (framed_appendJournal _ _).sublist
  · cases hfault

/-- STEP: an operation that meets the condition keeps the acknowledged records framed. -/
theorem sound_step (a : AckedStore) (op : StoreOp) (h : Sound a) (hok : StepOk a op) :
    Sound (step a op) := by
  cases op with
  | openStore config =>
    obtain ⟨hf, hd | hd⟩ := openStore_disk h.faults config
    · exact h.of_disk hf (Or.inl hd)
    · exact h.of_disk hf (Or.inr (Or.inl hd))
  | append type seq tick payload fault => exact h.append hok
  | crash type seq tick payload written => exact h.crash hok
  | close => exact h.of_disk rfl (Or.inl rfl)
  | replay =>
    cases hopen : a.store.isOpen with
    | false =>
      rw [step, replay_closed hopen h.faults]
      exact h.of_disk h.faults (Or.inl rfl)
    | true =>
      obtain ⟨hf, hd | hd⟩ := replay_disk hopen h.faults collectAll []
      · exact h.of_disk hf (Or.inl hd)
      · exact h.of_disk hf (Or.inr (Or.inr hd))
  | resetJournal =>
    rw [step]
    rcases resetJournal_disk h.faults with ⟨-, e, hr⟩ | ⟨s', hr, hf, hd⟩
    · rw [hr]; exact h.of_disk h.faults (Or.inl rfl)
    · rw [hr]
      refine ⟨hf, ⟨hd ▸ h.readable.snapshot, fun image himage => ?_⟩, List.nil_sublist _⟩
      rw [hd] at himage
      obtain rfl := Option.some.inj himage
      exact Nat.zero_le _

theorem Sound.delivers {a : AckedStore} (h : Sound a) : Delivers a := by
  intro hopen
  have hfold := foldlM_collectAll (framedRecords a.store.disk) []
  obtain ⟨replayed, s', hr⟩ := replay_readable hopen h.faults h.readable hfold
  refine ⟨replayed, s', hr, ?_⟩
  have hs := h.framed
  cases hj : a.store.disk.journal with
  | none =>
    rw [framedRecords, hj] at hs
    rw [List.sublist_nil.mp hs]
    exact List.nil_sublist _
  | some image =>
    rw [framedRecords, hj] at hs
    rw [(replay_collectAll hopen h.faults hj hr).2]
    exact hs

theorem sound_initial {files : Files} (hr : Readable files) : Sound (initial files) :=
  ⟨rfl, hr, List.nil_sublist _⟩

/-- NO LOST RECORD: in a run whose appends never land behind a torn tail, the next replay delivers
    every acknowledged record. -/
theorem delivers_run {files : Files} (hr : Readable files) (ops : List StoreOp)
    (hok : Runs.Meets step StepOk (initial files) ops) :
    Delivers (Runs.run step (initial files) ops) :=
  (Runs.run_invariant (fun a op h => sound_step a op h) (sound_initial hr) hok).delivers

/-- A crash after ten bytes of a record, repaired by a replay before the next append. -/
theorem delivers_run_repaired : Delivers (Runs.run step (initial {})
    [.openStore { directory := "store" }, .append .checkpoint ⟨1⟩ ⟨0⟩ [0x01] none,
      .crash .checkpoint ⟨2⟩ ⟨0⟩ [0x02] 10, .openStore { directory := "store" }, .replay,
      .append .checkpoint ⟨2⟩ ⟨0⟩ [0x02] none]) := by
  refine delivers_run ⟨by simp, by simp⟩ _ ⟨trivial, fun _ => ⟨fun _ => ?_, ?_⟩, fun _ => ?_, trivial,
    trivial, fun _ => ⟨fun _ => ?_, ?_⟩, trivial⟩ <;> decide +kernel

/-- The same crash without the replay: the journal behind the torn tail is not delivered. -/
def tornRun : AckedStore := Runs.run step (initial {})
  [.openStore { directory := "store" }, .crash .checkpoint ⟨1⟩ ⟨0⟩ [0x01] 10,
    .openStore { directory := "store" }, .append .checkpoint ⟨1⟩ ⟨0⟩ [0x01] none]

theorem tornRun_not_delivered : ¬ ∀ files, Readable files → ∀ ops : List StoreOp,
    Delivers (Runs.run step (initial files) ops) := by
  intro h
  have hd : Delivers tornRun := h {} ⟨by simp, by simp⟩ _
  obtain ⟨replayed, s', hr, hsub⟩ := hd (by decide +kernel)
  have hscan : scanRecord tornRun.store.journal =
      .stop .corruptTail "journal record header checksum mismatch" := by decide +kernel
  have hj : tornRun.store.disk.journal = some tornRun.store.journal := by decide +kernel
  have hf : tornRun.store.faults = [] := by decide +kernel
  have hvisited := (replay_collectAll (by decide +kernel) hf hj hr).2
  rw [journalFormat.split_none (journalFormat_head_none.mpr ⟨_, _, hscan⟩), List.map_nil] at hvisited
  rw [hvisited] at hsub
  have hacked : tornRun.acked ≠ [] := by decide +kernel
  exact hacked (List.sublist_nil.mp hsub)

end AckedStore

end Mbg
