import MicroburstGovernor.Governor.NamedStreams

/-! Rejected evidence: a sample that a governor refuses leaves it as it was, but for the count.

    A sample is checked three times: by itself, against the room in the stream table, and by the
    detector of its stream. The last check comes after the table and the observed generations were
    written, and asks nothing the first one has not asked, of a detector that carries the sample's
    own key. -/

namespace Mbg

namespace Governor

/-- The streams of every reachable governor carry their names. -/
theorem namedStreams_run (hashing : Hashing) (config : GovernorConfig) (ops : List Op) :
    (Runs.run step (Governor.new hashing config) ops).core.NamedStreams := by
  refine (run_core (I := Core.NamedStreams) (fun _ op _ _ _ h => h.step op)
    (fun g c' _ hrestored _ h => ?_) (keyed_new hashing config) (fun key entry h => by cases h)
    (Runs.meets_of_forall_mem (fun _ _ => trivial))).2
  obtain ⟨_, _, _, _, rfl⟩ := hrestored
  cases g.durablePolicies <;> exact h

/-- Where the streams carry their names, so does the entry found or created for a sample. -/
theorem key_of_findOrCreate {g g' : Governor} (h : g.core.NamedStreams) {key : StreamKey}
    {entry : StreamEntry} (hfound : g.findOrCreate key = .ok (entry, g')) :
    entry.detector.key = key := by
  rw [findOrCreate] at hfound
  cases hfind : g.streams.find? key with
  | some found =>
    rw [hfind] at hfound
    obtain ⟨rfl, -⟩ := Prod.mk.inj (Except.ok.inj hfound)
    exact (h key found hfind).1
  | none =>
    rw [hfind] at hfound
    dsimp only at hfound
    split_ifs at hfound
    · cases hfound
    · obtain ⟨rfl, -⟩ := Prod.mk.inj (Except.ok.inj hfound)
      rfl

/-- LAST CHECK: the detector a sample comes to does not refuse it. -/
theorem ingest_ok_of_findOrCreate {g g' : Governor} (h : g.core.NamedStreams) {sample : Sample}
    (hvalid : validateSample sample = .ok ()) {entry : StreamEntry}
    (hfound : g.findOrCreate sample.stream = .ok (entry, g')) :
    ∃ result, entry.detector.ingest sample = .ok result := by
  have hkey := key_of_findOrCreate h hfound
  rw [Detector.ingest_eq hkey.symm hvalid]
  exact ⟨_, rfl⟩

/-- What a refused sample leaves, and that only the first two checks refuse one. -/
structure Unaffected (g : Governor) (sample : Sample) : Prop where
  rejected : (g.ingest sample).1.status ≠ .ok () → (g.ingest sample).2 =
    { g with stats := { g.stats with samplesRejected := g.stats.samplesRejected + 1 } }
  lastCheck : ∀ entry g', validateSample sample = .ok () →
    g.findOrCreate sample.stream = .ok (entry, g') →
    ∃ result, entry.detector.ingest sample = .ok result

/-- STEP: where the streams carry their names a refused sample only counts. -/
theorem unaffected_of_named {g : Governor} (h : g.core.NamedStreams) (sample : Sample) :
    g.Unaffected sample := by
  refine ⟨fun hstatus => ?_, fun entry g' hvalid hfound =>
    ingest_ok_of_findOrCreate h hvalid hfound⟩
  rw [ingest] at hstatus ⊢
  cases hvalid : validateSample sample with
  | error e => rfl
  | ok u =>
    rw [hvalid] at hstatus
    dsimp only at hstatus ⊢
    cases hfound : g.findOrCreate sample.stream with
    | error e => rfl
    | ok found =>
      obtain ⟨entry, g'⟩ := found
      obtain ⟨result, hresult⟩ := ingest_ok_of_findOrCreate h hvalid hfound
      rw [hfound] at hstatus
      dsimp only at hstatus
      rw [hresult] at hstatus
      exact (hstatus rfl).elim

/-- REJECTION: whatever a governor went through, a sample it refuses changes nothing but the count of
    refused samples, and no sample is refused by the detector of its stream. -/
theorem rejected_unaffected (hashing : Hashing) (config : GovernorConfig) (ops : List Op)
    (sample : Sample) :
    (Runs.run step (Governor.new hashing config) ops).Unaffected sample :=
  unaffected_of_named (namedStreams_run hashing config ops) sample

end Governor

end Mbg
