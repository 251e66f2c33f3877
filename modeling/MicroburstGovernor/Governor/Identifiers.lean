import MicroburstGovernor.Core.Hashing
import MicroburstGovernor.Detect.Identity
import MicroburstGovernor.Governor.Interventions

/-! Episode and intervention identities: what they tell apart.

    An identity is the digest of what it names, and the digest that would read as invalid is moved to
    another value, where it meets the name that has that value by right. Nothing else that differs in
    one place shares an identity. -/

namespace Mbg

open Mixing

/-- Moves the invalid value aside. -/
def reserve (c h : UInt64) : UInt64 := if h = ~~~0 then h ^^^ c else h

/-- One of the digests is the invalid value, the other the one it is moved to. -/
def Clash (c h h' : UInt64) : Prop :=
  (h = ~~~0 ∧ h' = ~~~0 ^^^ c) ∨ (h' = ~~~0 ∧ h = ~~~0 ^^^ c)

instance (c h h' : UInt64) : Decidable (Clash c h h') :=
  inferInstanceAs (Decidable ((_ ∧ _) ∨ (_ ∧ _)))

theorem reserve_eq_iff {c h h' : UInt64} (hne : h ≠ h') :
    reserve c h = reserve c h' ↔ Clash c h h' := by
  unfold reserve Clash
  by_cases hh : h = ~~~0
  · by_cases hh' : h' = ~~~0
    · exact absurd (hh.trans hh'.symm) hne
    · simp only [hh, hh', if_true, if_false, true_and, false_and, or_false]
      exact eq_comm
  · by_cases hh' : h' = ~~~0
    · simp only [hh, hh', if_true, if_false, true_and, false_and, false_or]
    · rw [if_neg hh, if_neg hh']
      simp only [hh, hh', false_and, or_self, iff_false]
      exact hne

/-- What the identity of an episode is made of. -/
def eventFields (key : StreamKey) (onset : Tick) : List UInt64 :=
  [key.resource.raw, key.queue.raw, if key.path.valid then key.path.raw else 0, onset.value]

def eventHash (key : StreamKey) (onset : Tick) : UInt64 :=
  hashFields 0xA5A5A5A5DEADBEEF (eventFields key onset)

theorem makeEventId_eq (key : StreamKey) (onset : Tick) :
    makeEventId key onset = ⟨reserve 0x5DEECE66D (eventHash key onset)⟩ := rfl

/-- What the identity of an intervention is made of. -/
def interventionFields (event : EventId) (kind : InterventionKind) (issued : Tick) : List UInt64 :=
  [event.raw, kind.raw.toUInt64, issued.value]

def interventionHash (event : EventId) (kind : InterventionKind) (issued : Tick) : UInt64 :=
  hashFields 0x1D1E2D3C4B5A6978 (interventionFields event kind issued)

theorem makeInterventionId_eq (event : EventId) (kind : InterventionKind) (issued : Tick) :
    makeInterventionId event kind issued =
      ⟨reserve 0x9E3779B97F4A7C15 (interventionHash event kind issued)⟩ := rfl

theorem makeEventId_eq_iff {key key' : StreamKey} {onset onset' : Tick}
    (h : OneChange (eventFields key onset) (eventFields key' onset')) :
    makeEventId key onset = makeEventId key' onset' ↔
      Clash 0x5DEECE66D (eventHash key onset) (eventHash key' onset') := by
  have hne : eventHash key onset ≠ eventHash key' onset' := hashFields_ne h _
  rw [makeEventId_eq, makeEventId_eq, StrongId.ext_iff]
  exact reserve_eq_iff hne

theorem makeInterventionId_eq_iff {event event' : EventId} {kind kind' : InterventionKind}
    {issued issued' : Tick}
    (h : OneChange (interventionFields event kind issued) (interventionFields event' kind' issued')) :
    makeInterventionId event kind issued = makeInterventionId event' kind' issued' ↔
      Clash 0x9E3779B97F4A7C15 (interventionHash event kind issued)
        (interventionHash event' kind' issued') := by
  have hne : interventionHash event kind issued ≠ interventionHash event' kind' issued' :=
    hashFields_ne h _
  rw [makeInterventionId_eq, makeInterventionId_eq, StrongId.ext_iff]
  exact reserve_eq_iff hne

/-- Two onsets of one stream. -/
theorem oneChange_onset (key : StreamKey) {onset onset' : Tick} (h : onset.value ≠ onset'.value) :
    OneChange (eventFields key onset) (eventFields key onset') :=
  ⟨[key.resource.raw, key.queue.raw, if key.path.valid then key.path.raw else 0], onset.value,
    onset'.value, [], rfl, rfl, h⟩

/-- IDENTITIES: episodes whose stream and onset differ in one place, and interventions whose episode,
    kind and tick do, share an identity only where the invalid value was moved aside; a stream
    without a path and the same one on path 0 share theirs at every onset. -/
theorem ids_separate :
    (∀ key onset key' onset', OneChange (eventFields key onset) (eventFields key' onset') →
      (makeEventId key onset = makeEventId key' onset' ↔
        Clash 0x5DEECE66D (eventHash key onset) (eventHash key' onset'))) ∧
    (∀ event kind issued event' kind' issued',
      OneChange (interventionFields event kind issued) (interventionFields event' kind' issued') →
      (makeInterventionId event kind issued = makeInterventionId event' kind' issued' ↔
        Clash 0x9E3779B97F4A7C15 (interventionHash event kind issued)
          (interventionHash event' kind' issued'))) ∧
    (∀ resource queue onset,
      makeEventId ⟨resource, queue, StrongId.invalid⟩ onset = makeEventId ⟨resource, queue, ⟨0⟩⟩ onset) :=
  ⟨fun _ _ _ _ => makeEventId_eq_iff, fun _ _ _ _ _ _ => makeInterventionId_eq_iff,
    fun _ _ _ => rfl⟩

/-! ### The identities of one detector -/

namespace Detector

theorem key_of_announces {c c' : Current} {v : DetectionDecision.Verdict} (h : Announces c c' v) :
    c'.key = c.key := by
  cases h with
  | kept same => exact congrArg Current.key same
  | updated _ same => exact congrArg Current.key same
  | opened _ now => rw [now]
  | openedClosed _ now => rw [now]
  | closed _ now => rw [now]

theorem key_call (d : Detector) (c : Call) : (d.call c).1.key = d.key := by
  cases he : d.evaluating c with
  | some evaluating =>
    obtain ⟨e, now⟩ := evaluating
    obtain ⟨hsame, -, -⟩ := evaluating_spec he
    rw [call_evaluating he]
    exact (key_of_announces (e.evaluated_evaluateFresh now).announces).trans
      (congrArg Current.key hsame.current)
  | none =>
    rcases call_not_evaluating he with ⟨hsame, -⟩ | hclosed
    · exact congrArg Current.key hsame.current
    · exact congrArg Current.key hclosed.current

/-- A detector with the onsets and the identities of the episodes it opened, the newest last. -/
structure IdentityLog where
  log : OnsetLog
  ids : List EventId := []

namespace IdentityLog

def step (s : IdentityLog) (c : Call) : IdentityLog where
  log := s.log.step c
  ids := s.ids ++
    ((OnsetLog.opening s.log.detector c).map fun _ => (s.log.detector.call c).1.episode.id).toList

/-- Each opened episode carries the identity of its onset, and no two of them the same one but for
    the pair whose digests clash. -/
structure Distinct (key : StreamKey) (s : IdentityLog) : Prop where
  named : s.ids = s.log.onsets.map (makeEventId key)
  distinct : s.log.onsets.Pairwise fun earlier later =>
    makeEventId key earlier = makeEventId key later →
      Clash 0x5DEECE66D (eventHash key earlier) (eventHash key later)

/-- The log in order: the onsets rise, and each has its identity. -/
structure Ordered (key : StreamKey) (s : IdentityLog) : Prop where
  key_eq : s.log.detector.key = key
  rising : s.log.Rising
  named : s.ids = s.log.onsets.map (makeEventId key)
  sorted : s.log.onsets.Pairwise fun earlier later => earlier.value < later.value

/-- STEP: a call in the lower quarter of the tick range keeps the order. -/
theorem Ordered.step {key : StreamKey} {s : IdentityLog} (h : s.Ordered key) {c : Call}
    (hc : c.tick.value.toNat < 2 ^ 62) : (s.step c).Ordered key := by
  obtain ⟨hkeeps, hrising⟩ := OnsetLog.keepsIdentity_step h.rising hc
  refine ⟨(s.log.detector.key_call c).trans h.key_eq, hrising, ?_, ?_⟩
  · change s.ids ++ _ = (s.log.onsets ++ _).map _
    rw [List.map_append, h.named]
    congr 1
    cases hopening : OnsetLog.opening s.log.detector c with
    | none => rfl
    | some onset =>
      have hid := (hkeeps.opened onset hopening).2
      rw [h.key_eq] at hid
      rw [Option.map_some, Option.toList_some, Option.toList_some, List.map_singleton, hid]
  · change (s.log.onsets ++ (OnsetLog.opening s.log.detector c).toList).Pairwise _
    refine List.pairwise_append.mpr ⟨h.sorted, ?_, fun earlier hearlier later hlater => ?_⟩
    · cases OnsetLog.opening s.log.detector c with
      | none => exact List.Pairwise.nil
      | some onset => exact List.pairwise_singleton _ _
    · have hopening : later ∈ OnsetLog.opening s.log.detector c := by
        simpa [Option.mem_toList] using hlater
      exact hkeeps.rising later hopening earlier hearlier

theorem Ordered.distinct {key : StreamKey} {s : IdentityLog} (h : s.Ordered key) :
    s.Distinct key where
  named := h.named
  distinct := h.sorted.imp fun {earlier later} hless heq => by
    have hne : earlier.value ≠ later.value := UInt64.ne_of_lt hless
    exact (makeEventId_eq_iff (oneChange_onset key hne)).mp heq

end IdentityLog

end Detector

end Mbg
