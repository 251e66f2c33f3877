import MicroburstGovernor.Detect.Retained
import MicroburstGovernor.Governor.NoLiveness

/-! The two rings as bounded queues: the evidence window, one index and a size over fixed slots, and
    the event history, a list that grows to its bound and then overwrites at a head.

    Either way the abstract ring is the list of everything it was given, of which the last entries, as
    many as there is room for, are still there. -/

namespace Mbg

namespace EvidenceWindow

/-! ### The evidence window -/

/-- The samples that a sequence of offers stores, in order. -/
def accepted (w : EvidenceWindow) : List (Sample × UInt64) → List Sample
  | [] => []
  | o :: offers =>
    if (w.offer o.1 o.2).2.stored then o.1 :: (w.step o).accepted offers
    else (w.step o).accepted offers

theorem accepted_concat (w : EvidenceWindow) (offers : List (Sample × UInt64))
    (o : Sample × UInt64) : w.accepted (offers ++ [o]) = w.accepted offers ++
      if ((Runs.run step w offers).offer o.1 o.2).2.stored then [o.1] else [] := by
  induction offers generalizing w with
  | nil => rfl
  | cons first offers ih =>
    rw [List.cons_append, accepted, ih, accepted]
    split
    · rfl
    · rfl

/-- A window that retains the last of what it accepted. -/
structure Retains (w : EvidenceWindow) (samples : List Sample) : Prop extends w.Tracked where
  retained : w.retained = samples.drop (samples.length - w.capacity)
  size : w.size = min samples.length w.capacity

theorem retains_reset (capacity : ℕ) : (reset capacity).Retains [] :=
  ⟨tracked_reset capacity, by rw [retained_of_empty rfl, List.drop_nil], (Nat.zero_min _).symm⟩

/-- An accepted sample takes its place behind the others; the oldest leaves a full ring. -/
theorem Retains.offer {w : EvidenceWindow} {samples : List Sample} (h : w.Retains samples)
    (sample : Sample) (tolerance : UInt64) :
    (w.offer sample tolerance).1.Retains
      (samples ++ if (w.offer sample tolerance).2.stored then [sample] else []) := by
  have ho := offer_offered h.toTracked sample tolerance
  have hpos : 0 < w.capacity := Nat.lt_of_le_of_lt (Nat.zero_le _) h.toTracked.head
  have hretained := h.retained
  have hsize := h.size
  generalize w.offer sample tolerance = o at ho ⊢
  by_cases hin : w.Admits sample tolerance
  · obtain ⟨hstored, hnew⟩ := ho.admitted hin
    rw [if_pos hstored]
    have hlist : o.1.retained =
        (samples ++ [sample]).drop ((samples ++ [sample]).length - o.1.capacity) := by
      rw [hnew, ho.capacity, hretained, List.length_append, List.length_singleton]
      by_cases hfull : w.size = w.capacity
      · rw [if_pos hfull, List.tail_drop,
          show samples.length + 1 - w.capacity = samples.length - w.capacity + 1 by omega,
          List.drop_append_of_le_length (by omega)]
      · rw [if_neg hfull, show samples.length + 1 - w.capacity = 0 by omega,
          show samples.length - w.capacity = 0 by omega]
        rfl
    refine ⟨ho.tracked, hlist, ?_⟩
    rw [← length_retained o.1, hlist, List.length_drop]
    omega
  · obtain ⟨hrefused, hsame⟩ := ho.refused hin
    have hskip : ¬ o.2.stored = true := by rw [hrefused]; exact Bool.false_ne_true
    rw [if_neg hskip, List.append_nil]
    refine ⟨ho.tracked, ?_, ?_⟩
    · rw [hsame, ho.capacity, hretained]
    · rw [← length_retained o.1, hsame, length_retained, ho.capacity, hsize]

theorem retains_after (capacity : ℕ) (offers : List (Sample × UInt64)) :
    (after capacity offers).Retains ((reset capacity).accepted offers) := by
  induction offers using List.reverseRecOn with
  | nil => exact retains_reset capacity
  | append_singleton offers o ih =>
    have hstep : after capacity (offers ++ [o]) = (after capacity offers).step o := by
      rw [after, Runs.run, List.foldl_append]
      rfl
    rw [hstep, accepted_concat]
    exact ih.offer o.1 o.2

end EvidenceWindow

namespace Governor

/-! ### The event history -/

/-- A fresh governor that was given episodes to record. -/
def recordedAll (hashing : Hashing) (config : GovernorConfig) (events : List BurstEvent) : Governor :=
  events.foldl recordEventLocked (new hashing config)

/-- What the ring of terminal episodes is after so many of them. -/
theorem history_recordedAll (hashing : Hashing) (config : GovernorConfig)
    (events : List BurstEvent) :
    (recordedAll hashing config events).shelves.1 =
      events.foldl (CappedRing.push Limits.maxEventHistory) ([], 0) := by
  induction events using List.reverseRecOn with
  | nil => rfl
  | append_singleton events event ih =>
    have hstep : recordedAll hashing config (events ++ [event]) =
        (recordedAll hashing config events).recordEventLocked event := by
      rw [recordedAll, List.foldl_append]
      rfl
    rw [hstep, ring_recordEventLocked, ih, List.foldl_append]
    rfl

theorem eventHistory_recordedAll (hashing : Hashing) (config : GovernorConfig)
    (events : List BurstEvent) :
    (recordedAll hashing config events).eventHistory =
      events.drop (events.length - Limits.maxEventHistory) := by
  have hring := history_recordedAll hashing config events
  have hrotate := (CappedRing.rotate_foldl_push (show 0 < Limits.maxEventHistory by decide) events).1
  rw [← hring] at hrotate
  rw [eventHistory_eq]
  exact hrotate

theorem length_history_recordedAll (hashing : Hashing) (config : GovernorConfig)
    (events : List BurstEvent) : (recordedAll hashing config events).history.length =
      min events.length Limits.maxEventHistory := by
  have hring := history_recordedAll hashing config events
  have hlength :=
    (CappedRing.rotate_foldl_push (show 0 < Limits.maxEventHistory by decide) events).2.1
  rw [← hring] at hlength
  exact hlength

/-- Every event past the bound evicts one. -/
theorem eventsEvicted_recordedAll (hashing : Hashing) (config : GovernorConfig)
    (events : List BurstEvent) :
    (recordedAll hashing config events).stats.eventsEvicted =
      (events.length - Limits.maxEventHistory).toUInt64 := by
  induction events using List.reverseRecOn with
  | nil => rfl
  | append_singleton events event ih =>
    have hstep : recordedAll hashing config (events ++ [event]) =
        (recordedAll hashing config events).recordEventLocked event := by
      rw [recordedAll, List.foldl_append]
      rfl
    have hlength := length_history_recordedAll hashing config events
    rw [hstep, List.length_append, List.length_singleton]
    generalize recordedAll hashing config events = g at ih hlength ⊢
    rw [recordEventLocked]
    dsimp only
    split
    · rename_i hroom
      rw [show events.length + 1 - Limits.maxEventHistory =
        events.length - Limits.maxEventHistory by omega]
      exact ih
    · rename_i hfull
      rw [show events.length + 1 - Limits.maxEventHistory =
        events.length - Limits.maxEventHistory + 1 by omega]
      dsimp only
      rw [ih]
      exact (UInt64.ofNat_add _ 1).symm

/-- BOUNDED QUEUES: after any offers since its reset the window holds the last samples it accepted,
    oldest first, as many as it has slots; after any recordings a fresh governor's history is the last
    of the recorded events, in order, and the rest of them are counted as evicted. -/
theorem rings_are_queues :
    (∀ (capacity : ℕ) (offers : List (Sample × UInt64)),
      let w := EvidenceWindow.after capacity offers
      let accepted := (EvidenceWindow.reset capacity).accepted offers
      w.size = min accepted.length w.capacity ∧ w.size ≤ w.capacity ∧
        (List.range w.size).map w.sampleAt = accepted.drop (accepted.length - w.size)) ∧
    ∀ (hashing : Hashing) (config : GovernorConfig) (events : List BurstEvent),
      let g := events.foldl recordEventLocked (new hashing config)
      let kept := min events.length Limits.maxEventHistory
      g.eventHistory = events.drop (events.length - kept) ∧
        g.stats.eventsEvicted = (events.length - kept).toUInt64 := by
  constructor
  · intro capacity offers
    have h := EvidenceWindow.retains_after capacity offers
    dsimp only
    refine ⟨h.size, by rw [h.size]; exact Nat.min_le_right _ _, ?_⟩
    rw [h.size, show ∀ n c : ℕ, n - min n c = n - c by omega, ← h.retained, ← h.size]
    rfl
  · intro hashing config events
    dsimp only
    rw [show ∀ n c : ℕ, n - min n c = n - c by omega]
    exact ⟨eventHistory_recordedAll hashing config events,
      eventsEvicted_recordedAll hashing config events⟩

end Governor

end Mbg
