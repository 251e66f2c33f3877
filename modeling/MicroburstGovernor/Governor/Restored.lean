import MicroburstGovernor.Governor.CleanRecovery
import MicroburstGovernor.Lib.Capped

/-! What a restored governor holds: recovered history and revoked intents, and nothing live.

    Recovery folds the records into a table of intents with room for a bounded number of them, and
    pushes the recovered events into a bounded ring. What the files say is stated here without
    either, and the two bounds are where they differ. -/

namespace Mbg

open DurableStore

/-! ### What the files say -/

/-- The payload of an intact snapshot and the sequence it covers. -/
def intactSnapshot (files : Files) : Option (Bytes × UInt64) :=
  match files.snapshot.map scanSnapshot with
  | some (.intact payload covered) => some (payload, covered)
  | _ => none

def snapshotState (files : Files) : Option PersistedState :=
  match intactSnapshot files with
  | some (payload, _) => if payload.isEmpty then none else (decodeState payload).toOption
  | none => none

/-- The verified records of the journal that the snapshot does not cover. -/
def appliedRecords (files : Files) : List JournaledRecord :=
  Governor.uncovered (((intactSnapshot files).map Prod.snd).getD 0)
    ((journalFormat.split (files.journal.getD [])).map parseRecord)

/-- The state of an intent that a record carries. -/
def recordIntent (record : JournaledRecord) : Option InterventionIntent :=
  match record.type with
  | .interventionRequested | .interventionStateChanged =>
    (decodeIntent (.of record.payload)).1.toOption
  | _ => none

/-- Every durable state of an intent, in the order recovery applies them. -/
def appliedIntents (files : Files) : List InterventionIntent :=
  ((snapshotState files).elim [] PersistedState.interventions) ++
    (appliedRecords files).filterMap recordIntent

/-- The event a record commits to history. -/
def committedEvent (record : JournaledRecord) : Option BurstEvent :=
  match record.type with
  | .episodeClosed | .episodeFenced => (decodeEvent (.of record.payload)).1.toOption
  | _ => none

def committedEvents (files : Files) : List BurstEvent :=
  ((snapshotState files).elim [] fun state => state.events.filter fun e => !e.isOpen) ++
    (appliedRecords files).filterMap committedEvent

/-- What a record says of an episode in flight: it opened, or it is one no more. -/
def recordFlight (record : JournaledRecord) : Option (EventId × Bool) :=
  match record.type with
  | .episodeOpened => (decodeEvent (.of record.payload)).1.toOption.map fun e => (e.id, true)
  | .episodeClosed | .episodeFenced =>
    (decodeEvent (.of record.payload)).1.toOption.map fun e => (e.id, false)
  | _ => none

def flights (files : Files) : List (EventId × Bool) :=
  ((snapshotState files).elim [] fun state =>
    (state.events.filter BurstEvent.isOpen).map fun e => (e.id, true)) ++
      (appliedRecords files).filterMap recordFlight

/-- The episodes left in flight: those whose last record opened them. -/
def unfinishedIds (files : Files) : List EventId :=
  CappedTable.keysWhere Prod.fst Prod.snd (flights files)

/-- The intents whose last durable state is live, in the order of these states. -/
def staleIds (files : Files) : List InterventionId :=
  CappedTable.keysWhere InterventionIntent.id InterventionIntent.live (appliedIntents files)

/-! ### What recovery accumulates of it -/

namespace RecoveryAccumulator

/-- An accumulator that was given these intents, committed events and flights. -/
structure Holds (acc : RecoveryAccumulator) (intents : List InterventionIntent)
    (committed : List BurstEvent) (flights : List (EventId × Bool)) : Prop where
  interventions : acc.interventions =
    intents.foldl (CappedTable.write InterventionIntent.id Limits.maxInterventions) []
  index : ∀ id i, acc.interventionIndex.find? id = some i ↔
    (acc.interventions.map InterventionIntent.id)[i]? = some id
  committed : acc.closedEvents = committed
  unfinished : ∀ id, id ∈ acc.openEvents.keys ↔
    CappedTable.last Prod.fst flights id = some (id, true)

theorem holds_empty : Holds {} [] [] [] :=
  ⟨rfl, fun id i => by simp, rfl, fun id => by simp [UnorderedMap.keys, CappedTable.last]⟩

variable {acc : RecoveryAccumulator} {intents : List InterventionIntent}
  {committed : List BurstEvent} {flights : List (EventId × Bool)}

theorem Holds.nodup (h : Holds acc intents committed flights) :
    (acc.interventions.map InterventionIntent.id).Nodup := by
  rw [h.interventions, CappedTable.foldl_write, CappedTable.map_key_filterMap_last fun k hk =>
    CappedTable.mem_firstKeys.mp (List.mem_of_mem_take hk)]
  exact (CappedTable.nodup_firstKeys intents).sublist (List.take_sublist _ _)

/-- Overwriting the entry of an identity is overwriting every entry of it. -/
theorem set_eq_map {table : List InterventionIntent} {intent : InterventionIntent} {i : ℕ}
    (hnodup : (table.map InterventionIntent.id).Nodup)
    (hi : (table.map InterventionIntent.id)[i]? = some intent.id) :
    table.set i intent = table.map fun w => if w.id = intent.id then intent else w := by
  refine List.ext_getElem? fun j => ?_
  rw [List.getElem?_map, List.getElem?_set]
  rw [List.getElem?_map] at hi
  have hlt : i < table.length := by
    by_contra hge
    rw [List.getElem?_eq_none (by omega)] at hi
    cases hi
  by_cases hij : i = j
  · subst hij
    rw [if_pos rfl, if_pos hlt]
    rw [List.getElem?_eq_getElem hlt, Option.map_some, Option.some.injEq] at hi
    rw [List.getElem?_eq_getElem hlt, Option.map_some, if_pos hi]
  · rw [if_neg hij]
    cases hj : table[j]? with
    | none => rfl
    | some w =>
      have hne : w.id ≠ intent.id := by
        intro heq
        have hlt' : i < (table.map InterventionIntent.id).length := by simpa using hlt
        refine hij ((List.getElem?_inj hlt' hnodup).mp ?_)
        rw [List.getElem?_map, hi, List.getElem?_map, hj, Option.map_some, heq]
      rw [Option.map_some, if_neg hne]

theorem holds_addIntent (h : Holds acc intents committed flights) (intent : InterventionIntent) :
    Holds (acc.addIntent intent) (intents ++ [intent]) committed flights := by
  obtain ⟨htable, hindex, hcommitted, hunfinished⟩ := id h
  have hnodup := h.nodup
  rw [addIntent]
  cases hfind : acc.interventionIndex.find? intent.id with
  | none =>
    have hnew : intent.id ∉ acc.interventions.map InterventionIntent.id := by
      intro hmem
      obtain ⟨i, hi⟩ := List.mem_iff_getElem?.mp hmem
      rw [(hindex _ _).mpr hi] at hfind
      cases hfind
    by_cases hfull : acc.interventions.length ≥ Limits.maxInterventions
    · simp only [hfull, if_true]
      refine ⟨?_, hindex, hcommitted, hunfinished⟩
      rw [List.foldl_append, ← htable, List.foldl_cons, List.foldl_nil, CappedTable.write,
        if_neg hnew, if_pos hfull]
    · simp only [hfull, if_false]
      refine ⟨?_, fun id i => ?_, hcommitted, hunfinished⟩
      · rw [List.foldl_append, ← htable, List.foldl_cons, List.foldl_nil, CappedTable.write,
          if_neg hnew, if_neg hfull]
      · have hnone : intent.id ∉ acc.interventionIndex.keys := UnorderedMap.find?_eq_none.mp hfind
        have hlen : (acc.interventions.map InterventionIntent.id).length =
            acc.interventions.length := List.length_map _
        rw [UnorderedMap.find?_emplace _ _ hnone, List.map_append, List.map_singleton]
        by_cases hid : id = intent.id
        · subst hid
          rw [if_pos rfl, Option.some.injEq]
          rcases Nat.lt_trichotomy i acc.interventions.length with hlt | rfl | hgt
          · rw [List.getElem?_append_left (by omega), ← hindex, hfind]
            constructor
            · intro heq
              omega
            · intro heq
              cases heq
          · rw [List.getElem?_append_right (by omega), hlen, Nat.sub_self]
            simp
          · rw [List.getElem?_eq_none (by rw [List.length_append, List.length_singleton]; omega)]
            constructor
            · intro heq
              omega
            · intro heq
              cases heq
        · rw [if_neg hid, hindex]
          rcases Nat.lt_trichotomy i acc.interventions.length with hlt | rfl | hgt
          · rw [List.getElem?_append_left (by omega)]
          · rw [List.getElem?_append_right (by omega), hlen, Nat.sub_self,
              List.getElem?_eq_none (by omega)]
            simp [eq_comm, hid]
          · rw [List.getElem?_eq_none (by omega),
              List.getElem?_eq_none (by rw [List.length_append, List.length_singleton]; omega)]
  | some i =>
    have hi := (hindex _ _).mp hfind
    have hset := set_eq_map hnodup hi
    refine ⟨?_, fun id j => ?_, hcommitted, hunfinished⟩
    · rw [List.foldl_append, ← htable, List.foldl_cons, List.foldl_nil, CappedTable.write,
        if_pos (List.mem_of_getElem? hi), ← hset]
    · have hids : (acc.interventions.set i intent).map InterventionIntent.id =
          acc.interventions.map InterventionIntent.id := by
        obtain ⟨hlt, hid⟩ := List.getElem?_eq_some_iff.mp hi
        rw [List.map_set, ← hid, List.set_getElem_self]
      dsimp only
      rw [hids]
      exact hindex id j

theorem holds_addEvent (hashing : Hashing) (h : Holds acc intents committed flights)
    (event : BurstEvent) : Holds (acc.addEvent hashing event) intents
      (committed ++ [event].filter fun e => !e.isOpen)
      (flights ++ ([event].filter BurstEvent.isOpen).map fun e => (e.id, true)) := by
  obtain ⟨htable, hindex, hcommitted, hunfinished⟩ := h
  rw [addEvent]
  cases hopen : event.isOpen with
  | true =>
    have h₁ : [event].filter (fun e => !e.isOpen) = [] := by simp [hopen]
    have h₂ : [event].filter BurstEvent.isOpen = [event] := by simp [hopen]
    rw [if_pos rfl, h₁, h₂, List.append_nil, List.map_singleton]
    refine ⟨htable, hindex, hcommitted, fun id => ?_⟩
    rw [UnorderedMap.mem_keys_assign, hunfinished, CappedTable.last_concat]
    by_cases hid : event.id = id
    · simp [hid]
    · simp [hid, Ne.symm hid]
  | false =>
    have h₁ : [event].filter (fun e => !e.isOpen) = [event] := by simp [hopen]
    have h₂ : [event].filter BurstEvent.isOpen = [] := by simp [hopen]
    rw [if_neg Bool.false_ne_true, h₁, h₂, List.map_nil, List.append_nil]
    exact ⟨htable, hindex, by rw [hcommitted], hunfinished⟩

theorem holds_accumulateState (hashing : Hashing) (state : PersistedState) :
    Holds (accumulateStateLocked hashing {} state) state.interventions
      (state.events.filter fun e => !e.isOpen)
      ((state.events.filter BurstEvent.isOpen).map fun e => (e.id, true)) := by
  have hevents : ∀ (acc : RecoveryAccumulator) (events : List BurstEvent) committed flights,
      Holds acc [] committed flights → Holds (events.foldl (addEvent hashing) acc) []
        (committed ++ events.filter fun e => !e.isOpen)
        (flights ++ (events.filter BurstEvent.isOpen).map fun e => (e.id, true)) := by
    intro acc events
    induction events generalizing acc with
    | nil =>
      intro committed flights h
      simpa using h
    | cons event events ih =>
      intro committed flights h
      have hnext := ih _ _ _ (holds_addEvent hashing h event)
      rw [List.append_assoc, List.append_assoc, ← List.filter_append, ← List.map_append,
        ← List.filter_append] at hnext
      exact hnext
  have hintents : ∀ (acc : RecoveryAccumulator) (added intents : List InterventionIntent)
      committed flights, Holds acc intents committed flights →
        Holds (added.foldl addIntent acc) (intents ++ added) committed flights := by
    intro acc added
    induction added generalizing acc with
    | nil =>
      intro intents committed flights h
      simpa using h
    | cons intent added ih =>
      intro intents committed flights h
      have hnext := ih _ _ _ _ (holds_addIntent h intent)
      rw [List.append_assoc] at hnext
      exact hnext
  rw [accumulateStateLocked]
  have hpolicies : Holds { fallback := some state.policies.fallback, overrides :=
      state.policies.overrides, generation := state.policies.generation } [] [] [] :=
    ⟨rfl, holds_empty.index, rfl, holds_empty.unfinished⟩
  have h := hintents _ state.interventions _ _ _ (hevents _ state.events _ _ hpolicies)
  exact ⟨h.interventions, h.index, h.committed, h.unfinished⟩

/-- A record that commits an event ends its flight. -/
theorem holds_commit (h : Holds acc intents committed flights) (decoded : Except Failure BurstEvent) :
    Holds (match decoded with
        | .ok event =>
          { acc with
            openEvents := acc.openEvents.erase event.id
            closedEvents := acc.closedEvents ++ [event] }
        | .error _ => acc)
      (intents ++ (none : Option InterventionIntent).toList) (committed ++ decoded.toOption.toList)
      (flights ++ (decoded.toOption.map fun e => (e.id, false)).toList) := by
  rw [Option.toList_none, List.append_nil]
  cases decoded with
  | error e => simpa [Except.toOption] using h
  | ok event =>
    refine ⟨h.interventions, h.index, ?_, fun id => ?_⟩
    · dsimp only [Except.toOption, Option.toList_some]
      rw [h.committed]
    · simp only [Except.toOption, Option.map_some, Option.toList_some]
      rw [UnorderedMap.mem_keys_erase, h.unfinished, CappedTable.last_concat]
      by_cases hid : event.id = id
      · simp [hid]
      · simp [hid, Ne.symm hid]

theorem holds_intent (h : Holds acc intents committed flights)
    (decoded : Except Failure InterventionIntent) :
    Holds (match decoded with
        | .ok intent => acc.addIntent intent
        | .error _ => acc)
      (intents ++ decoded.toOption.toList) (committed ++ (none : Option BurstEvent).toList)
      (flights ++ (none : Option (EventId × Bool)).toList) := by
  rw [Option.toList_none, Option.toList_none, List.append_nil, List.append_nil]
  cases decoded with
  | error e => simpa [Except.toOption] using h
  | ok intent => exact holds_addIntent h intent

theorem toList_append_filterMap {α β : Type} (f : α → Option β) (a : α) (as : List α) :
    (f a).toList ++ as.filterMap f = (a :: as).filterMap f := by
  cases hf : f a with
  | none => rw [List.filterMap_cons_none hf, Option.toList_none, List.nil_append]
  | some b => rw [List.filterMap_cons_some hf, Option.toList_some, List.singleton_append]

/-- One record adds what it carries. -/
theorem holds_accumulateRecord (hashing : Hashing) (h : Holds acc intents committed flights)
    (record : JournaledRecord) : Holds (accumulateRecordLocked hashing acc record)
      (intents ++ (recordIntent record).toList) (committed ++ (committedEvent record).toList)
      (flights ++ (recordFlight record).toList) := by
  rw [accumulateRecordLocked, recordIntent, committedEvent, recordFlight]
  cases record.type with
  | policyInstalled =>
    simp only [Option.toList_none, List.append_nil]
    split
    · exact ⟨h.interventions, h.index, h.committed, h.unfinished⟩
    · exact h
  | episodeOpened =>
    simp only [Option.toList_none, List.append_nil]
    cases (decodeEvent (.of record.payload)).1 with
    | error e => simpa [Except.toOption] using h
    | ok event =>
      refine ⟨h.interventions, h.index, h.committed, fun id => ?_⟩
      simp only [Except.toOption, Option.map_some, Option.toList_some]
      rw [UnorderedMap.mem_keys_assign, h.unfinished, CappedTable.last_concat]
      by_cases hid : event.id = id
      · simp [hid]
      · simp [hid, Ne.symm hid]
  | episodeClosed =>
    dsimp only
    generalize (decodeEvent (.of record.payload)).1 = decoded
    exact holds_commit h decoded
  | episodeFenced =>
    dsimp only
    generalize (decodeEvent (.of record.payload)).1 = decoded
    exact holds_commit h decoded
  | interventionRequested =>
    dsimp only
    generalize (decodeIntent (.of record.payload)).1 = decoded
    exact holds_intent h decoded
  | interventionStateChanged =>
    dsimp only
    generalize (decodeIntent (.of record.payload)).1 = decoded
    exact holds_intent h decoded
  | authorityBound =>
    simp only [Option.toList_none, List.append_nil]
    exact ⟨h.interventions, h.index, h.committed, h.unfinished⟩
  | checkpoint => simpa using h
  | unknown => simpa using h
  | episodeUpdated => simpa using h

theorem holds_foldl (hashing : Hashing) (h : Holds acc intents committed flights)
    (records : List JournaledRecord) :
    Holds (records.foldl (accumulateRecordLocked hashing) acc)
      (intents ++ records.filterMap recordIntent)
      (committed ++ records.filterMap committedEvent)
      (flights ++ records.filterMap recordFlight) := by
  induction records generalizing acc intents committed flights with
  | nil => simpa using h
  | cons record records ih =>
    have hnext := ih (holds_accumulateRecord hashing h record)
    rw [List.append_assoc, List.append_assoc, List.append_assoc, toList_append_filterMap,
      toList_append_filterMap, toList_append_filterMap] at hnext
    exact hnext

/-- What recovery accumulates of readable files. -/
def ofFiles (hashing : Hashing) (files : Files) : RecoveryAccumulator :=
  (appliedRecords files).foldl (accumulateRecordLocked hashing)
    ((snapshotState files).elim {} (accumulateStateLocked hashing {}))

theorem holds_ofFiles (hashing : Hashing) (files : Files) : Holds (ofFiles hashing files)
    (appliedIntents files) (committedEvents files) (Mbg.flights files) := by
  refine holds_foldl hashing ?_ _
  cases snapshotState files with
  | none => exact holds_empty
  | some state => exact holds_accumulateState hashing state

end RecoveryAccumulator

end Mbg
