import MicroburstGovernor.Governor.Recovery

/-! The core of a governor: what its decisions depend on, without buffers, journal and statistics.

    Every operation on the governor is, on the core, one of the few steps defined here. The bounded
    buffers stand in it as the full logs of what they were given. -/

namespace Mbg

/-- How many episodes were opened, closed and fenced. -/
structure EpisodeCounts where
  opened : UInt64 := 0
  closed : UInt64 := 0
  fenced : UInt64 := 0

@[ext] structure Core where
  hashing : Hashing
  config : GovernorConfig
  policies : PolicySet
  context : AuthorityContext
  streams : OrderedMap StreamKey StreamEntry
  resourceGenerations : UnorderedMap ResourceId ResourceGeneration
  openEvents : UnorderedMap EventId BurstEvent
  interventions : UnorderedMap InterventionId InterventionIntent
  decisionSeq : DecisionSeq
  lastTick : Tick
  /-- The emissions about episodes, all of them, in order. -/
  episodes : List Emission
  /-- The intents ever announced as requested, and those ever retired, in order. -/
  requested : List InterventionIntent
  retired : List InterventionIntent
  counts : EpisodeCounts

/-- An emission about an episode: it opened, closed or was fenced. -/
def EmissionKind.ofEpisode : EmissionKind → Bool
  | .episodeOpened | .episodeClosed | .episodeFenced => true
  | _ => false

def requestedIntents (emitted : List Emission) : List InterventionIntent :=
  (emitted.filter fun e => e.kind = .interventionRequested).map Emission.intervention

def Governor.core (g : Governor) : Core where
  hashing := g.hashing
  config := g.config
  policies := g.policies
  context := g.context
  streams := g.streams
  resourceGenerations := g.resourceGenerations
  openEvents := g.openEvents
  interventions := g.interventions
  decisionSeq := g.decisionSeq
  lastTick := g.lastTick
  episodes := g.ledger.emitted.filter fun e => e.kind.ofEpisode
  requested := requestedIntents g.ledger.emitted
  retired := g.ledger.retired
  counts := ⟨g.stats.episodesOpened, g.stats.episodesClosed, g.stats.episodesFenced⟩

namespace Core

/-! ### Steps on the core -/

def emit (c : Core) (e : Emission) : Core :=
  { c with
    episodes := if e.kind.ofEpisode then c.episodes ++ [e] else c.episodes
    requested :=
      if e.kind = .interventionRequested then c.requested ++ [e.intervention] else c.requested }

/-- What is neither about an episode nor a request leaves no trace. -/
theorem emit_of_other {c : Core} {e : Emission} (he : e.kind.ofEpisode = false)
    (hr : e.kind ≠ .interventionRequested) : c.emit e = c := by
  simp [emit, he, hr]

def observedGeneration (c : Core) (resource : ResourceId) : ResourceGeneration :=
  (c.resourceGenerations.find? resource).getD default

/-- The verdict on an intent: its authority, then whether its episode is open. -/
def verdictFor (c : Core) (intent : InterventionIntent) (now : Tick) : AuthorityVerdict :=
  let verdict : AuthorityVerdict := evaluateAuthority intent.authority c.context
    (c.observedGeneration intent.stream.resource) now
  if verdict = AuthorityVerdict.valid ∧ !c.openEvents.contains intent.event then
    AuthorityVerdict.eventClosed
  else verdict

/-- What a sweep does with one intent. -/
inductive Fate where
  | keep | drop | retire (verdict : AuthorityVerdict)
  deriving DecidableEq

/-- An intent as it enters the history. -/
def retiredIntent (intent : InterventionIntent) (verdict : AuthorityVerdict) (now : Tick) :
    InterventionIntent :=
  { intent with
    state := if verdict = AuthorityVerdict.expired then .expired else .revoked
    revocationVerdict := verdict
    stateChangedTick := now }

/-- What a fate leaves for the history. -/
def Fate.leaves (intent : InterventionIntent) (now : Tick) : Fate → Option InterventionIntent
  | .retire verdict => some (retiredIntent intent verdict now)
  | .keep | .drop => none

/-- A sweep over the table: every intent meets its fate. -/
def sweep (c : Core) (fate : InterventionIntent → Fate) (now : Tick) : Core :=
  { c with
    interventions := c.interventions.filter fun _ intent => fate intent = .keep
    retired := c.retired ++
      c.interventions.values.filterMap fun intent => (fate intent).leaves intent now }

/-- Every intent stands under its own identity. -/
def Keyed (c : Core) : Prop := ∀ e ∈ c.interventions.entries, e.2.id = e.1

/-- The fate of an intent when authority is revalidated, for every event or for one. -/
def refreshFate (c : Core) (now : Tick) (onlyEvent : EventId) (intent : InterventionIntent) : Fate :=
  if onlyEvent.valid ∧ intent.event ≠ onlyEvent then .keep
  else if !intent.live then .drop
  else
    let verdict := c.verdictFor intent now
    if verdict = AuthorityVerdict.valid then .keep else .retire verdict

def refresh (c : Core) (now : Tick) (onlyEvent : EventId := default) : Core :=
  c.sweep (c.refreshFate now onlyEvent) now

/-- The fate of an intent when the mandate is withdrawn. -/
def revokeFate (verdict : AuthorityVerdict) (intent : InterventionIntent) : Fate :=
  if !intent.live then .drop else .retire verdict

end Core

namespace Governor

/-- THE RECORD PATH changes the store, the sequence and three statistics: what these keep, it keeps. -/
theorem appendRecordLocked_induct {P : Governor → Prop}
    (hstore : ∀ g store, P g → P (g.withStore store))
    (hseq : ∀ g recordSeq, P g → P { g with recordSeq })
    (hstats : ∀ g written failures compactions, P g → P { g with
      stats := { g.stats with
        durableRecordsWritten := written, durableAppendFailures := failures
        durableCompactions := compactions } })
    {g : Governor} (h : P g) (type : RecordType) (payload : Bytes) (tick : Tick) :
    P (g.appendRecordLocked type payload tick) := by
  have hcount : ∀ g status, P g → P (countAppend g status) := by
    intro g status h
    cases status with
    | error failure => exact hstats g _ _ _ h
    | ok _ => exact hstats g _ _ _ h
  have hcompact : ∀ g, P g → P g.compactLocked.2 := by
    intro g h
    rw [compactLocked]
    split
    · exact h
    · dsimp only
      split
      · exact h
      · exact hstore g _ h
  rw [appendRecordLocked]
  split
  · exact h
  · rename_i store _
    dsimp only
    have h₀ := hseq g ⟨g.recordSeq.raw + 1⟩ h
    generalize { g with recordSeq := ⟨g.recordSeq.raw + 1⟩ } = g₀ at *
    have h₁ : P (g₀.storeAppend store type payload tick).2 := hstore g₀ _ h₀
    generalize g₀.storeAppend store type payload tick = appended at *
    obtain ⟨failure | _, g₁⟩ := appended
    · by_cases hfull : failure.code = .capacityExceeded
      · simp only [hfull, if_true]
        have h₂ := hcompact g₁ h₁
        generalize g₁.compactLocked = compacted at *
        obtain ⟨_ | _, g₂⟩ := compacted
        · exact hcount g₂ (Status.failure .capacityExceeded "") h₂
        · dsimp only at h₂ ⊢
          have h₃ := hstats g₂ g₂.stats.durableRecordsWritten g₂.stats.durableAppendFailures
            (g₂.stats.durableCompactions + 1) h₂
          split
          · exact h₃
          · exact hcount _ _ (hstore _ _ h₃)
      · simp only [hfull, if_false]
        exact hcount g₁ (Status.failure .capacityExceeded "") h₁
    · exact hcount g₁ _ h₁

/-! ### Bookkeeping leaves the core alone -/

@[simp] theorem core_pushEmissionLocked (g : Governor) (e : Emission) :
    (g.pushEmissionLocked e).core = g.core.emit e := by
  have hlog : ∀ g' : Governor, g'.ledger.emitted = g.ledger.emitted ++ [e] →
      g'.core.episodes = (g.core.emit e).episodes ∧
        g'.core.requested = (g.core.emit e).requested := by
    intro g' h
    simp only [core, Core.emit, h, requestedIntents, List.filter_append, List.map_append]
    constructor
    · cases he : e.kind.ofEpisode <;> simp [he]
    · by_cases he : e.kind = .interventionRequested <;> simp [he]
  rw [pushEmissionLocked]
  split
  all_goals
    apply Core.ext
    case episodes => exact (hlog _ rfl).1
    case requested => exact (hlog _ rfl).2
    all_goals rfl

section

variable (g : Governor)

@[simp] theorem core_withStore (store : DurableStore) : (g.withStore store).core = g.core := rfl

@[simp] theorem core_compactLocked : g.compactLocked.2.core = g.core := by
  rw [compactLocked]
  split
  · rfl
  · dsimp only
    split <;> rfl

@[simp] theorem core_storeAppend (store : DurableStore) (type : RecordType) (payload : Bytes)
    (tick : Tick) : (g.storeAppend store type payload tick).2.core = g.core := rfl

@[simp] theorem core_countAppend (status : Status) : (g.countAppend status).core = g.core := by
  cases status <;> rfl

/-- Whatever the store answers, a record leaves the core alone. -/
@[simp] theorem core_appendRecordLocked (type : RecordType) (payload : Bytes) (tick : Tick) :
    (g.appendRecordLocked type payload tick).core = g.core := by
  refine appendRecordLocked_induct (P := fun g' => g'.core = g.core) ?_ ?_ ?_ rfl type payload tick
  · intro g' store h
    exact h
  · intro g' recordSeq h
    exact h
  · intro g' written failures compactions h
    exact h

@[simp] theorem core_journalRecord (type : RecordType) (payload : Bytes) (tick : Tick) :
    (g.journalRecord type payload tick).core = g.core := by
  rw [journalRecord]
  split
  · exact g.core_appendRecordLocked type payload tick
  · rfl

@[simp] theorem core_recordEventLocked (event : BurstEvent) :
    (g.recordEventLocked event).core = g.core := by
  rw [recordEventLocked]
  dsimp only
  split <;> rfl

@[simp] theorem core_pushInterventionHistory (intent : InterventionIntent) :
    (g.pushInterventionHistory intent).core =
      { g.core with retired := g.core.retired ++ [intent] } := rfl

@[simp] theorem core_suppressIntervention : g.suppressIntervention.core = g.core := rfl

end

/-! ### Sweeps -/

theorem core_retireInterventionLocked (g : Governor) (intent : InterventionIntent)
    (verdict : AuthorityVerdict) (now : Tick) :
    (g.retireInterventionLocked intent verdict now).core =
      { g.core with
        interventions :=
          g.core.interventions.update intent.id (Core.retiredIntent intent verdict now)
        retired := g.core.retired ++ [Core.retiredIntent intent verdict now] } := by
  rw [retireInterventionLocked]
  dsimp only
  rw [core_journalRecord, core_pushEmissionLocked, core_pushInterventionHistory]
  by_cases hv : verdict = AuthorityVerdict.expired
  · simp only [hv, if_true, Core.retiredIntent]
    rfl
  · simp only [hv, if_false, Core.retiredIntent]
    rfl

/-- One turn of a sweep that decides by `fate`. -/
def sweepTurn (fate : InterventionIntent → Core.Fate) (now : Tick) (s : Sweep)
    (id : InterventionId) : Sweep :=
  match s.governor.interventions.find? id with
  | none => s
  | some intent =>
    match fate intent with
    | .keep => s
    | .drop => { s with retire := s.retire ++ [id] }
    | .retire verdict =>
      { governor := s.governor.retireInterventionLocked intent verdict now
        retire := s.retire ++ [id]
        revoked := s.revoked + 1 }

theorem revokeIntent_eq (verdict : AuthorityVerdict) (now : Tick) :
    revokeIntent verdict now = sweepTurn (Core.revokeFate verdict) now := by
  funext s id
  rw [revokeIntent, sweepTurn]
  cases s.governor.interventions.find? id with
  | none => rfl
  | some intent =>
    dsimp only [Core.revokeFate]
    cases intent.live <;> rfl

/-- A turn of the revalidation decides by what the sweep leaves alone. -/
theorem refreshIntent_eq {c : Core} {s : Sweep} {interventions : UnorderedMap _ _}
    {retired : List InterventionIntent}
    (h : s.governor.core = { c with interventions, retired }) (now : Tick) (onlyEvent : EventId)
    (id : InterventionId) :
    refreshIntent now onlyEvent s id = sweepTurn (c.refreshFate now onlyEvent) now s id := by
  have hverdict : ∀ intent, s.governor.verdictFor intent now = c.verdictFor intent now := by
    intro intent
    change s.governor.core.verdictFor intent now = _
    rw [h]
    rfl
  rw [refreshIntent, sweepTurn]
  cases s.governor.interventions.find? id with
  | none => rfl
  | some intent =>
    dsimp only [Core.refreshFate]
    rw [hverdict]
    split
    · rfl
    · cases intent.live with
      | false => rfl
      | true =>
        simp only [Bool.not_true, Bool.false_eq_true, if_false]
        by_cases hv : c.verdictFor intent now = AuthorityVerdict.valid
        · simp only [hv, if_true]
        · simp only [hv, if_false]

/-- A sweep in progress: it has changed only what it will erase. -/
def SweptTo (c : Core) (s : Sweep) (retired : List InterventionIntent) : Prop :=
  ∃ f, (∀ k v, k ∉ s.retire → f k v = v) ∧ s.governor.core =
    { c with interventions := c.interventions.mapValues f, retired := c.retired ++ retired }

/-- One turn, on an entry the sweep has not met yet. -/
theorem sweptTo_turn {c : Core} {s : Sweep} {retired : List InterventionIntent}
    {e : InterventionId × InterventionIntent} (hs : SweptTo c s retired)
    (he : e ∈ c.interventions.entries) (hid : e.2.id = e.1) (hnew : e.1 ∉ s.retire)
    (fate : InterventionIntent → Core.Fate) (now : Tick) :
    SweptTo c (sweepTurn fate now s e.1) (retired ++ ((fate e.2).leaves e.2 now).toList) ∧
      (sweepTurn fate now s e.1).retire = s.retire ++ if fate e.2 = .keep then [] else [e.1] := by
  obtain ⟨f, hf, hcore⟩ := hs
  have hfind : s.governor.interventions.find? e.1 = some e.2 := by
    have hmap : s.governor.interventions = c.interventions.mapValues f :=
      congrArg Core.interventions hcore
    rw [hmap, UnorderedMap.find?_eq_some, UnorderedMap.mem_mapValues]
    exact ⟨e.2, he, hf _ _ hnew⟩
  rw [sweepTurn, hfind]
  dsimp only
  cases hfate : fate e.2 with
  | keep => exact ⟨⟨f, hf, by simpa [Core.Fate.leaves] using hcore⟩, by simp⟩
  | drop =>
    refine ⟨⟨f, fun k v hk => hf k v fun h => hk (List.mem_append_left _ h), ?_⟩, by simp⟩
    simpa [Core.Fate.leaves] using hcore
  | retire verdict =>
    refine ⟨⟨fun k v => if k = e.1 then Core.retiredIntent e.2 verdict now else f k v, ?_, ?_⟩,
      by simp⟩
    · intro k v hk
      simp only [List.mem_append, List.mem_singleton, not_or] at hk
      exact (if_neg hk.2).trans (hf k v hk.1)
    · rw [core_retireInterventionLocked, hcore, hid]
      simp only [UnorderedMap.update, UnorderedMap.mapValues_mapValues, Core.Fate.leaves,
        Option.toList_some, List.append_assoc]

theorem sweptTo_foldl {c : Core} (hkeyed : c.Keyed) (fate : InterventionIntent → Core.Fate)
    (now : Tick) : ∀ (es : List (InterventionId × InterventionIntent)) (s : Sweep)
    (retired : List InterventionIntent), (∀ e ∈ es, e ∈ c.interventions.entries) →
    (es.map Prod.fst).Nodup → (∀ e ∈ es, e.1 ∉ s.retire) → SweptTo c s retired →
    let s' := (es.map Prod.fst).foldl (sweepTurn fate now) s
    SweptTo c s' (retired ++ es.filterMap fun e => (fate e.2).leaves e.2 now) ∧
      s'.retire = s.retire ++ (es.filter fun e => fate e.2 ≠ .keep).map Prod.fst
  | [], s, retired, _, _, _, hs => by simpa using hs
  | e :: es, s, retired, hmem, hnodup, hnew, hs => by
    have he := hmem e (by simp)
    obtain ⟨hturn, hretire⟩ :=
      sweptTo_turn hs he (hkeyed e he) (hnew e (by simp)) fate now
    rw [List.map_cons, List.nodup_cons] at hnodup
    have hnew' : ∀ e' ∈ es, e'.1 ∉ (sweepTurn fate now s e.1).retire := by
      intro e' he'
      rw [hretire, List.mem_append, not_or]
      refine ⟨hnew e' (by simp [he']), ?_⟩
      have hne : e'.1 ≠ e.1 := fun h => hnodup.1 (h ▸ List.mem_map_of_mem he')
      split <;> simp [hne]
    obtain ⟨hfold, hfoldRetire⟩ := sweptTo_foldl hkeyed fate now es _ _
      (fun e' he' => hmem e' (by simp [he'])) hnodup.2 hnew' hturn
    refine ⟨?_, ?_⟩
    · rw [List.map_cons, List.foldl_cons]
      convert hfold using 1
      cases h : (fate e.2).leaves e.2 now <;> simp [h]
    · rw [List.map_cons, List.foldl_cons, hfoldRetire, hretire]
      by_cases h : fate e.2 = .keep <;> simp [h]

/-- A whole sweep is the sweep of the core. -/
theorem core_sweep {g : Governor} (hkeyed : g.core.Keyed) (fate : InterventionIntent → Core.Fate)
    (now : Tick) :
    (g.interventions.keys.foldl (sweepTurn fate now) { governor := g }).finish.core =
      g.core.sweep fate now := by
  have hstart : SweptTo g.core { governor := g } [] :=
    ⟨fun _ v => v, fun _ _ _ => rfl, by simp [core]⟩
  obtain ⟨⟨f, hf, hcore⟩, hretire⟩ := sweptTo_foldl hkeyed fate now g.interventions.entries
    { governor := g } [] (fun e he => he) g.interventions.nodup (by simp) hstart
  rw [UnorderedMap.keys]
  generalize (g.interventions.entries.map Prod.fst).foldl (sweepTurn fate now) { governor := g } = s
    at *
  have hkept : ∀ e ∈ g.interventions.entries,
      decide (e.1 ∉ s.retire) = decide (fate e.2 = .keep) := by
    intro e he
    rw [decide_eq_decide, hretire, List.nil_append, List.mem_map]
    constructor
    · intro hnot
      by_contra hfate
      exact hnot ⟨e, List.mem_filter.mpr ⟨he, by simpa using hfate⟩, rfl⟩
    · rintro hfate ⟨e', he', hk⟩
      obtain ⟨hmem, hne⟩ := List.mem_filter.mp he'
      rw [UnorderedMap.eq_of_mem hmem he hk] at hne
      simp [hfate] at hne
  have herase : s.retire.foldl UnorderedMap.erase s.governor.core.interventions =
      g.interventions.filter fun _ intent => fate intent = .keep := by
    rw [hcore]
    exact (UnorderedMap.foldl_erase_mapValues g.interventions hf).trans
      (UnorderedMap.filter_congr hkept)
  change { s.governor.core with
    interventions := s.retire.foldl UnorderedMap.erase s.governor.core.interventions } = _
  rw [herase, hcore, Core.sweep, List.nil_append, UnorderedMap.values, List.filterMap_map]
  rfl

/-- A turn leaves everything but the intents alone. -/
theorem frame_sweepTurn {c : Core} {s : Sweep}
    (h : ∃ interventions retired, s.governor.core = { c with interventions, retired })
    (fate : InterventionIntent → Core.Fate) (now : Tick) (id : InterventionId) :
    ∃ interventions retired,
      (sweepTurn fate now s id).governor.core = { c with interventions, retired } := by
  obtain ⟨interventions, retired, hcore⟩ := h
  rw [sweepTurn]
  split
  · exact ⟨_, _, hcore⟩
  · split
    · exact ⟨_, _, hcore⟩
    · exact ⟨_, _, hcore⟩
    · rw [core_retireInterventionLocked, hcore]
      exact ⟨_, _, rfl⟩

theorem foldl_refreshIntent {c : Core} (now : Tick) (onlyEvent : EventId) :
    ∀ (ids : List InterventionId) (s : Sweep),
      (∃ interventions retired, s.governor.core = { c with interventions, retired }) →
      ids.foldl (refreshIntent now onlyEvent) s =
        ids.foldl (sweepTurn (c.refreshFate now onlyEvent) now) s
  | [], _, _ => rfl
  | id :: ids, s, h => by
    obtain ⟨_, _, hcore⟩ := h
    rw [List.foldl_cons, List.foldl_cons, refreshIntent_eq hcore]
    exact foldl_refreshIntent now onlyEvent ids _ (frame_sweepTurn ⟨_, _, hcore⟩ _ now id)

@[simp] theorem core_refreshAuthorityLocked {g : Governor} (hkeyed : g.core.Keyed) (now : Tick)
    (onlyEvent : EventId) :
    (g.refreshAuthorityLocked now onlyEvent).1.core = g.core.refresh now onlyEvent := by
  rw [refreshAuthorityLocked]
  dsimp only
  rw [foldl_refreshIntent (c := g.core) now onlyEvent _ _ ⟨g.core.interventions, g.core.retired, rfl⟩,
    core_sweep hkeyed]
  rfl

@[simp] theorem core_revokeAllLiveLocked {g : Governor} (hkeyed : g.core.Keyed)
    (verdict : AuthorityVerdict) (now : Tick) :
    (g.revokeAllLiveLocked verdict now).core =
      g.core.sweep (Core.revokeFate verdict) now := by
  rw [revokeAllLiveLocked, revokeIntent_eq, core_sweep hkeyed]

end Governor

end Mbg
