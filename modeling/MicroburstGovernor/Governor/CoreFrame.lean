import MicroburstGovernor.Detect.Identity
import MicroburstGovernor.Governor.CoreStep

/-! What each step on the core leaves alone, and the loops over its streams. -/

namespace Mbg

namespace Core

/-! ### Views -/

/-- What processing a decision leaves alone. -/
structure Base where
  hashing : Hashing
  config : GovernorConfig
  policies : PolicySet
  context : AuthorityContext
  streams : OrderedMap StreamKey StreamEntry
  resourceGenerations : UnorderedMap ResourceId ResourceGeneration
  lastTick : Tick

def base (c : Core) : Base :=
  ⟨c.hashing, c.config, c.policies, c.context, c.streams, c.resourceGenerations, c.lastTick⟩

/-- What the governor says about episodes. -/
structure EpisodeView where
  openEvents : UnorderedMap EventId BurstEvent
  episodes : List Emission
  counts : EpisodeCounts

def episodeView (c : Core) : EpisodeView := ⟨c.openEvents, c.episodes, c.counts⟩

/-- The intents in force, and the logs of those requested and retired. -/
structure IntentView where
  interventions : UnorderedMap InterventionId InterventionIntent
  requested : List InterventionIntent
  retired : List InterventionIntent

def intentView (c : Core) : IntentView := ⟨c.interventions, c.requested, c.retired⟩

section

variable (c : Core)

@[simp] theorem base_sweep (fate : InterventionIntent → Fate) (now : Tick) :
    (c.sweep fate now).base = c.base := rfl

@[simp] theorem episodeView_sweep (fate : InterventionIntent → Fate) (now : Tick) :
    (c.sweep fate now).episodeView = c.episodeView := rfl

@[simp] theorem base_refresh (now : Tick) (onlyEvent : EventId) :
    (c.refresh now onlyEvent).base = c.base := rfl

@[simp] theorem episodeView_refresh (now : Tick) (onlyEvent : EventId) :
    (c.refresh now onlyEvent).episodeView = c.episodeView := rfl

@[simp] theorem base_maybeRequest (decision : DetectionDecision) (now : Tick) :
    (c.maybeRequest decision now).base = c.base :=
  maybeRequest_induct (P := fun c' => c'.base = c.base) (fun _ _ _ _ h _ => h)
    (fun _ _ _ h => h) rfl

@[simp] theorem episodeView_maybeRequest (decision : DetectionDecision) (now : Tick) :
    (c.maybeRequest decision now).episodeView = c.episodeView :=
  maybeRequest_induct (P := fun c' => c'.episodeView = c.episodeView)
    (fun _ _ _ _ h _ => h) (fun _ _ _ h => h) rfl

@[simp] theorem base_closeEpisode (event : BurstEvent) (fenced : Bool) (now : Tick) :
    (c.closeEpisode event fenced now).base = c.base := rfl

@[simp] theorem base_mirrorEpisode (event : BurstEvent) (decision : DetectionDecision)
    (now : Tick) : (c.mirrorEpisode event decision now).base = c.base := by
  unfold mirrorEpisode
  extract_lets c₁
  have h₁ : c₁.base = c.base := by
    dsimp only [c₁]
    split
    · rfl
    · split <;> rfl
  split <;> exact h₁

@[simp] theorem base_processDecision (d : Detector) (decision : DetectionDecision) (now : Tick) :
    (c.processDecision d decision now).base = c.base := by
  unfold processDecision
  extract_lets c₁ c₂
  have h₂ : c₂.base = c.base := c₁.base_mirrorEpisode _ decision now
  split
  · rw [base_maybeRequest, h₂]
  · exact h₂

/-- The entry of a stream after a decision at a tick was offered to the governor. -/
def mirroredEntry (entry : StreamEntry) (tick : Tick) : StreamEntry :=
  if Governor.StreamEntry.unprocessed entry tick then
    { entry with hasProcessed := true, lastProcessed := tick }
  else entry

@[simp] theorem detector_mirroredEntry (entry : StreamEntry) (tick : Tick) :
    (mirroredEntry entry tick).detector = entry.detector := by
  rw [mirroredEntry]
  split <;> rfl

theorem base_mirrorDecision (key : StreamKey) (entry : StreamEntry) (decision : DetectionDecision)
    (now : Tick) : (c.mirrorDecision key entry decision now).base =
      (c.setEntry key (mirroredEntry entry decision.tick)).base := by
  rw [mirrorDecision, mirroredEntry]
  split
  · exact base_processDecision _ _ decision now
  · rfl

theorem streams_mirrorDecision (key : StreamKey) (entry : StreamEntry)
    (decision : DetectionDecision) (now : Tick) :
    (c.mirrorDecision key entry decision now).streams =
      c.streams.insert key (mirroredEntry entry decision.tick) :=
  congrArg Base.streams (c.base_mirrorDecision key entry decision now)

end

/-! ### Offered samples -/

/-- A known stream is found, an unknown one created. -/
theorem findOrCreate_some {c c₁ : Core} {key : StreamKey} {entry : StreamEntry}
    (h : c.findOrCreate key = some (entry, c₁)) :
    (c.streams.find? key = some entry ∧ c₁ = c) ∨
      (c.streams.find? key = none ∧ entry = c.freshEntry key ∧
        c₁ = c.setEntry key (c.freshEntry key)) := by
  rw [findOrCreate] at h
  split at h
  · rename_i entry' hfind
    cases h
    exact Or.inl ⟨hfind, rfl⟩
  · rename_i hfind
    split at h
    · cases h
    · cases h
      exact Or.inr ⟨hfind, rfl, rfl⟩

/-- What an accepted sample does once its detector answered. -/
def accept (c : Core) (sample : Sample) (entry : StreamEntry)
    (result : Detector × DetectionDecision) : Core :=
  let entry := { entry with detector := result.1 }
  let c := (c.observeGeneration sample).mirrorDecision sample.stream entry result.2 result.2.tick
  let c :=
    if Governor.StreamEntry.unprocessed entry result.2.tick then c.raiseLastTick result.2.tick
    else c
  c.refresh result.2.tick

/-- A sample is refused, refused by its detector, or accepted. -/
theorem ingest_cases {P : Core → Prop} {c : Core} {sample : Sample} (hrefused : P c)
    (hunmeasured : ∀ entry c₁, c.findOrCreate sample.stream = some (entry, c₁) →
      P (c₁.observeGeneration sample))
    (haccepted : ∀ entry c₁ result, validateSample sample = .ok () →
      c.findOrCreate sample.stream = some (entry, c₁) →
      entry.detector.ingest sample = .ok result → P (c₁.accept sample entry result)) :
    P (c.ingest sample) := by
  rw [ingest]
  split
  · exact hrefused
  · rename_i hvalid
    split
    · exact hrefused
    · rename_i entry c₁ hfound
      dsimp only
      split
      · exact hunmeasured entry c₁ hfound
      · rename_i detector decision hingest
        exact haccepted entry c₁ (detector, decision) hvalid hfound hingest

theorem base_observeGeneration (c : Core) (sample : Sample) :
    ∃ resourceGenerations, c.observeGeneration sample = { c with resourceGenerations } := by
  rw [observeGeneration]
  split
  · exact ⟨_, rfl⟩
  · exact ⟨_, rfl⟩

theorem find?_accept (c : Core) (sample : Sample) (entry : StreamEntry)
    (result : Detector × DetectionDecision) :
    (c.accept sample entry result).streams.find? sample.stream =
      some (mirroredEntry { entry with detector := result.1 } result.2.tick) := by
  have hstreams := (c.observeGeneration sample).streams_mirrorDecision sample.stream
    { entry with detector := result.1 } result.2 result.2.tick
  have hlast : ∀ c : Core, (c.raiseLastTick result.2.tick).streams = c.streams := by
    intro c
    rw [Core.raiseLastTick]
    split <;> rfl
  unfold accept
  extract_lets entry' c₁ c₂
  have h₂ : c₂.streams = c₁.streams := by
    dsimp only [c₂]
    split
    · exact hlast c₁
    · rfl
  change c₂.streams.find? sample.stream = _
  rw [h₂, hstreams, OrderedMap.find?_insert_self]

/-- What each turn of an ingest keeps, the ingest keeps: a new stream's entry, the observed
    generation, the mirror of its detector's answer, the last tick and the revalidation. -/
theorem ingest_induct {P : Core → Prop} {c : Core} {sample : Sample} (h : P c)
    (hcreate : c.streams.find? sample.stream = none →
      P (c.setEntry sample.stream (c.freshEntry sample.stream)))
    (hobserve : ∀ c₁, P c₁ → P (c₁.observeGeneration sample))
    (hvisit : ∀ c₁ entry d' r, validateSample sample = .ok () → P c₁ →
      c₁.streams.find? sample.stream = some entry →
      (c.streams.find? sample.stream = some entry ∨
        c.streams.find? sample.stream = none ∧ entry = c.freshEntry sample.stream) →
      Detector.Answer (entry.detector.changesGeneration sample && entry.detector.hasOpenEpisode)
        entry.detector sample.tick d' r →
      (c.ingest sample).streams.find? sample.stream =
        some (mirroredEntry { entry with detector := d' } r.tick) →
      P (c₁.mirrorDecision sample.stream { entry with detector := d' } r r.tick))
    (hraise : ∀ c₁ tick, P c₁ → P (c₁.raiseLastTick tick))
    (hrefresh : ∀ c₁ tick, (tick = sample.tick ∨ ∃ entry,
      c.streams.find? sample.stream = some entry ∧ tick = entry.detector.lastDecision.tick) →
      P c₁ → P (c₁.refresh tick)) : P (c.ingest sample) := by
  have hfound : ∀ entry c₁, c.findOrCreate sample.stream = some (entry, c₁) →
      P c₁ ∧ c₁.streams.find? sample.stream = some entry ∧
        (c.streams.find? sample.stream = some entry ∨
          c.streams.find? sample.stream = none ∧ entry = c.freshEntry sample.stream) := by
    intro entry c₁ hf
    rcases findOrCreate_some hf with ⟨hfind, rfl⟩ | ⟨hnone, rfl, rfl⟩
    · exact ⟨h, hfind, Or.inl hfind⟩
    · exact ⟨hcreate hnone, by rw [setEntry, OrderedMap.find?_insert_self], Or.inr ⟨hnone, rfl⟩⟩
  refine ingest_cases (P := fun c' => c' = c.ingest sample → P c') (fun _ => h)
    (fun entry c₁ hf _ => hobserve c₁ (hfound entry c₁ hf).1) ?_ rfl
  intro entry c₁ result hvalid hf hingest heq
  obtain ⟨h₁, hfind₁, hold⟩ := hfound entry c₁ hf
  have hfind : (c₁.observeGeneration sample).streams.find? sample.stream = some entry := by
    obtain ⟨resourceGenerations, hobs⟩ := c₁.base_observeGeneration sample
    rw [hobs]
    exact hfind₁
  have ha := Detector.answer_ingest hingest
  have hafter : (c.ingest sample).streams.find? sample.stream =
      some (mirroredEntry { entry with detector := result.1 } result.2.tick) := by
    rw [← heq]
    exact find?_accept c₁ sample entry result
  have h₂ := hvisit _ entry result.1 result.2 hvalid (hobserve c₁ h₁) hfind hold ha hafter
  refine hrefresh _ result.2.tick ?_ ?_
  · cases ha with
    | fenced _ _ _ _ _ _ _ _ tick => exact Or.inl tick
    | evaluated _ _ _ _ _ _ tick => exact Or.inl tick
    | cached _ stale repeated =>
      refine Or.inr ⟨entry, ?_, congrArg DetectionDecision.tick repeated⟩
      rcases hold with hold | ⟨-, rfl⟩
      · exact hold
      · -- a detector that never evaluated has nothing to repeat
        cases stale
  · split
    · exact hraise _ _ h₂
    · exact h₂

/-! ### Loops over the streams -/

/-- A fold that, for each key, leaves the entries of the other keys alone. -/
theorem foldl_streams_induct {P : Core → Prop} {f : Core → StreamKey → Core}
    {G : StreamKey → StreamEntry → Prop}
    (hkept : ∀ c key key', key' ≠ key → (f c key).streams.find? key' = c.streams.find? key')
    (hturn : ∀ c key, P c → (∀ entry, c.streams.find? key = some entry → G key entry) →
      P (f c key)) : ∀ (keys : List StreamKey) (c : Core), keys.Nodup → P c →
        (∀ key ∈ keys, ∀ entry, c.streams.find? key = some entry → G key entry) →
        P (keys.foldl f c)
  | [], _, _, h, _ => h
  | key :: keys, c, hnodup, h, hG => by
    obtain ⟨hnotin, hnodup⟩ := List.nodup_cons.mp hnodup
    refine foldl_streams_induct hkept hturn keys (f c key) hnodup (hturn c key h (hG key (by simp)))
      fun key' hkey' entry hentry => ?_
    have hne : key' ≠ key := fun heq => hnotin (heq ▸ hkey')
    rw [hkept c key key' hne] at hentry
    exact hG key' (List.mem_cons_of_mem _ hkey') entry hentry

theorem find?_advanceStream (now : Tick) (c : Core) {key key' : StreamKey} (h : key' ≠ key) :
    (advanceStream now c key).streams.find? key' = c.streams.find? key' := by
  rw [advanceStream]
  split
  · rfl
  · split
    · rfl
    · rw [streams_mirrorDecision, OrderedMap.find?_insert_of_ne _ _ h]

/-- A loop over all streams evaluates each of them once, from the entry it had at the start. -/
theorem foldl_advanceStream_induct {P : Core → Prop} {G : StreamKey → StreamEntry → Prop} {now : Tick}
    (hvisit : ∀ (c : Core) key entry, P c → c.streams.find? key = some entry → G key entry →
      entry.detector.freshAt now = true →
      P (c.mirrorDecision key { entry with detector := (entry.detector.evaluateFresh now).1 }
        (entry.detector.evaluateFresh now).2 now))
    {c : Core} (h : P c) (hG : ∀ key entry, c.streams.find? key = some entry → G key entry) :
    P (c.streams.keys.foldl (advanceStream now) c) := by
  refine foldl_streams_induct (fun c key key' => find?_advanceStream now c) (fun c key hP hG => ?_)
    c.streams.keys c c.streams.nodup_keys h fun key _ => hG key
  rw [advanceStream]
  cases hfind : c.streams.find? key with
  | none => exact hP
  | some entry =>
    dsimp only
    cases hfresh : entry.detector.freshAt now with
    | false => exact hP
    | true =>
      have h := hvisit c key entry hP hfind (hG entry hfind) hfresh
      rw [← Detector.evaluate_fresh hfresh] at h
      exact h

/-- The entry of a stream after time was advanced. -/
def advancedEntry (now : Tick) (entry : StreamEntry) : StreamEntry :=
  if entry.detector.freshAt now then
    mirroredEntry { entry with detector := (entry.detector.evaluateFresh now).1 }
      (entry.detector.evaluateFresh now).2.tick
  else entry

theorem find?_advanceStream_self (now : Tick) {c : Core} {key : StreamKey} {entry : StreamEntry}
    (h : c.streams.find? key = some entry) :
    (advanceStream now c key).streams.find? key = some (advancedEntry now entry) := by
  rw [advanceStream, h, advancedEntry]
  dsimp only
  cases hfresh : entry.detector.freshAt now with
  | false => exact h
  | true =>
    simp only [Bool.not_true, Bool.false_eq_true, if_false, if_true]
    rw [streams_mirrorDecision, OrderedMap.find?_insert_self, Detector.advance,
      Detector.evaluate_fresh hfresh]

/-- The streams that were advanced, and those that were not. -/
theorem find?_foldl_advanceStream (now : Tick) : ∀ (keys : List StreamKey) (c : Core), keys.Nodup →
    ∀ key, (keys.foldl (advanceStream now) c).streams.find? key =
      if key ∈ keys then (c.streams.find? key).map (advancedEntry now) else c.streams.find? key
  | [], c, _, key => by simp
  | k :: keys, c, hnodup, key => by
    obtain ⟨hnotin, hnodup⟩ := List.nodup_cons.mp hnodup
    rw [List.foldl_cons, find?_foldl_advanceStream now keys _ hnodup]
    by_cases hk : key = k
    · subst hk
      rw [if_neg hnotin, if_pos (by simp)]
      cases h : c.streams.find? key with
      | none =>
        rw [advanceStream, h]
        exact h
      | some entry => exact find?_advanceStream_self now h
    · rw [find?_advanceStream now c hk]
      simp [hk]

theorem streams_advance (c : Core) (now : Tick) :
    (c.advance now).streams = (c.streams.keys.foldl (advanceStream now) c).streams := by
  rw [advance, raiseLastTick]
  split <;> rfl

theorem find?_advance {c : Core} {now : Tick} {key : StreamKey} {entry : StreamEntry}
    (hfind : c.streams.find? key = some entry) :
    (c.advance now).streams.find? key = some (advancedEntry now entry) := by
  rw [streams_advance, find?_foldl_advanceStream now _ c c.streams.nodup_keys,
    if_pos (OrderedMap.mem_keys_iff.mpr ⟨entry, hfind⟩), hfind]
  rfl

/-- What each turn of an advance keeps, the advance keeps. -/
theorem advance_induct {P : Core → Prop} {c : Core} {now : Tick} (h : P c)
    (hvisit : ∀ c₁ key entry d' r, P c₁ → c₁.streams.find? key = some entry →
      c.streams.find? key = some entry → entry.detector.freshAt now = true →
      Detector.Answer false entry.detector now d' r → r.tick = now →
      (c.advance now).streams.find? key =
        some (mirroredEntry { entry with detector := d' } r.tick) →
      P (c₁.mirrorDecision key { entry with detector := d' } r now))
    (hraise : ∀ c₁, P c₁ → P (c₁.raiseLastTick now))
    (hrefresh : ∀ c₁, P c₁ → P (c₁.refresh now)) : P (c.advance now) := by
  refine hraise _ (hrefresh _ ?_)
  refine foldl_advanceStream_induct (G := fun key entry => c.streams.find? key = some entry)
    (fun c₁ key entry h₁ hfind₁ hfind hfresh => ?_) h fun _ _ hfind => hfind
  refine hvisit c₁ key entry _ _ h₁ hfind₁ hfind hfresh (Detector.answer_evaluateFresh hfresh)
    (entry.detector.evaluated_evaluateFresh now).tick ?_
  rw [find?_advance hfind, advancedEntry, if_pos hfresh]

/-! ### What evidence and time leave alone -/

structure Settings where
  config : GovernorConfig
  policies : PolicySet
  context : AuthorityContext

def settings (c : Core) : Settings := ⟨c.config, c.policies, c.context⟩

theorem settings_of_base {c c' : Core} (h : c'.base = c.base) : c'.settings = c.settings :=
  congrArg (fun b : Base => (⟨b.config, b.policies, b.context⟩ : Settings)) h

theorem raiseLastTick_eq (c : Core) (tick : Tick) :
    ∃ lastTick, c.raiseLastTick tick = { c with lastTick } := by
  rw [raiseLastTick]
  split
  · exact ⟨tick, rfl⟩
  · exact ⟨c.lastTick, rfl⟩

theorem settings_raiseLastTick (c : Core) (tick : Tick) :
    (c.raiseLastTick tick).settings = c.settings := by
  obtain ⟨lastTick, hraise⟩ := c.raiseLastTick_eq tick
  rw [hraise]
  rfl

theorem settings_mirrorDecision (c : Core) (key : StreamKey) (entry : StreamEntry)
    (decision : DetectionDecision) (now : Tick) :
    (c.mirrorDecision key entry decision now).settings = c.settings :=
  congrArg (fun b : Base => (⟨b.config, b.policies, b.context⟩ : Settings))
    (c.base_mirrorDecision key entry decision now)

theorem settings_ingest (c : Core) (sample : Sample) :
    (c.ingest sample).settings = c.settings := by
  refine ingest_induct (P := fun c' => c'.settings = c.settings) rfl (fun _ => rfl) (fun c₁ h₁ => ?_)
    (fun c₁ entry d' r _ h₁ _ _ _ _ => ?_) (fun c₁ tick h₁ => ?_) fun c₁ tick _ h₁ => ?_
  · obtain ⟨generations, hobserve⟩ := c₁.base_observeGeneration sample
    rw [hobserve]
    exact h₁
  · exact (c₁.settings_mirrorDecision sample.stream _ r r.tick).trans h₁
  · exact (c₁.settings_raiseLastTick tick).trans h₁
  · exact (settings_of_base (c₁.base_refresh tick default)).trans h₁

theorem settings_advance (c : Core) (now : Tick) : (c.advance now).settings = c.settings := by
  refine advance_induct (P := fun c' => c'.settings = c.settings) rfl
    (fun c₁ key entry d' r h₁ _ _ _ _ _ _ => ?_) (fun c₁ h₁ => ?_) fun c₁ h₁ => ?_
  · exact (c₁.settings_mirrorDecision key _ r now).trans h₁
  · exact (c₁.settings_raiseLastTick now).trans h₁
  · exact (settings_of_base (c₁.base_refresh now default)).trans h₁

/-! ### Rearming -/

/-- The entry of a stream after its detector was rearmed under the policy now in force. -/
def rearmedEntry (c : Core) (entry : StreamEntry) : StreamEntry :=
  { entry with
    detector := (entry.detector.rearm (c.policies.resolve entry.detector.key.resource)
      c.policies.generation c.lastTick).1 }

/-- The event of a stream whose rearm fenced its open episode. -/
def rearmedEvent (c : Core) (entry : StreamEntry) : BurstEvent :=
  { c.shell.boundEpisode (c.rearmedEntry entry).detector with lifecycle := .fenced }

/-- Rearming one stream: its open episode, if it has one, is fenced. -/
theorem rearmStream_eq {c : Core} {key : StreamKey} {entry : StreamEntry}
    (h : c.streams.find? key = some entry) :
    c.rearmStream key =
      if entry.detector.hasOpenEpisode then
        ({ c.setEntry key (c.rearmedEntry entry) with
          openEvents := c.openEvents.erase (c.rearmedEvent entry).id }).endEpisode
            (c.rearmedEvent entry) true c.lastTick
      else c.setEntry key (c.rearmedEntry entry) := by
  have hfenced := (entry.detector.rearmed_rearm
    (c.policies.resolve entry.detector.key.resource) c.policies.generation c.lastTick).fenced
  rw [rearmStream, h, ← hfenced]
  rfl

theorem base_rearmStream {c : Core} {key : StreamKey} {entry : StreamEntry}
    (h : c.streams.find? key = some entry) :
    (c.rearmStream key).base = (c.setEntry key (c.rearmedEntry entry)).base := by
  rw [rearmStream_eq h]
  split <;> rfl

theorem intentView_rearmStream (c : Core) (key : StreamKey) :
    (c.rearmStream key).intentView = c.intentView := by
  cases h : c.streams.find? key with
  | none => rw [rearmStream, h]
  | some entry =>
    rw [rearmStream_eq h]
    split <;> rfl

theorem find?_rearmStream (c : Core) {key key' : StreamKey} (h : key' ≠ key) :
    (c.rearmStream key).streams.find? key' = c.streams.find? key' := by
  cases hfind : c.streams.find? key with
  | none => rw [rearmStream, hfind]
  | some entry =>
    have hstreams := congrArg Base.streams (base_rearmStream hfind)
    change (c.rearmStream key).streams = c.streams.insert key (c.rearmedEntry entry) at hstreams
    rw [hstreams, OrderedMap.find?_insert_of_ne _ _ h]

/-- Rearming streams leaves everything but the streams and the episodes alone. -/
theorem base_rearm : ∀ (keys : List StreamKey) (c : Core),
    (c.rearm keys).base = { c.base with streams := (c.rearm keys).streams }
  | [], _ => rfl
  | key :: keys, c => by
    have htail := base_rearm keys (c.rearmStream key)
    have hhead : (c.rearmStream key).base = { c.base with streams := (c.rearmStream key).streams } := by
      cases h : c.streams.find? key with
      | none => rw [rearmStream, h]; rfl
      | some entry =>
        have hbase := base_rearmStream h
        rw [hbase]
        exact congrArg (fun streams => { c.base with streams }) (congrArg Base.streams hbase).symm
    change ((c.rearmStream key).rearm keys).base = _
    rw [htail, hhead]
    rfl

theorem intentView_rearm : ∀ (keys : List StreamKey) (c : Core),
    (c.rearm keys).intentView = c.intentView
  | [], _ => rfl
  | key :: keys, c => (intentView_rearm keys (c.rearmStream key)).trans (c.intentView_rearmStream key)

/-- The streams that were rearmed, and those that were not. -/
theorem find?_rearm : ∀ (keys : List StreamKey) (c : Core), keys.Nodup → ∀ key,
    (c.rearm keys).streams.find? key =
      if key ∈ keys then (c.streams.find? key).map c.rearmedEntry else c.streams.find? key
  | [], c, _, key => by simp [rearm]
  | k :: keys, c, hnodup, key => by
    obtain ⟨hnotin, hnodup⟩ := List.nodup_cons.mp hnodup
    have hsame : (c.rearmStream k).rearmedEntry = c.rearmedEntry := by
      have hbase := base_rearm [k] c
      have hpolicies : (c.rearmStream k).policies = c.policies := congrArg Base.policies hbase
      have hlast : (c.rearmStream k).lastTick = c.lastTick := congrArg Base.lastTick hbase
      funext entry
      rw [rearmedEntry, rearmedEntry, hpolicies, hlast]
    change ((c.rearmStream k).rearm keys).streams.find? key = _
    rw [find?_rearm keys (c.rearmStream k) hnodup, hsame]
    by_cases hk : key = k
    · subst hk
      rw [if_neg hnotin, if_pos (by simp)]
      cases h : c.streams.find? key with
      | none => rw [rearmStream, h]; exact h
      | some entry =>
        have hstreams := congrArg Base.streams (base_rearmStream h)
        change (c.rearmStream key).streams = c.streams.insert key (c.rearmedEntry entry) at hstreams
        rw [hstreams, OrderedMap.find?_insert_self]
        rfl
    · rw [c.find?_rearmStream hk]
      simp [hk]

end Core

end Mbg
