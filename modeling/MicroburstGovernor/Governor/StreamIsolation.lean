import MicroburstGovernor.Governor.CoreFrame
import MicroburstGovernor.Lib.Isolation
import Mathlib.Data.Finset.Card

/-! Stream isolation: what a sample comes to depends on the samples of its own stream only.

    The streams share the table, the policies, the observed generations, the decision sequence, the
    last tick and the intents. A stream's view of all that is its entry; the rest never flows back
    into a detector. -/

namespace Mbg

namespace Governor

/-! ### A stream alone -/

/-- The entry of a stream that is new under these policies. -/
def newEntry (policies : PolicySet) (key : StreamKey) : StreamEntry where
  detector := Detector.configure {} key (policies.resolve key.resource) policies.generation

/-- What a sample comes to, from the entry of its stream alone. -/
def serveStream (policies : PolicySet) (entry : Option StreamEntry) (sample : Sample) :
    IngestOutcome × Option StreamEntry :=
  match validateSample sample with
  | .error e => ({ status := .error e }, entry)
  | .ok () =>
    let entry := entry.getD (newEntry policies sample.stream)
    match entry.detector.ingest sample with
    | .error e => ({ status := .error e }, some entry)
    | .ok (detector, decision) =>
      let entry := { entry with detector }
      ({ accept := detector.lastAccept, classification := decision.classification
         evaluated := StreamEntry.unprocessed entry decision.tick, decision },
        some (Core.mirroredEntry entry decision.tick))

/-- The streams are among these, under these policies. -/
structure Hosts (keys : Finset StreamKey) (policies : PolicySet) (g : Governor) : Prop where
  keyed : g.core.Keyed
  policies : g.policies = policies
  streams : ∀ key ∈ g.streams.keys, key ∈ keys

/-- Among so many streams there is room for one that is not there yet. -/
theorem Hosts.room {keys : Finset StreamKey} {policies : PolicySet} {g : Governor}
    (h : g.Hosts keys policies) (hkeys : keys.card ≤ Limits.maxStreams) {key : StreamKey}
    (hkey : key ∈ keys) (hnew : g.streams.find? key = none) :
    g.streams.size < Limits.maxStreams := by
  have hmissing : key ∉ g.streams.keys := by
    intro hmem
    obtain ⟨entry, hentry⟩ := OrderedMap.mem_keys_iff.mp hmem
    rw [hnew] at hentry
    cases hentry
  have hsubset : insert key g.streams.keys.toFinset ⊆ keys := by
    intro k hk
    rcases Finset.mem_insert.mp hk with rfl | hk
    · exact hkey
    · exact h.streams k (List.mem_toFinset.mp hk)
  have hcard := Finset.card_le_card hsubset
  rw [Finset.card_insert_of_notMem (by simpa using hmissing),
    List.toFinset_card_of_nodup g.streams.nodup_keys, OrderedMap.keys, List.length_map] at hcard
  exact Nat.lt_of_lt_of_le hcard hkeys

end Governor

/-! ### One step -/

namespace Core

/-- Where there is room, a stream is found or created: its entry is the one it has, or a new one. -/
theorem findOrCreate_of_room (c : Core) {key : StreamKey} {entry : StreamEntry}
    (hroom : c.streams.find? key = none → c.streams.size < Limits.maxStreams)
    (hentry : entry = (c.streams.find? key).getD (Governor.newEntry c.policies key)) :
    ∃ c₁, c.findOrCreate key = some (entry, c₁) ∧ c₁.policies = c.policies ∧
      ∀ k, c₁.streams.find? k = if k = key then some entry else c.streams.find? k := by
  rw [findOrCreate]
  cases hfind : c.streams.find? key with
  | some found =>
    rw [hfind, Option.getD_some] at hentry
    refine ⟨c, by rw [hentry], rfl, fun k => ?_⟩
    split_ifs with hk
    · rw [hk, hfind, hentry]
    · rfl
  | none =>
    have hlt := hroom hfind
    rw [hfind, Option.getD_none] at hentry
    refine ⟨c.setEntry key (c.freshEntry key), ?_, rfl, fun k => ?_⟩
    · dsimp only
      rw [if_neg (by omega), hentry]
      rfl
    · rw [hentry]
      refine (OrderedMap.find?_insert c.streams key k _).trans ?_
      split_ifs <;> rfl

theorem base_accept (c : Core) (sample : Sample) (entry : StreamEntry)
    (result : Detector × DetectionDecision) :
    (c.accept sample entry result).policies = c.policies ∧
      (c.accept sample entry result).streams = c.streams.insert sample.stream
        (mirroredEntry { entry with detector := result.1 } result.2.tick) := by
  obtain ⟨generations, hobserve⟩ := base_observeGeneration c sample
  have hmirror := (c.observeGeneration sample).base_mirrorDecision sample.stream
    { entry with detector := result.1 } result.2 result.2.tick
  have hlast : ∀ c : Core, (c.raiseLastTick result.2.tick).policies = c.policies ∧
      (c.raiseLastTick result.2.tick).streams = c.streams := by
    intro c
    rw [Core.raiseLastTick]
    split <;> exact ⟨rfl, rfl⟩
  have hpolicies : ((c.observeGeneration sample).mirrorDecision sample.stream
      { entry with detector := result.1 } result.2 result.2.tick).policies = c.policies := by
    refine (congrArg Base.policies hmirror).trans ?_
    rw [hobserve]
    rfl
  have hstreams : ((c.observeGeneration sample).mirrorDecision sample.stream
      { entry with detector := result.1 } result.2 result.2.tick).streams = c.streams.insert
        sample.stream (mirroredEntry { entry with detector := result.1 } result.2.tick) := by
    refine (congrArg Base.streams hmirror).trans ?_
    rw [hobserve]
    rfl
  unfold accept
  extract_lets entry' c₁ c₂
  have h₂ : c₂.policies = c₁.policies ∧ c₂.streams = c₁.streams := by
    dsimp only [c₂]
    split
    · exact hlast c₁
    · exact ⟨rfl, rfl⟩
  exact ⟨h₂.1.trans hpolicies, h₂.2.trans hstreams⟩

/-- STEP: the stream of a sample gets the entry it is served from alone; the others keep theirs. -/
theorem find?_ingest (c : Core) (sample : Sample)
    (hroom : c.streams.find? sample.stream = none → c.streams.size < Limits.maxStreams) :
    (c.ingest sample).policies = c.policies ∧
      ∀ key, (c.ingest sample).streams.find? key = if key = sample.stream then
        (Governor.serveStream c.policies (c.streams.find? sample.stream) sample).2
      else c.streams.find? key := by
  rw [ingest, Governor.serveStream]
  cases validateSample sample with
  | error e =>
    refine ⟨rfl, fun key => ?_⟩
    dsimp only
    split_ifs with hkey
    · rw [hkey]
    · rfl
  | ok _ =>
    dsimp only
    generalize hentry : (c.streams.find? sample.stream).getD
      (Governor.newEntry c.policies sample.stream) = entry
    obtain ⟨c₁, hfound, hpolicies, hfind⟩ := c.findOrCreate_of_room hroom hentry.symm
    rw [hfound]
    dsimp only
    cases hingest : entry.detector.ingest sample with
    | error e =>
      obtain ⟨generations, hobserve⟩ := base_observeGeneration c₁ sample
      rw [hobserve]
      exact ⟨hpolicies, hfind⟩
    | ok result =>
      have haccept := c₁.base_accept sample entry result
      refine ⟨haccept.1.trans hpolicies, fun key => ?_⟩
      refine (congrArg (fun streams => OrderedMap.find? streams key) haccept.2).trans ?_
      rw [OrderedMap.find?_insert, hfind]
      split_ifs <;> rfl

end Core

namespace Governor

/-- STEP: what a sample comes to is read off the entry of its stream. -/
theorem ingest_outcome (g : Governor) (sample : Sample)
    (hroom : g.streams.find? sample.stream = none → g.streams.size < Limits.maxStreams) :
    (g.ingest sample).1 =
      (serveStream g.policies (g.streams.find? sample.stream) sample).1 := by
  rw [ingest, serveStream]
  cases validateSample sample with
  | error e => rfl
  | ok _ =>
    dsimp only
    obtain ⟨g₁, hfound⟩ : ∃ g₁, g.findOrCreate sample.stream =
        .ok ((g.streams.find? sample.stream).getD (newEntry g.policies sample.stream), g₁) := by
      rw [findOrCreate]
      cases hfind : g.streams.find? sample.stream with
      | some entry => exact ⟨g, rfl⟩
      | none =>
        have hlt := hroom hfind
        dsimp only
        rw [if_neg (by omega)]
        exact ⟨_, rfl⟩
    rw [hfound]
    generalize (g.streams.find? sample.stream).getD _ = entry
    dsimp only
    cases entry.detector.ingest sample with
    | error e => rfl
    | ok result =>
      obtain ⟨detector, decision⟩ := result
      dsimp only
      have hevaluated : ∀ g₂ : Governor,
          (g₂.mirrorDecision sample.stream { entry with detector } decision decision.tick).2 =
            StreamEntry.unprocessed { entry with detector } decision.tick := by
        intro g₂
        rw [mirrorDecision]
        split_ifs with hfresh
        · rw [hfresh]
        · simpa using hfresh
      rw [hevaluated]

/-- Each stream of a governor is served from its own entry, as long as the streams fit the table. -/
theorem isolated_ingest (keys : Finset StreamKey) (hkeys : keys.card ≤ Limits.maxStreams)
    (policies : PolicySet) :
    Isolation.Isolated ingest Sample.stream (fun g key => g.streams.find? key)
      (serveStream policies) (Hosts keys policies) (fun sample => sample.stream ∈ keys) := by
  have hcore : ∀ {g : Governor} {sample : Sample}, g.Hosts keys policies → sample.stream ∈ keys →
      (g.ingest sample).2.core.Keyed ∧ (g.ingest sample).2.policies = policies ∧
        ∀ key, (g.ingest sample).2.streams.find? key = if key = sample.stream then
          (serveStream policies (g.streams.find? sample.stream) sample).2
          else g.streams.find? key := by
    intro g sample hg hsample
    have heq := core_ingest hg.keyed sample
    obtain ⟨hpolicies, hstreams⟩ := g.core.find?_ingest sample fun hnew =>
      hg.room hkeys hsample hnew
    have hbefore : g.core.policies = policies := hg.policies
    rw [hbefore] at hpolicies hstreams
    rw [← heq] at hpolicies hstreams
    refine ⟨?_, hpolicies, hstreams⟩
    rw [heq]
    exact Core.keyed_ingest hg.keyed sample
  constructor
  · intro g sample hg hsample
    obtain ⟨hkeyed, hpolicies, hstreams⟩ := hcore hg hsample
    refine ⟨hkeyed, hpolicies, fun key hkey => ?_⟩
    obtain ⟨entry, hentry⟩ := OrderedMap.mem_keys_iff.mp hkey
    rw [hstreams] at hentry
    split_ifs at hentry with heq
    · rw [heq]
      exact hsample
    · exact hg.streams key (OrderedMap.mem_keys_iff.mpr ⟨entry, hentry⟩)
  · intro g sample hg hsample
    rw [← hg.policies]
    exact g.ingest_outcome sample fun hnew => hg.room hkeys hsample hnew
  · intro g sample hg hsample
    rw [(hcore hg hsample).2.2, if_pos rfl]
  · intro g sample key hg hsample hne
    rw [(hcore hg hsample).2.2, if_neg hne]

/-! ### The law -/

/-- These samples are an interleaving of what the streams are fed. -/
structure Interleaves (keys : Finset StreamKey) (feeds : StreamKey → List Sample)
    (samples : List Sample) : Prop where
  within : ∀ sample ∈ samples, sample.stream ∈ keys
  feeds : ∀ key ∈ keys, samples.filter (fun sample => sample.stream = key) = feeds key

/-- What the samples of one stream come to, in order: their status, what the window made of them,
    their classification and their decision. -/
def outcomes (key : StreamKey) (g : Governor) (samples : List Sample) : List IngestOutcome :=
  Isolation.answers ingest Sample.stream key g samples

/-- A fresh governor of a configuration, over any store. -/
def fresh (hashing : Hashing) (config : GovernorConfig) (store : Option DurableStore) : Governor :=
  (new hashing config).bindStore store

theorem hosts_fresh (hashing : Hashing) (config : GovernorConfig) (store : Option DurableStore)
    (keys : Finset StreamKey) :
    (fresh hashing config store).Hosts keys (new Hashing.back config).policies := by
  have hcore : (fresh hashing config store).core = (new hashing config).core := by
    cases store <;> rfl
  have hstreams : (fresh hashing config store).streams = OrderedMap.empty := by
    cases store <;> rfl
  refine ⟨?_, ?_, fun key hkey => ?_⟩
  · rw [hcore]
    exact keyed_new hashing config
  · cases store <;> rfl
  · rw [hstreams] at hkey
    cases hkey

/-- STREAM ISOLATION: two governors of one configuration that are fed two interleavings of the same
    streams serve each stream alike, and as a governor that is fed that stream alone. -/
theorem stream_isolation (config : GovernorConfig) (keys : Finset StreamKey)
    (hkeys : keys.card ≤ Limits.maxStreams) (feeds : StreamKey → List Sample)
    {samples samples' : List Sample} (h : Interleaves keys feeds samples)
    (h' : Interleaves keys feeds samples') (hashing hashing' hashing₁ : Hashing)
    (store store' store₁ : Option DurableStore) {key : StreamKey} (hkey : key ∈ keys) :
    outcomes key (fresh hashing config store) samples =
        outcomes key (fresh hashing' config store') samples' ∧
      outcomes key (fresh hashing config store) samples =
        outcomes key (fresh hashing₁ config store₁) (feeds key) := by
  have hisolated := isolated_ingest keys hkeys (new Hashing.back config).policies
  have hview : ∀ (hashing hashing' : Hashing) (store store' : Option DurableStore),
      (fresh hashing config store).streams.find? key =
        (fresh hashing' config store').streams.find? key := by
    intro hashing hashing' store store'
    cases store <;> cases store' <;> rfl
  have hown : (feeds key).filter (fun sample => sample.stream = key) = feeds key := by
    rw [← h.feeds key hkey, List.filter_filter]
    simp
  have halone : ∀ sample ∈ feeds key, sample.stream ∈ keys := by
    intro sample hsample
    rw [← h.feeds key hkey] at hsample
    exact h.within sample (List.mem_filter.mp hsample).1
  constructor
  · refine hisolated.answers_congr hisolated key (hosts_fresh _ _ _ _) (hosts_fresh _ _ _ _)
      h.within h'.within (hview _ _ _ _) ?_
    exact (h.feeds key hkey).trans (h'.feeds key hkey).symm
  · refine hisolated.answers_congr hisolated key (hosts_fresh _ _ _ _) (hosts_fresh _ _ _ _)
      h.within halone (hview _ _ _ _) ?_
    exact (h.feeds key hkey).trans hown.symm

/-- A sample of a queue of resource 1. -/
def queueSample (queue tick depth : UInt64) : Sample :=
  { stream := ⟨⟨1⟩, ⟨queue⟩, ⟨1⟩⟩, tick := ⟨tick⟩, depth }

/-- Two queues of one resource, the second fed between the samples of the first, or before them. -/
theorem stream_isolation_two_queues :
    outcomes ⟨⟨1⟩, ⟨1⟩, ⟨1⟩⟩ (fresh Hashing.back {} none)
        [queueSample 1 1 2048, queueSample 2 9 0, queueSample 1 2 2048] =
      outcomes ⟨⟨1⟩, ⟨1⟩, ⟨1⟩⟩ (fresh Hashing.back {} (some { isOpen := true }))
        [queueSample 2 9 0, queueSample 1 1 2048, queueSample 1 2 2048] :=
  (stream_isolation {} {⟨⟨1⟩, ⟨1⟩, ⟨1⟩⟩, ⟨⟨1⟩, ⟨2⟩, ⟨1⟩⟩} (by decide)
    (fun key =>
      if key.queue = ⟨1⟩ then [queueSample 1 1 2048, queueSample 1 2 2048]
      else [queueSample 2 9 0])
    ⟨by decide, by decide⟩ ⟨by decide, by decide⟩ Hashing.back Hashing.back Hashing.back none
    (some { isOpen := true }) none (by decide)).1

end Governor

end Mbg
