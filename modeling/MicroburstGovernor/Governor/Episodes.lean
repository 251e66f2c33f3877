import MicroburstGovernor.Detect.Identity
import MicroburstGovernor.Governor.CoreFrame
import Mathlib.Data.Set.Function

/-! The table of open episodes mirrors the detectors.

    A detector opens and closes its episode whenever it evaluates; the governor mirrors the decision
    only if its tick lies after the last one it processed for the stream. Where every evaluation and
    every fence comes at such a tick, the table holds the identities of the open episodes and no
    other. -/

namespace Mbg

namespace Detector

/-- An episode carries the identity of its onset; the one of a detector that never opened any is
    unset. -/
def Current.Named (c : Current) : Prop :=
  c.id = makeEventId c.key c.onset ∨ c.id = default ∧ c.isOpen = false

theorem Current.Named.id_eq {c : Current} (h : c.Named) (hopen : c.isOpen = true) :
    c.id = makeEventId c.key c.onset := by
  rcases h with h | ⟨-, h⟩
  · exact h
  · rw [hopen] at h; cases h

theorem Announces.named {c c' : Current} {v : DetectionDecision.Verdict} (h : Announces c c' v)
    (hc : c.Named) : c'.key = c.key ∧ c'.Named := by
  cases h with
  | kept same => exact ⟨congrArg Current.key same, same ▸ hc⟩
  | opened wasOpen now => rw [now]; exact ⟨rfl, Or.inl rfl⟩
  | openedClosed wasOpen now => rw [now]; exact ⟨rfl, Or.inl rfl⟩
  | updated wasOpen same => exact ⟨congrArg Current.key same, same ▸ hc⟩
  | closed wasOpen now => rw [now]; exact ⟨rfl, Or.inl (hc.id_eq wasOpen)⟩

end Detector

namespace Core

open Detector (Current Announces)

/-! ### What mirroring a decision says -/

theorem id_decisionEvent {c : Core} {d : Detector} {r : DetectionDecision}
    (h : (r.opened || r.updated || r.closed) = true) :
    (c.shell.decisionEvent d r).id = d.episode.id := by
  rw [Governor.decisionEvent, if_pos h]
  dsimp only
  split <;> rfl

theorem mem_keys_mirrorEpisode {c : Core} {event : BurstEvent} {r : DetectionDecision} {now : Tick}
    {id : EventId} : id ∈ (c.mirrorEpisode event r now).openEvents.keys ↔
      (id ∈ c.openEvents.keys ∨ id = event.id ∧ (r.opened || (r.updated && !r.closed)) = true) ∧
        ¬ (id = event.id ∧ r.closed = true) := by
  unfold mirrorEpisode
  extract_lets c₁
  have h₁ : id ∈ c₁.openEvents.keys ↔
      id ∈ c.openEvents.keys ∨ id = event.id ∧ (r.opened || (r.updated && !r.closed)) = true := by
    dsimp only [c₁]
    cases r.opened with
    | true =>
      simp only [if_true, openEpisode, UnorderedMap.mem_keys_assign, Bool.true_or, and_true]
      exact or_comm
    | false =>
      cases r.updated && !r.closed with
      | true =>
        simp only [if_true, Bool.false_eq_true, if_false, UnorderedMap.mem_keys_assign, Bool.or_true,
          and_true]
        exact or_comm
      | false => simp
  cases hclosed : r.closed with
  | false =>
    simp only [hclosed] at h₁
    simp only [Bool.false_eq_true, if_false, and_false, not_false_eq_true, and_true]
    exact h₁
  | true =>
    simp only [hclosed] at h₁
    have hkeys : (c₁.closeEpisode event r.fenced now).openEvents = c₁.openEvents.erase event.id := rfl
    rw [if_pos rfl, hkeys, UnorderedMap.mem_keys_erase, h₁]
    simp

/-- The emissions about an episode that a decision announces. -/
def announced (event : BurstEvent) (r : DetectionDecision) (now : Tick) : List Emission :=
  (if r.opened then [{ kind := .episodeOpened, event, tick := now }] else []) ++
    if r.closed then
      [{ kind := if r.fenced then .episodeFenced else .episodeClosed, event, tick := now }]
    else []

theorem episodes_mirrorEpisode (c : Core) (event : BurstEvent) (r : DetectionDecision) (now : Tick) :
    (c.mirrorEpisode event r now).episodes = c.episodes ++ announced event r now := by
  unfold mirrorEpisode announced
  extract_lets c₁
  have h₁ : c₁.episodes = c.episodes ++
      if r.opened then [{ kind := .episodeOpened, event, tick := now }] else [] := by
    dsimp only [c₁]
    cases r.opened with
    | true => rfl
    | false => cases r.updated && !r.closed <;> simp
  cases r.closed with
  | false => simpa using h₁
  | true =>
    have hclose : (c₁.closeEpisode event r.fenced now).episodes = c₁.episodes ++
        [{ kind := if r.fenced then .episodeFenced else .episodeClosed, event, tick := now }] := rfl
    rw [if_pos rfl, if_pos rfl, hclose, h₁, List.append_assoc]

/-! ### The invariant -/

/-- What is known of a stream whose evaluations and fences were all mirrored. -/
structure Tracked (key : StreamKey) (entry : StreamEntry) : Prop where
  key : entry.detector.key = key
  named : entry.detector.current.Named
  isOpen : entry.detector.hasOpenEpisode = true → entry.hasProcessed = true ∧
    entry.detector.hasEvaluated = true ∧ entry.lastProcessed = entry.detector.lastEvaluated
  evaluated : entry.detector.hasEvaluated = true → entry.hasProcessed = true ∧
    tickAfter entry.lastProcessed entry.detector.lastEvaluated = false ∧
    entry.detector.lastDecision.tick = entry.detector.lastEvaluated

/-- A stream has this episode open. -/
def OpenAt (c : Core) (key : StreamKey) (id : EventId) : Prop :=
  ∃ entry, c.streams.find? key = some entry ∧ entry.detector.hasOpenEpisode = true ∧
    entry.detector.episode.id = id

/-- The table holds the identities of the open episodes, and no other. -/
structure Mirrored (c : Core) : Prop where
  tracked : ∀ key entry, c.streams.find? key = some entry → Tracked key entry
  table : ∀ id, id ∈ c.openEvents.keys ↔ ∃ key, c.OpenAt key id

/-- The stream and onset tick of the episode each detector had last. -/
def onsets (c : Core) : Set (StreamKey × Tick) :=
  { p | ∃ entry, c.streams.find? p.1 = some entry ∧ entry.detector.episode.metrics.onsetTick = p.2 ∧
      entry.detector.episode.id = makeEventId p.1 p.2 }

/-- The stream and onset tick that an entry's episode is named by, if it is one of its own. -/
def namedOnset (key : StreamKey) (c : Current) : Option (StreamKey × Tick) :=
  if c.id = makeEventId key c.onset then some (key, c.onset) else none

/-- The onsets, listed in key order. -/
def onsetList (c : Core) : List (StreamKey × Tick) :=
  c.streams.entries.filterMap fun e => namedOnset e.1 e.2.detector.current

theorem namedOnset_eq_some {key : StreamKey} {c : Current} {p : StreamKey × Tick} :
    namedOnset key c = some p ↔ key = p.1 ∧ c.onset = p.2 ∧ c.id = makeEventId p.1 p.2 := by
  rw [namedOnset]
  split
  · rename_i hid
    rw [Option.some.injEq, Prod.ext_iff]
    refine ⟨fun ⟨hkey, honset⟩ => ⟨hkey, honset, ?_⟩, fun ⟨hkey, honset, _⟩ => ⟨hkey, honset⟩⟩
    rw [← hkey, ← honset]
    exact hid
  · rename_i hid
    refine ⟨fun h => (by cases h), fun ⟨hkey, honset, hown⟩ => absurd ?_ hid⟩
    rw [hkey, honset]
    exact hown

theorem mem_onsetList {c : Core} {p : StreamKey × Tick} : p ∈ c.onsetList ↔ p ∈ c.onsets := by
  rw [onsetList, List.mem_filterMap]
  constructor
  · rintro ⟨e, he, hnamed⟩
    obtain ⟨hkey, honset, hid⟩ := namedOnset_eq_some.mp hnamed
    exact ⟨e.2, OrderedMap.find?_eq_some.mpr (hkey ▸ he), honset, hid⟩
  · rintro ⟨entry, hfind, honset, hid⟩
    exact ⟨(p.1, entry), OrderedMap.find?_eq_some.mp hfind,
      namedOnset_eq_some.mpr ⟨rfl, honset, hid⟩⟩

/-- Episode identities do not collide on these streams and onset ticks. -/
def DistinctIdentities (S : Set (StreamKey × Tick)) : Prop :=
  S.InjOn fun p => makeEventId p.1 p.2

theorem mem_onsets_of_open {c : Core} {key : StreamKey} {entry : StreamEntry}
    (h : c.streams.find? key = some entry) (htracked : Tracked key entry)
    (hopen : entry.detector.hasOpenEpisode = true) :
    (key, entry.detector.episode.metrics.onsetTick) ∈ c.onsets ∧
      entry.detector.episode.id = makeEventId key entry.detector.episode.metrics.onsetTick := by
  have hid := htracked.named.id_eq hopen
  rw [show entry.detector.current.key = key from htracked.key] at hid
  exact ⟨⟨entry, h, rfl, hid⟩, hid⟩

/-! ### One stream -/

/-- A table that held the open episodes of the other streams and of one stream before a decision,
    updated as the decision says, holds them after it. -/
theorem table_announces {K K' rest : EventId → Prop} {d d' : Current} {r : DetectionDecision}
    {event : EventId} (ha : Announces d d' r.verdict)
    (hbefore : ∀ id, K id ↔ rest id ∨ d.isOpen = true ∧ d.id = id) (hrest : ¬ rest d'.id)
    (hevent : (r.opened || r.updated || r.closed) = true → event = d'.id)
    (hafter : ∀ id, K' id ↔
      (K id ∨ id = event ∧ (r.opened || (r.updated && !r.closed)) = true) ∧
        ¬ (id = event ∧ r.closed = true)) (id : EventId) :
    K' id ↔ rest id ∨ d'.isOpen = true ∧ d'.id = id := by
  have hne : ∀ {id}, rest id → id ≠ d'.id := fun h heq => hrest (heq ▸ h)
  rw [hafter id, hbefore id]
  cases ha with
  | kept same opened updated closed =>
    rw [show r.opened = false from opened, show r.updated = false from updated,
      show r.closed = false from closed, same]
    simp
  | opened wasOpen now opened closed =>
    have hopen : d'.isOpen = true := by rw [now]
    rw [hevent (by simp [show r.opened = true from opened]), show r.opened = true from opened,
      show r.closed = false from closed, wasOpen, hopen]
    simp [eq_comm]
  | openedClosed wasOpen now opened closed =>
    have hclosed : d'.isOpen = false := by rw [now]
    rw [hevent (by simp [show r.opened = true from opened]), show r.opened = true from opened,
      show r.closed = true from closed, wasOpen, hclosed]
    constructor
    · rintro ⟨(h | ⟨h, -⟩) | ⟨h, -⟩, hnot⟩
      · exact Or.inl h
      · cases h
      · exact absurd ⟨h, rfl⟩ hnot
    · rintro (h | ⟨h, -⟩)
      · exact ⟨Or.inl (Or.inl h), fun h' => hne h h'.1⟩
      · cases h
  | updated wasOpen same opened updated closed =>
    rw [hevent (by simp [show r.updated = true from updated]), show r.opened = false from opened,
      show r.updated = true from updated, show r.closed = false from closed, same, wasOpen]
    constructor
    · rintro ⟨h | ⟨h, -⟩, -⟩
      · exact h
      · exact Or.inr ⟨rfl, h.symm⟩
    · exact fun h => ⟨Or.inl h, by simp⟩
  | closed wasOpen now opened closed =>
    have hclosed : d'.isOpen = false := by rw [now]
    have hid : d'.id = d.id := by rw [now]
    rw [hevent (by simp [show r.closed = true from closed]), show r.opened = false from opened,
      show r.closed = true from closed, wasOpen, hclosed]
    constructor
    · rintro ⟨(h | ⟨-, h⟩) | ⟨h, -⟩, hnot⟩
      · exact Or.inl h
      · exact absurd ⟨(hid.trans h).symm, rfl⟩ hnot
      · exact absurd ⟨h, rfl⟩ hnot
    · rintro (h | ⟨h, -⟩)
      · exact ⟨Or.inl (Or.inl h), fun h' => hne h h'.1⟩
      · cases h

/-- Some other stream has this episode open. -/
def OpenElsewhere (c : Core) (key : StreamKey) (id : EventId) : Prop :=
  ∃ key', key' ≠ key ∧ c.OpenAt key' id

/-- The open episodes are those of the other streams and the one of this stream. -/
theorem exists_openAt_insert {c c' : Core} {key : StreamKey} {entry : StreamEntry}
    (h : c'.streams = c.streams.insert key entry) (id : EventId) :
    (∃ key', c'.OpenAt key' id) ↔ c.OpenElsewhere key id ∨
      entry.detector.hasOpenEpisode = true ∧ entry.detector.episode.id = id := by
  simp only [OpenAt, OpenElsewhere, h, OrderedMap.find?_insert]
  constructor
  · rintro ⟨key', entry', hfind, hopen⟩
    by_cases hk : key' = key
    · rw [if_pos hk] at hfind
      cases hfind
      exact Or.inr hopen
    · rw [if_neg hk] at hfind
      exact Or.inl ⟨key', hk, entry', hfind, hopen⟩
  · rintro (⟨key', hk, entry', hfind, hopen⟩ | hopen)
    · exact ⟨key', entry', by rw [if_neg hk]; exact hfind, hopen⟩
    · exact ⟨key, entry, by rw [if_pos rfl], hopen⟩

theorem exists_openAt {c : Core} {key : StreamKey} {entry : StreamEntry}
    (h : c.streams.find? key = some entry) (id : EventId) :
    (∃ key', c.OpenAt key' id) ↔ c.OpenElsewhere key id ∨
      entry.detector.hasOpenEpisode = true ∧ entry.detector.episode.id = id := by
  constructor
  · rintro ⟨key', entry', hfind, hopen⟩
    by_cases hk : key' = key
    · subst hk
      rw [h] at hfind
      cases hfind
      exact Or.inr hopen
    · exact Or.inl ⟨key', hk, entry', hfind, hopen⟩
  · rintro (⟨key', -, hopen⟩ | hopen)
    · exact ⟨key', hopen⟩
    · exact ⟨key, entry, h, hopen⟩

theorem openEvents_processDecision (c : Core) (d : Detector) (r : DetectionDecision) (now : Tick) :
    (c.processDecision d r now).episodeView =
      ({ c with decisionSeq := ⟨c.decisionSeq.raw + 1⟩ }.mirrorEpisode
        ({ c with decisionSeq := ⟨c.decisionSeq.raw + 1⟩ }.shell.decisionEvent d r) r now).episodeView := by
  unfold processDecision
  extract_lets c₁ c₂
  split
  · exact c₂.episodeView_maybeRequest r now
  · rfl

/-- The core a processed decision is mirrored in. -/
def processing (c : Core) (key : StreamKey) (entry : StreamEntry) (tick : Tick) : Core :=
  { c.setEntry key { entry with hasProcessed := true, lastProcessed := tick } with
    decisionSeq := ⟨c.decisionSeq.raw + 1⟩ }

theorem episodeView_mirrorDecision (c : Core) (key : StreamKey) {entry : StreamEntry}
    {r : DetectionDecision} (h : Governor.StreamEntry.unprocessed entry r.tick = true) (now : Tick) :
    (c.mirrorDecision key entry r now).episodeView =
      ((c.processing key entry r.tick).mirrorEpisode
        ((c.processing key entry r.tick).shell.decisionEvent entry.detector r) r now).episodeView := by
  rw [mirrorDecision, if_pos h]
  exact openEvents_processDecision _ entry.detector r now

/-- VISIT: a decision that is mirrored keeps table and detectors in agreement. -/
theorem Mirrored.visit {c : Core} (h : c.Mirrored) {key : StreamKey} {entry : StreamEntry}
    (hfind : c.streams.find? key = some entry) {d' : Detector} {r : DetectionDecision}
    (ha : Announces entry.detector.current d'.current r.verdict)
    (hprocess : Governor.StreamEntry.unprocessed { entry with detector := d' } r.tick = true)
    (htracked : Tracked key
      { detector := d', hasProcessed := true, lastProcessed := r.tick })
    (hdistinct : ¬ c.OpenElsewhere key d'.episode.id) (now : Tick) :
    (c.mirrorDecision key { entry with detector := d' } r now).Mirrored := by
  have hmirrored : mirroredEntry { entry with detector := d' } r.tick =
      { detector := d', hasProcessed := true, lastProcessed := r.tick } := by
    rw [mirroredEntry, if_pos hprocess]
  have hstreams := c.streams_mirrorDecision key { entry with detector := d' } r now
  rw [hmirrored] at hstreams
  refine ⟨fun key' entry' hfind' => ?_, fun id => ?_⟩
  · rw [hstreams, OrderedMap.find?_insert] at hfind'
    split at hfind'
    · rename_i hk
      cases hfind'
      exact hk ▸ htracked
    · exact h.tracked key' entry' hfind'
  · rw [exists_openAt_insert hstreams]
    have hview := congrArg EpisodeView.openEvents (c.episodeView_mirrorDecision key
      hprocess now)
    change (c.mirrorDecision key { entry with detector := d' } r now).openEvents = _ at hview
    rw [hview]
    exact table_announces ha (fun id => (h.table id).trans (exists_openAt hfind id)) hdistinct
      id_decisionEvent (fun id => mem_keys_mirrorEpisode
        (c := c.processing key { entry with detector := d' } r.tick)) id

/-! ### What a detector answers -/

/-- A decision the governor processes: announced at the tick, which becomes the last processed. -/
structure Visited (key : StreamKey) (entry : StreamEntry) (now : Tick) (d' : Detector)
    (r : DetectionDecision) : Prop where
  tick : r.tick = now
  unprocessed : Governor.StreamEntry.unprocessed entry now = true
  announces : Announces entry.detector.current d'.current r.verdict
  tracked : Tracked key { detector := d', hasProcessed := true, lastProcessed := now }
  onset : r.opened = true → entry.detector.freshAt now = true ∧
    d'.episode.metrics.onsetTick = entry.detector.onsetRun.getD now

/-- A decision the governor has processed before: nothing happened to the episode. -/
structure Repeated (key : StreamKey) (entry : StreamEntry) (d' : Detector) (r : DetectionDecision) :
    Prop where
  processed : Governor.StreamEntry.unprocessed entry r.tick = false
  same : d'.current = entry.detector.current
  tracked : Tracked key { entry with detector := d' }

theorem tracked_freshEntry (c : Core) (key : StreamKey) : Tracked key (c.freshEntry key) :=
  ⟨rfl, Or.inr ⟨rfl, rfl⟩, fun h => (by cases h), fun h => (by cases h)⟩

/-- A fence lies after the last evaluation, which was the last processed tick. -/
theorem Tracked.fenced {key : StreamKey} {entry : StreamEntry} (h : Tracked key entry) {now : Tick}
    (hopen : entry.detector.hasOpenEpisode = true)
    (hafter : Governor.StreamEntry.unprocessed entry now = true) :
    tickAfter now entry.detector.lastEvaluated = false := by
  obtain ⟨hprocessed, -, hlast⟩ := h.isOpen hopen
  rw [Governor.StreamEntry.unprocessed, hprocessed, hlast, Bool.not_true, Bool.false_or] at hafter
  simpa using not_tickAfter_of_tickAfter hafter

theorem Tracked.answer {key : StreamKey} {entry : StreamEntry} (h : Tracked key entry)
    {fences : Bool} {now : Tick} {d' : Detector} {r : DetectionDecision}
    (ha : Detector.Answer fences entry.detector now d' r)
    (hticks : (entry.detector.freshAt now || fences) = true →
      Governor.StreamEntry.unprocessed entry now = true) :
    Visited key entry now d' r ∨ Repeated key entry d' r := by
  have hkey : entry.detector.current.key = key := h.key
  cases ha with
  | fenced fencing announces wasOpen nowClosed run hasEvaluated lastEvaluated cached tick stream =>
    have hafter := hticks (by simp [fencing])
    obtain ⟨hkey', hnamed⟩ := announces.named h.named
    refine Or.inl ⟨tick, hafter, announces, ⟨hkey'.trans hkey, hnamed, fun hopen => ?_, fun he => ?_⟩,
      fun hopened => ?_⟩
    · rw [show d'.hasOpenEpisode = true from hopen] at nowClosed
      cases nowClosed
    · obtain ⟨-, -, hcached⟩ := h.evaluated (hasEvaluated ▸ he)
      dsimp only
      rw [lastEvaluated, cached]
      exact ⟨rfl, h.fenced wasOpen hafter, hcached⟩
    · exact absurd ((announces.of_open wasOpen).1.symm.trans hopened) Bool.false_ne_true
  | evaluated announces fresh run hasEvaluated lastEvaluated cached tick stream =>
    obtain ⟨hkey', hnamed⟩ := announces.named h.named
    refine Or.inl ⟨tick, hticks (by simp [fresh]), announces, ⟨hkey'.trans hkey, hnamed,
      fun _ => ⟨rfl, hasEvaluated, lastEvaluated.symm⟩, fun _ => ?_⟩, fun ho => ⟨fresh, run.onset ho⟩⟩
    dsimp only
    rw [lastEvaluated, cached]
    exact ⟨rfl, tickAfter_self now, tick⟩
  | cached same stale repeated =>
    have hevaluated : entry.detector.hasEvaluated = true := by
      by_contra hnot
      simp [Detector.freshAt, hnot] at stale
    obtain ⟨hprocessed, hlate, hcached⟩ := h.evaluated hevaluated
    refine Or.inr ⟨?_, same.current, ?_, ?_, fun hopen => ?_, fun _ => ?_⟩
    · rw [repeated, hcached, Governor.StreamEntry.unprocessed, hprocessed, hlate]
      rfl
    · exact (congrArg Current.key same.current).trans hkey
    · rw [show d'.current = entry.detector.current from same.current]
      exact h.named
    · have hopen' : entry.detector.hasOpenEpisode = true :=
        (congrArg Current.isOpen same.current).symm.trans hopen
      obtain ⟨hp, he, hl⟩ := h.isOpen hopen'
      exact ⟨hp, same.hasEvaluated.trans he, hl.trans same.lastEvaluated.symm⟩
    · dsimp only
      rw [same.lastEvaluated, same.cached]
      exact ⟨hprocessed, hlate, hcached⟩

/-! ### Steps -/

/-- Table and detectors agree, and every onset lies in a set. -/
structure MirroredIn (S : Set (StreamKey × Tick)) (c : Core) : Prop extends Mirrored c where
  seen : c.onsets ⊆ S

variable {S : Set (StreamKey × Tick)} {c : Core}

/-- A step that leaves the streams and the table alone. -/
theorem MirroredIn.congr {c' : Core} (h : c.MirroredIn S) (hstreams : c'.streams = c.streams)
    (hopen : c'.openEvents = c.openEvents) : c'.MirroredIn S := by
  obtain ⟨⟨htracked, htable⟩, hseen⟩ := h
  simp only [OpenAt, onsets, ← hstreams, ← hopen] at htracked htable hseen
  exact ⟨⟨htracked, htable⟩, hseen⟩

/-- Where identities are distinct, no other stream has an episode of this name open. -/
theorem MirroredIn.not_openElsewhere (hd : DistinctIdentities S) (h : c.MirroredIn S)
    {key : StreamKey} {d : Detector} (hkey : d.key = key) (hnamed : d.current.Named)
    (hseen : d.episode.id = makeEventId key d.episode.metrics.onsetTick →
      (key, d.episode.metrics.onsetTick) ∈ S) : ¬ c.OpenElsewhere key d.episode.id := by
  rintro ⟨key', hne, entry', hfind', hopen', hid'⟩
  obtain ⟨hmem', hid''⟩ := mem_onsets_of_open hfind' (h.tracked key' entry' hfind') hopen'
  have hown : d.episode.id = makeEventId key d.episode.metrics.onsetTick := by
    rcases hnamed with hnamed | ⟨hunset, -⟩
    · rw [← hkey]
      exact hnamed
    · -- an unset identity is not one any episode has
      have hvalid := makeEventId_valid key' entry'.detector.episode.metrics.onsetTick
      rw [← hid'', hid', show d.episode.id = default from hunset] at hvalid
      cases hvalid
  refine hne (congrArg Prod.fst (hd (h.seen hmem') (hseen hown) ?_))
  dsimp only
  rw [← hid'', hid', hown]

/-- The onsets after one stream changed are those of the others and that of its detector. -/
theorem onsets_insert_subset {c' : Core} {key : StreamKey} {entry : StreamEntry} (h : c.onsets ⊆ S)
    (hstreams : c'.streams = c.streams.insert key entry)
    (hseen : entry.detector.episode.id = makeEventId key entry.detector.episode.metrics.onsetTick →
      (key, entry.detector.episode.metrics.onsetTick) ∈ S) : c'.onsets ⊆ S := by
  rintro ⟨key', onset⟩ ⟨entry', hfind, rfl, hid⟩
  dsimp only at hfind hid ⊢
  rw [hstreams, OrderedMap.find?_insert] at hfind
  split at hfind
  · rename_i hk
    subst hk
    cases hfind
    exact hseen hid
  · exact h ⟨entry', hfind, rfl, hid⟩

/-- A decision seen before leaves table and detectors as they were. -/
theorem Mirrored.repeat {key : StreamKey} {entry : StreamEntry} {d' : Detector}
    {r : DetectionDecision} (h : c.Mirrored) (hfind : c.streams.find? key = some entry)
    (hr : Repeated key entry d' r) (now : Tick) :
    (c.mirrorDecision key { entry with detector := d' } r now).Mirrored := by
  have hstale : Governor.StreamEntry.unprocessed { entry with detector := d' } r.tick = false :=
    hr.processed
  rw [mirrorDecision, hstale]
  simp only [Bool.false_eq_true, if_false]
  refine ⟨fun key' entry' hfind' => ?_, fun id => ?_⟩
  · simp only [setEntry, OrderedMap.find?_insert] at hfind'
    split at hfind'
    · rename_i hk
      cases hfind'
      exact hk ▸ hr.tracked
    · exact h.tracked key' entry' hfind'
  · have hset : (c.setEntry key { entry with detector := d' }).streams =
        c.streams.insert key { entry with detector := d' } := rfl
    rw [exists_openAt_insert hset]
    refine ((h.table id).trans (exists_openAt hfind id)).trans ?_
    have hopen : d'.hasOpenEpisode = entry.detector.hasOpenEpisode := congrArg Current.isOpen hr.same
    have hid : d'.episode.id = entry.detector.episode.id := congrArg Current.id hr.same
    rw [← hopen, ← hid]

/-- MIRROR: whatever a detector answers, its mirror keeps table and detectors in agreement. -/
theorem MirroredIn.answer (hd : DistinctIdentities S) (h : c.MirroredIn S) {key : StreamKey}
    {entry : StreamEntry} (hfind : c.streams.find? key = some entry) {fences : Bool} {now : Tick}
    {d' : Detector} {r : DetectionDecision}
    (ha : Detector.Answer fences entry.detector now d' r)
    (hticks : (entry.detector.freshAt now || fences) = true →
      Governor.StreamEntry.unprocessed entry now = true)
    (hseen : d'.episode.id = makeEventId key d'.episode.metrics.onsetTick →
      (key, d'.episode.metrics.onsetTick) ∈ S) (at' : Tick) :
    (c.mirrorDecision key { entry with detector := d' } r at').MirroredIn S := by
  have hstreams := c.streams_mirrorDecision key { entry with detector := d' } r at'
  refine ⟨?_, onsets_insert_subset h.seen hstreams (by rw [detector_mirroredEntry]; exact hseen)⟩
  rcases (h.tracked key entry hfind).answer ha hticks with hvisited | hrepeated
  · obtain ⟨rfl, hafter, hannounces, htracked, -⟩ := hvisited
    exact h.toMirrored.visit hfind hannounces hafter htracked
      (h.not_openElsewhere hd htracked.key htracked.named hseen) at'
  · exact h.toMirrored.repeat hfind hrepeated at'

theorem MirroredIn.create (h : c.MirroredIn S) {key : StreamKey}
    (hnew : c.streams.find? key = none) : (c.setEntry key (c.freshEntry key)).MirroredIn S := by
  have hclosed : (c.freshEntry key).detector.hasOpenEpisode = false := rfl
  refine ⟨⟨fun key' entry' hfind => ?_, fun id => ?_⟩, onsets_insert_subset h.seen rfl fun hid => ?_⟩
  · simp only [setEntry, OrderedMap.find?_insert] at hfind
    split at hfind
    · rename_i hk
      cases hfind
      exact hk ▸ c.tracked_freshEntry key
    · exact h.tracked key' entry' hfind
  · have hset : (c.setEntry key (c.freshEntry key)).streams =
        c.streams.insert key (c.freshEntry key) := rfl
    rw [exists_openAt_insert hset, hclosed]
    refine (h.table id).trans ⟨?_, ?_⟩
    · rintro ⟨key', entry', hfind, hopen⟩
      refine Or.inl ⟨key', fun hk => ?_, entry', hfind, hopen⟩
      rw [hk, hnew] at hfind
      cases hfind
    · rintro (⟨key', -, hopen⟩ | ⟨hopen, -⟩)
      · exact ⟨key', hopen⟩
      · cases hopen
  · have hvalid := makeEventId_valid key (c.freshEntry key).detector.episode.metrics.onsetTick
    rw [← hid] at hvalid
    cases hvalid

theorem MirroredIn.raiseLastTick (h : c.MirroredIn S) (tick : Tick) :
    (c.raiseLastTick tick).MirroredIn S := by
  rw [Core.raiseLastTick]
  split
  · exact h.congr rfl rfl
  · exact h

theorem MirroredIn.refresh (h : c.MirroredIn S) (now : Tick) : (c.refresh now).MirroredIn S := by
  apply h.congr <;> rfl

theorem MirroredIn.observeGeneration (h : c.MirroredIn S) (sample : Sample) :
    (c.observeGeneration sample).MirroredIn S := by
  obtain ⟨resourceGenerations, heq⟩ := c.base_observeGeneration sample
  rw [heq]
  exact h.congr rfl rfl

/-- The onset of the detector a step leaves a stream with is one of those after the step. -/
theorem onset_of_entry {c' : Core} (entry : StreamEntry) (hsub : c'.onsets ⊆ S) {key : StreamKey}
    {tick : Tick} (hfind : c'.streams.find? key = some (mirroredEntry entry tick))
    (hid : entry.detector.episode.id = makeEventId key entry.detector.episode.metrics.onsetTick) :
    (key, entry.detector.episode.metrics.onsetTick) ∈ S :=
  hsub ⟨_, hfind, by rw [detector_mirroredEntry], by rw [detector_mirroredEntry]; exact hid⟩

theorem MirroredIn.ingest (hd : DistinctIdentities S) (h : c.MirroredIn S) {sample : Sample}
    (hticks : validateSample sample = .ok () →
      ∀ entry, c.streams.find? sample.stream = some entry →
        (entry.detector.freshAt sample.tick ||
          (entry.detector.changesGeneration sample && entry.detector.hasOpenEpisode)) = true →
        Governor.StreamEntry.unprocessed entry sample.tick = true)
    (hsub : (c.ingest sample).onsets ⊆ S) : (c.ingest sample).MirroredIn S := by
  refine ingest_induct h (fun hnew => h.create hnew) (fun c₁ h₁ => h₁.observeGeneration sample) ?_
    (fun c₁ tick h₁ => h₁.raiseLastTick tick) fun c₁ tick _ h₁ => h₁.refresh tick
  intro c₁ entry d' r hvalid h₁ hfind₁ hold ha hafter
  refine h₁.answer hd hfind₁ ha ?_ (onset_of_entry _ hsub hafter) r.tick
  rcases hold with hold | ⟨-, rfl⟩
  · exact hticks hvalid entry hold
  · exact fun _ => rfl

theorem MirroredIn.advance (hd : DistinctIdentities S) (h : c.MirroredIn S) {now : Tick}
    (hticks : ∀ key entry, c.streams.find? key = some entry → entry.detector.freshAt now = true →
      Governor.StreamEntry.unprocessed entry now = true)
    (hsub : (c.advance now).onsets ⊆ S) : (c.advance now).MirroredIn S :=
  advance_induct h (fun _ key entry _ _ h₁ hfind₁ hfind hfresh ha _ hafter =>
      h₁.answer hd hfind₁ ha (fun _ => hticks key entry hfind hfresh) (onset_of_entry _ hsub hafter) now)
    (fun _ h₁ => h₁.raiseLastTick now) fun _ h₁ => h₁.refresh now

/-! ### Rearming -/

theorem MirroredIn.adoptPolicies (h : c.MirroredIn S) (policies : PolicySet) :
    (c.adoptPolicies policies).MirroredIn S := h.congr rfl rfl

theorem Tracked.rearmed {key : StreamKey} {entry : StreamEntry} (h : Tracked key entry) (c : Core) :
    Tracked key (c.rearmedEntry entry) := by
  have hr := entry.detector.rearmed_rearm (c.policies.resolve entry.detector.key.resource)
    c.policies.generation c.lastTick
  have hclosed : (c.rearmedEntry entry).detector.hasOpenEpisode = false :=
    congrArg Current.isOpen hr.current
  refine ⟨hr.key.trans h.key, ?_, fun hopen => ?_, fun he => ?_⟩
  · rw [show (c.rearmedEntry entry).detector.current = _ from hr.current]
    rcases h.named with hnamed | ⟨hunset, -⟩
    · exact Or.inl hnamed
    · exact Or.inr ⟨hunset, rfl⟩
  · rw [hclosed] at hopen
    cases hopen
  · rw [show (c.rearmedEntry entry).detector.hasEvaluated = false from hr.restarted] at he
    cases he

theorem id_rearmedEvent (c : Core) (entry : StreamEntry) :
    (c.rearmedEvent entry).id = entry.detector.episode.id :=
  congrArg Current.id (entry.detector.rearmed_rearm
    (c.policies.resolve entry.detector.key.resource) c.policies.generation c.lastTick).current

/-- A rearmed detector keeps the identity and the onset of its episode. -/
theorem onsets_rearmStream_subset (h : c.onsets ⊆ S) (key : StreamKey) :
    (c.rearmStream key).onsets ⊆ S := by
  cases hfind : c.streams.find? key with
  | none =>
    rw [Core.rearmStream, hfind]
    exact h
  | some entry =>
    have hr := entry.detector.rearmed_rearm (c.policies.resolve entry.detector.key.resource)
      c.policies.generation c.lastTick
    have hid : (c.rearmedEntry entry).detector.episode.id = entry.detector.episode.id :=
      congrArg Current.id hr.current
    have honset : (c.rearmedEntry entry).detector.episode.metrics.onsetTick =
        entry.detector.episode.metrics.onsetTick := congrArg Current.onset hr.current
    refine onsets_insert_subset h (congrArg Base.streams (base_rearmStream hfind)) fun hown => ?_
    rw [hid, honset] at hown
    rw [honset]
    exact h ⟨entry, hfind, rfl, hown⟩

theorem MirroredIn.rearmStream (hd : DistinctIdentities S) (h : c.MirroredIn S) (key : StreamKey) :
    (c.rearmStream key).MirroredIn S := by
  cases hfind : c.streams.find? key with
  | none =>
    rw [Core.rearmStream, hfind]
    exact h
  | some entry =>
    have htracked := h.tracked key entry hfind
    have hr := entry.detector.rearmed_rearm (c.policies.resolve entry.detector.key.resource)
      c.policies.generation c.lastTick
    have hclosed : (c.rearmedEntry entry).detector.hasOpenEpisode = false :=
      congrArg Current.isOpen hr.current
    have hstreams : (c.rearmStream key).streams = c.streams.insert key (c.rearmedEntry entry) :=
      congrArg Base.streams (base_rearmStream hfind)
    have hseen : entry.detector.episode.id =
        makeEventId key entry.detector.episode.metrics.onsetTick →
          (key, entry.detector.episode.metrics.onsetTick) ∈ S := fun hown =>
      h.seen ⟨entry, hfind, rfl, hown⟩
    refine ⟨⟨fun key' entry' hfind' => ?_, fun id => ?_⟩, onsets_rearmStream_subset h.seen key⟩
    · rw [hstreams, OrderedMap.find?_insert] at hfind'
      split at hfind'
      · rename_i hk
        cases hfind'
        exact hk ▸ htracked.rearmed c
      · exact h.tracked key' entry' hfind'
    · have hbefore := (h.table id).trans (exists_openAt hfind id)
      rw [exists_openAt_insert hstreams, hclosed]
      have htable : id ∈ (c.rearmStream key).openEvents.keys ↔ id ∈ c.openEvents.keys ∧
          ¬ (entry.detector.hasOpenEpisode = true ∧ id = entry.detector.episode.id) := by
        rw [rearmStream_eq hfind]
        cases entry.detector.hasOpenEpisode with
        | true =>
          change id ∈ (c.openEvents.erase (c.rearmedEvent entry).id).keys ↔ _
          rw [UnorderedMap.mem_keys_erase, id_rearmedEvent]
          simp
        | false =>
          change id ∈ c.openEvents.keys ↔ _
          simp
      rw [htable, hbefore]
      have hother := h.not_openElsewhere hd htracked.key htracked.named hseen
      constructor
      · rintro ⟨helse | ⟨hopen, hid⟩, hnot⟩
        · exact Or.inl helse
        · exact absurd ⟨hopen, hid.symm⟩ hnot
      · rintro (helse | ⟨hopen, -⟩)
        · exact ⟨Or.inl helse, fun hown => hother (hown.2 ▸ helse)⟩
        · cases hopen

theorem MirroredIn.rearm (hd : DistinctIdentities S) : ∀ (keys : List StreamKey) {c : Core},
    c.MirroredIn S → (c.rearm keys).MirroredIn S
  | [], _, h => h
  | key :: keys, _, h => MirroredIn.rearm hd keys (h.rearmStream hd key)

end Core

namespace Governor

/-- Table and detectors agree: an episode is in the table exactly while its stream has it open, and
    the table holds no other. -/
structure EpisodesMirrored (g : Governor) : Prop where
  streams : ∀ key entry, g.streams.find? key = some entry →
    (entry.detector.hasOpenEpisode = true ↔ g.openEvents.contains entry.detector.episode.id = true)
  table : ∀ id, g.openEvents.contains id = true → ∃ key entry, g.streams.find? key = some entry ∧
    entry.detector.hasOpenEpisode = true ∧ entry.detector.episode.id = id

/-- Every evaluation and every fence comes after the last tick processed for its stream. -/
def MirrorsTicks (g : Governor) : Op → Prop
  | .ingest sample => validateSample sample = .ok () →
    ∀ entry, g.streams.find? sample.stream = some entry →
      (entry.detector.freshAt sample.tick ||
        (entry.detector.changesGeneration sample && entry.detector.hasOpenEpisode)) = true →
      StreamEntry.unprocessed entry sample.tick = true
  | .advance now => ∀ key entry, g.streams.find? key = some entry →
    entry.detector.freshAt now = true → StreamEntry.unprocessed entry now = true
  | _ => True

instance (g : Governor) : (op : Op) → Decidable (g.MirrorsTicks op)
  | .ingest sample => inferInstanceAs (Decidable (validateSample sample = .ok () →
    ∀ entry ∈ g.streams.find? sample.stream,
      (entry.detector.freshAt sample.tick ||
        (entry.detector.changesGeneration sample && entry.detector.hasOpenEpisode)) = true →
      StreamEntry.unprocessed entry sample.tick = true))
  | .advance now => decidable_of_iff (∀ e ∈ g.streams.entries,
      e.2.detector.freshAt now = true → StreamEntry.unprocessed e.2 now = true)
    ⟨fun h _ _ hfind => h _ (OrderedMap.find?_eq_some.mp hfind),
      fun h e he => h e.1 e.2 (OrderedMap.find?_eq_some.mpr he)⟩
  | .installPolicy _ | .setResourcePolicy _ _ | .removeResourcePolicy _ | .bindAuthority _ _ _
  | .setResourceGeneration _ _ | .setInterventionsEnabled _ | .bindStore _ | .checkpoint
  | .restore | .drainEmissions => isTrue trivial

/-- A governor beside the streams and onset ticks of all episodes its detectors had so far. -/
structure OnsetTrace where
  governor : Governor
  onsets : List (StreamKey × Tick) := []

def OnsetTrace.step (s : OnsetTrace) (op : Op) : OnsetTrace where
  governor := s.governor.step op
  onsets := s.onsets ++ (s.governor.step op).core.onsetList

def OnsetTrace.seen (s : OnsetTrace) : Set (StreamKey × Tick) := { p | p ∈ s.onsets }

theorem OnsetTrace.seen_step (s : OnsetTrace) (op : Op) :
    (s.step op).seen = s.seen ∪ (s.governor.step op).core.onsets := by
  ext p
  exact List.mem_append.trans (or_congr_right Core.mem_onsetList)

instance (s : OnsetTrace) : Decidable (Core.DistinctIdentities s.seen) :=
  decidable_of_iff (∀ p ∈ s.onsets, ∀ q ∈ s.onsets, makeEventId p.1 p.2 = makeEventId q.1 q.2 → p = q)
    ⟨fun h _ hp _ hq => h _ hp _ hq, fun h _ hp _ hq => h hp hq⟩

/-- A fresh governor, of whose streams nothing was seen. -/
def OnsetTrace.new (hashing : Hashing) (config : GovernorConfig) : OnsetTrace :=
  { governor := Governor.new hashing config }

theorem mirroredIn_step {S : Set (StreamKey × Tick)} (hd : Core.DistinctIdentities S) {g : Governor}
    {op : Op} (hok : g.MirrorsTicks op) (hsub : (g.core.step op).onsets ⊆ S)
    (h : g.core.MirroredIn S) : (g.core.step op).MirroredIn S := by
  cases op with
  | ingest sample => exact h.ingest hd hok hsub
  | advance now => exact h.advance hd hok hsub
  | installPolicy policy =>
    rw [Core.step, Core.installPolicy]
    split
    · exact h
    · exact (Core.MirroredIn.rearm hd _ (h.adoptPolicies _)).refresh _
  | setResourcePolicy resource policy =>
    rw [Core.step, Core.setResourcePolicy]
    split
    · exact h
    · exact (Core.MirroredIn.rearm hd _ (h.adoptPolicies _)).refresh _
  | removeResourcePolicy resource =>
    rw [Core.step, Core.removeResourcePolicy]
    split
    · exact h
    · exact (h.adoptPolicies _).refresh _
  | bindAuthority epoch incarnation boot =>
    rw [Core.step, Core.bindAuthority]
    split
    · exact h
    · exact h.congr rfl rfl
  | setResourceGeneration resource generation =>
    rw [Core.step, Core.setResourceGeneration]
    split
    · exact h
    · exact h.congr rfl rfl
  | setInterventionsEnabled enabled =>
    rw [Core.step, Core.setInterventionsEnabled]
    dsimp only
    split <;> exact h.congr rfl rfl
  | bindStore store => exact h
  | checkpoint => exact h
  | restore => exact h
  | drainEmissions => exact h

theorem mirroredIn_restored {S : Set (StreamKey × Tick)} {c c' : Core} {adopted : Option PolicySet}
    (hr : c.Restored adopted c') (h : c.MirroredIn S) : c'.MirroredIn S := by
  obtain ⟨_, _, _, _, rfl⟩ := hr
  cases adopted <;> exact h.congr rfl rfl

theorem mirroredIn_new (hashing : Hashing) (config : GovernorConfig) (S : Set (StreamKey × Tick)) :
    (Governor.new hashing config).core.MirroredIn S :=
  ⟨⟨fun _ _ h => (by cases h), fun id => ⟨fun h => (by cases h), fun ⟨_, _, h, _⟩ => (by cases h)⟩⟩,
    fun _ ⟨_, h, _⟩ => (by cases h)⟩

/-- What the onsets of a whole run bound holds at its end. -/
theorem OnsetTrace.meets_onsets {s : OnsetTrace} {ops : List Op} :
    Runs.Meets OnsetTrace.step (fun s' op => (s'.governor.step op).core.onsets ⊆
      (Runs.run OnsetTrace.step s ops).seen) s ops := by
  refine Runs.meets_mono (fun s' op h => ?_)
    (Runs.meets_subset_run (f := OnsetTrace.seen) fun s' op => ?_)
  · exact (s'.seen_step op ▸ Set.subset_union_right).trans h
  · exact s'.seen_step op ▸ Set.subset_union_left

theorem episodesMirrored_of_mirroredIn {S : Set (StreamKey × Tick)} {g : Governor}
    (hd : Core.DistinctIdentities S) (h : g.core.MirroredIn S) : g.EpisodesMirrored := by
  refine ⟨fun key entry hfind => ?_, fun id hid => ?_⟩
  · rw [UnorderedMap.contains_iff]
    have htracked := h.tracked key entry hfind
    refine Iff.trans ?_ ((h.table _).trans (Core.exists_openAt hfind _)).symm
    have hother := h.not_openElsewhere hd htracked.key htracked.named fun hown =>
      h.seen ⟨entry, hfind, rfl, hown⟩
    simp [hother]
  · exact (h.table id).mp (UnorderedMap.contains_iff.mp hid)

/-- AGREEMENT: in every run whose evaluations and fences all come after the last tick processed for
    their stream, the table of open episodes and the detectors agree. -/
theorem episodesMirrored_run (hashing : Hashing) (config : GovernorConfig) (ops : List Op)
    (hdistinct : Core.DistinctIdentities
      (Runs.run OnsetTrace.step (OnsetTrace.new hashing config) ops).seen)
    (hok : Runs.Meets OnsetTrace.step (fun s op => s.governor.MirrorsTicks op)
      (OnsetTrace.new hashing config) ops) :
    (Runs.run OnsetTrace.step (OnsetTrace.new hashing config) ops).governor.EpisodesMirrored := by
  have h := Runs.run_invariant
    (I := fun s : OnsetTrace => s.governor.core.Keyed ∧ s.governor.core.MirroredIn
      (Runs.run OnsetTrace.step (OnsetTrace.new hashing config) ops).seen)
    (fun s op h hok => ?_) ⟨keyed_new hashing config, mirroredIn_new hashing config _⟩
    (Runs.meets_and hok OnsetTrace.meets_onsets)
  · exact episodesMirrored_of_mirroredIn hdistinct h.2
  · obtain ⟨hkeyed, h⟩ := h
    obtain ⟨hticks, hsub⟩ := hok
    change (s.governor.step op).core.Keyed ∧ (s.governor.step op).core.MirroredIn _
    by_cases hop : op = .restore
    · subst hop
      have hr := s.governor.restored_restore
      exact ⟨Core.Restored.keyed hr hkeyed, mirroredIn_restored hr h⟩
    · rw [core_step hkeyed hop] at hsub ⊢
      exact ⟨Core.keyed_step hkeyed op, mirroredIn_step hdistinct hticks hsub h⟩

/-- A policy under which the second deep sample of a stream opens an episode. -/
def briskConfig : GovernorConfig := { policy := Detector.OnsetLog.briskPolicy }

def burstKey : StreamKey := ⟨⟨1⟩, ⟨1⟩, ⟨1⟩⟩

def burstSample (tick : UInt64) (generation : UInt32) : Op :=
  .ingest { stream := burstKey, tick := ⟨tick⟩, resourceGeneration := ⟨generation⟩, depth := 2048 }

/-- An episode opened, fenced at a later tick, and another stream of time after it. -/
theorem episodesMirrored_run_fenced : (Runs.run OnsetTrace.step (OnsetTrace.new .back briskConfig)
    [burstSample 1 1, burstSample 2 1, burstSample 3 1, burstSample 4 2,
      .advance ⟨5⟩]).governor.EpisodesMirrored :=
  episodesMirrored_run .back briskConfig _
    (by decide +kernel) (by decide +kernel)

/-- A stream's closed episode is still in the table. -/
def staleEpisode (g : Governor) (key : StreamKey) : Bool :=
  (g.streams.find? key).any fun entry =>
    !entry.detector.hasOpenEpisode && g.openEvents.contains entry.detector.episode.id

theorem not_mirrored_of_staleEpisode {g : Governor} (key : StreamKey)
    (h : g.staleEpisode key = true) : ¬ g.EpisodesMirrored := by
  intro hm
  rw [staleEpisode] at h
  cases hfind : g.streams.find? key with
  | none =>
    rw [hfind] at h
    cases h
  | some entry =>
    rw [hfind, Option.any_some, Bool.and_eq_true] at h
    obtain ⟨hclosed, htable⟩ := h
    rw [(hm.streams key entry hfind).mpr htable] at hclosed
    cases hclosed

/-- A late sample of another generation closes the episode in the detector alone. -/
theorem lateFence_unmirrored :
    let s := Runs.run OnsetTrace.step (OnsetTrace.new .back briskConfig)
      [burstSample 1 1, burstSample 2 1, burstSample 3 1, burstSample 2 2]
    Core.DistinctIdentities s.seen ∧ ¬ s.governor.EpisodesMirrored :=
  ⟨by decide +kernel, not_mirrored_of_staleEpisode burstKey (by decide +kernel)⟩

end Governor

end Mbg
