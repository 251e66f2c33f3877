import MicroburstGovernor.Governor.Episodes

/-! The log of episodes: every identity is announced as opened once, then as ended at most once.

    An identity in the table was opened and has not ended; one that ended left the table. The
    identities that were never opened are new as long as no stream has an episode at an onset of an
    earlier one. -/

namespace Mbg

/-- An emission of this kind ends its episode. -/
def EmissionKind.endsEpisode : EmissionKind → Bool
  | .episodeClosed | .episodeFenced => true
  | _ => false

namespace Core

open Detector (Current Announces)

/-- What the emissions of a log say about one episode, in order. -/
def courseOf (log : List Emission) (id : EventId) : List EmissionKind :=
  (log.filter fun e => e.event.id = id).map Emission.kind

theorem courseOf_append (log log' : List Emission) (id : EventId) :
    courseOf (log ++ log') id = courseOf log id ++ courseOf log' id := by
  rw [courseOf, List.filter_append, List.map_append]
  rfl

/-- An episode opened once and ended at most once. -/
def Once (course : List EmissionKind) : Prop :=
  course = [.episodeOpened] ∨ ∃ k, k.endsEpisode = true ∧ course = [.episodeOpened, k]

/-- The course of an episode in the table, and of one that is not. -/
def Course (course : List EmissionKind) (inTable : Prop) : Prop :=
  (inTable ∧ course = [.episodeOpened]) ∨
    (¬ inTable ∧ (course = [] ∨ ∃ k, k.endsEpisode = true ∧ course = [.episodeOpened, k]))

theorem Course.of_inTable {course : List EmissionKind} {inTable : Prop} (h : Course course inTable)
    (ht : inTable) : course = [.episodeOpened] := by
  rcases h with ⟨-, h⟩ | ⟨hnot, -⟩
  · exact h
  · exact absurd ht hnot

theorem Course.not_inTable {inTable : Prop} (h : Course [] inTable) : ¬ inTable := by
  rcases h with ⟨-, h⟩ | ⟨hnot, -⟩
  · cases h
  · exact hnot

theorem Course.congr {course : List EmissionKind} {inTable inTable' : Prop}
    (h : Course course inTable) (hiff : inTable' ↔ inTable) : Course course inTable' := by
  rw [Course, hiff]
  exact h

/-- The kind a decision's closing is announced as. -/
theorem endsEpisode_closing (fenced : Bool) :
    (if fenced then EmissionKind.episodeFenced else .episodeClosed).endsEpisode = true := by
  cases fenced <;> rfl

theorem courseOf_announced (event : BurstEvent) (r : DetectionDecision) (now : Tick) (id : EventId) :
    courseOf (announced event r now) id =
      if event.id = id then
        (if r.opened then [EmissionKind.episodeOpened] else []) ++
          if r.closed then [if r.fenced then .episodeFenced else .episodeClosed] else []
      else [] := by
  rw [announced, courseOf_append]
  by_cases h : event.id = id
  · cases r.opened <;> cases r.closed <;> simp [courseOf, h]
  · cases r.opened <;> cases r.closed <;> simp [courseOf, h]

/-- COURSE: a decision continues the course of every episode. -/
theorem course_announces {K K' : EventId → Prop} {log : EventId → List EmissionKind}
    {d d' : Current} {r : DetectionDecision} {event : BurstEvent} {now : Tick}
    (ha : Announces d d' r.verdict) (hcourse : ∀ id, Course (log id) (K id))
    (hopen : d.isOpen = true → K d.id) (hnew : r.opened = true → log d'.id = [])
    (hevent : (r.opened || r.updated || r.closed) = true → event.id = d'.id)
    (hafter : ∀ id, K' id ↔
      (K id ∨ id = event.id ∧ (r.opened || (r.updated && !r.closed)) = true) ∧
        ¬ (id = event.id ∧ r.closed = true)) (id : EventId) :
    Course (log id ++ courseOf (announced event r now) id) (K' id) := by
  have h := hcourse id
  rw [courseOf_announced]
  cases ha with
  | kept same opened updated closed =>
    rw [show r.opened = false from opened, show r.closed = false from closed]
    refine (Course.congr ?_ (hafter id))
    rw [show r.opened = false from opened, show r.updated = false from updated,
      show r.closed = false from closed]
    simpa using h
  | opened wasOpen now opened closed =>
    have hid := hevent (by simp [show r.opened = true from opened])
    have hnone := hnew opened
    rw [Course, hafter id, show r.opened = true from opened, show r.closed = false from closed, hid]
    by_cases hk : d'.id = id
    · subst hk
      simp [hnone]
    · rw [if_neg hk]
      refine (Course.congr ?_ (show _ ↔ K id from by simp [Ne.symm hk]))
      simpa using h
  | openedClosed wasOpen now opened closed =>
    have hid := hevent (by simp [show r.opened = true from opened])
    have hnone := hnew opened
    rw [Course, hafter id, show r.opened = true from opened, show r.closed = true from closed, hid]
    by_cases hk : d'.id = id
    · subst hk
      refine Or.inr ⟨by simp, Or.inr ⟨_, endsEpisode_closing r.fenced, by simp [hnone]⟩⟩
    · rw [if_neg hk]
      refine (Course.congr ?_ (show _ ↔ K id from by simp [Ne.symm hk]))
      simpa using h
  | updated wasOpen same opened updated closed =>
    have hid := hevent (by simp [show r.updated = true from updated])
    have hin := hopen wasOpen
    rw [show r.opened = false from opened, show r.closed = false from closed]
    refine (Course.congr ?_ ((hafter id).trans (show _ ↔ K id from ?_)))
    · simpa using h
    · rw [show r.opened = false from opened, show r.updated = true from updated,
        show r.closed = false from closed, hid, same]
      simp only [Bool.false_or, Bool.not_false, Bool.and_true, and_true, Bool.false_eq_true, and_false,
        not_false_eq_true]
      exact ⟨fun h => h.elim (fun h => h) fun h => h ▸ hin, Or.inl⟩
  | closed wasOpen now opened closed =>
    have hid := hevent (by simp [show r.closed = true from closed])
    have hsame : d'.id = d.id := by rw [now]
    have hin := hopen wasOpen
    rw [Course, hafter id, show r.opened = false from opened, show r.closed = true from closed, hid,
      hsame]
    by_cases hk : d.id = id
    · subst hk
      have hcourse := h.of_inTable hin
      refine Or.inr ⟨by simp, Or.inr ⟨_, endsEpisode_closing r.fenced, by simp [hcourse]⟩⟩
    · rw [if_neg hk]
      refine (Course.congr ?_ (show _ ↔ K id from by simp [Ne.symm hk]))
      simpa using h

/-! ### Counts -/

theorem counts_mirrorEpisode (c : Core) (event : BurstEvent) (r : DetectionDecision) (now : Tick) :
    (c.mirrorEpisode event r now).counts =
      ⟨c.counts.opened + if r.opened then 1 else 0,
        c.counts.closed + if r.closed && !r.fenced then 1 else 0,
        c.counts.fenced + if r.closed && r.fenced then 1 else 0⟩ := by
  unfold mirrorEpisode
  extract_lets c₁
  have h₁ : c₁.counts = ⟨c.counts.opened + if r.opened then 1 else 0, c.counts.closed,
      c.counts.fenced⟩ := by
    dsimp only [c₁]
    cases r.opened with
    | true => rfl
    | false => cases r.updated && !r.closed <;> simp
  cases r.closed with
  | false => simpa using h₁
  | true =>
    have hclose : (c₁.closeEpisode event r.fenced now).counts =
        if r.fenced then { c₁.counts with fenced := c₁.counts.fenced + 1 }
        else { c₁.counts with closed := c₁.counts.closed + 1 } := rfl
    rw [if_pos rfl, hclose, h₁]
    cases r.fenced <;> simp

/-- Opened episodes are those that ended and those in the table. -/
def Balanced (counts : EpisodeCounts) (size : ℕ) : Prop :=
  counts.opened = counts.closed + counts.fenced + UInt64.ofNat size

/-- BALANCE: a decision that continues the course of its episode keeps the counts balanced. -/
theorem balanced_announces {K K' : Finset EventId} (log : EventId → List EmissionKind)
    {counts : EpisodeCounts} {d d' : Current} {r : DetectionDecision} (event : BurstEvent)
    (ha : Announces d d' r.verdict) (hcourse : ∀ id, Course (log id) (id ∈ K))
    (hopen : d.isOpen = true → d.id ∈ K) (hnew : r.opened = true → log d'.id = [])
    (hevent : (r.opened || r.updated || r.closed) = true → event.id = d'.id)
    (hafter : ∀ id, id ∈ K' ↔
      (id ∈ K ∨ id = event.id ∧ (r.opened || (r.updated && !r.closed)) = true) ∧
        ¬ (id = event.id ∧ r.closed = true)) (h : Balanced counts K.card) :
    Balanced ⟨counts.opened + if r.opened then 1 else 0,
      counts.closed + if r.closed && !r.fenced then 1 else 0,
      counts.fenced + if r.closed && r.fenced then 1 else 0⟩ K'.card := by
  have hfresh : r.opened = true → d'.id ∉ K := fun ho => by
    have hid := hcourse d'.id
    rw [hnew ho] at hid
    exact hid.not_inTable
  simp only [Balanced] at h ⊢
  cases ha with
  | kept same opened updated closed =>
    have hK : K' = K := by
      ext id
      rw [hafter, show r.opened = false from opened, show r.updated = false from updated,
        show r.closed = false from closed]
      simp
    rw [hK, show r.opened = false from opened, show r.closed = false from closed]
    simpa using h
  | opened wasOpen now opened closed =>
    have hK : K' = insert d'.id K := by
      ext id
      rw [hafter, Finset.mem_insert, hevent (by simp [show r.opened = true from opened]),
        show r.opened = true from opened, show r.closed = false from closed]
      simp [or_comm]
    rw [hK, Finset.card_insert_of_notMem (hfresh opened), show r.opened = true from opened,
      show r.closed = false from closed, h]
    simp [UInt64.add_assoc]
  | openedClosed wasOpen now opened closed =>
    have hK : K' = K := by
      ext id
      rw [hafter, hevent (by simp [show r.opened = true from opened]),
        show r.opened = true from opened, show r.closed = true from closed]
      have hne : id ∈ K → id ≠ d'.id := fun hid heq => hfresh opened (heq ▸ hid)
      constructor
      · rintro ⟨hid | ⟨rfl, -⟩, hnot⟩
        · exact hid
        · exact absurd ⟨rfl, rfl⟩ hnot
      · exact fun hid => ⟨Or.inl hid, fun heq => hne hid heq.1⟩
    rw [hK, show r.opened = true from opened, show r.closed = true from closed, h]
    cases r.fenced <;> simp <;> ac_rfl
  | updated wasOpen same opened updated closed =>
    have hK : K' = K := by
      ext id
      rw [hafter, hevent (by simp [show r.updated = true from updated]),
        show r.opened = false from opened, show r.updated = true from updated,
        show r.closed = false from closed, same]
      simp only [Bool.false_or, Bool.not_false, Bool.and_true, and_true, Bool.false_eq_true, and_false,
        not_false_eq_true]
      exact ⟨fun hid => hid.elim (fun hid => hid) fun heq => heq ▸ hopen wasOpen, Or.inl⟩
    rw [hK, show r.opened = false from opened, show r.closed = false from closed]
    simpa using h
  | closed wasOpen now opened closed =>
    have hsame : d'.id = d.id := by rw [now]
    have hK : K' = K.erase d.id := by
      ext id
      rw [hafter, Finset.mem_erase, hevent (by simp [show r.closed = true from closed]), hsame,
        show r.opened = false from opened, show r.closed = true from closed]
      simp [and_comm]
    have hcard := Finset.card_erase_add_one (hopen wasOpen)
    rw [← hK] at hcard
    rw [show r.opened = false from opened, show r.closed = true from closed]
    rw [← hcard] at h
    rw [h]
    cases r.fenced <;> simp <;> ac_rfl

/-! ### The invariant -/

/-- The log so far: every identity has run its course, is that of an onset that was seen, and the
    counts agree with the log. -/
structure Logged (seen : Set (StreamKey × Tick)) (c : Core) : Prop where
  course : ∀ id, Course (courseOf c.episodes id) (id ∈ c.openEvents.keys)
  named : ∀ e ∈ c.episodes, ∃ p ∈ seen ∪ c.onsets, e.event.id = makeEventId p.1 p.2
  balanced : Balanced c.counts c.openEvents.size

variable {S seen : Set (StreamKey × Tick)} {c : Core}

/-- A step that leaves the streams, the table, the log and the counts alone. -/
theorem Logged.congr {c' : Core} (h : c.Logged seen) (hstreams : c'.streams = c.streams)
    (hview : c'.episodeView = c.episodeView) : c'.Logged seen := by
  obtain ⟨hcourse, hnamed, hbalanced⟩ := h
  have hopen : c'.openEvents = c.openEvents := congrArg EpisodeView.openEvents hview
  have hlog : c'.episodes = c.episodes := congrArg EpisodeView.episodes hview
  have hcounts : c'.counts = c.counts := congrArg EpisodeView.counts hview
  simp only [onsets, ← hstreams, ← hopen, ← hlog, ← hcounts] at hcourse hnamed hbalanced
  exact ⟨hcourse, hnamed, hbalanced⟩

/-- Onsets are still seen after the entry of one stream was replaced. -/
theorem seen_insert {c' : Core} {key : StreamKey} {entry' : StreamEntry}
    (hstreams : c'.streams = c.streams.insert key entry')
    (hkept : ∀ entry, c.streams.find? key = some entry →
      entry.detector.episode.id = makeEventId key entry.detector.episode.metrics.onsetTick →
        (key, entry.detector.episode.metrics.onsetTick) ∈ seen) :
    seen ∪ c.onsets ⊆ seen ∪ c'.onsets := by
  rintro ⟨key', onset⟩ (hp | ⟨entry, hfind, rfl, hid⟩)
  · exact Or.inl hp
  · dsimp only at hfind hid ⊢
    by_cases hk : key' = key
    · subst hk
      exact Or.inl (hkept entry hfind hid)
    · refine Or.inr ⟨entry, ?_, rfl, hid⟩
      rw [hstreams, OrderedMap.find?_insert_of_ne _ _ hk]
      exact hfind

/-- What a decision announces is about an episode named by its stream and onset. -/
theorem named_of_announced {d d' : Current} {v : DetectionDecision.Verdict} (h : Announces d d' v)
    (hd : d.Named) (hv : (v.opened || v.closed) = true) : d'.id = makeEventId d'.key d'.onset := by
  cases h with
  | kept _ opened _ closed =>
    rw [opened, closed] at hv
    cases hv
  | opened _ now => rw [now]
  | openedClosed _ now => rw [now]
  | updated _ _ opened _ closed =>
    rw [opened, closed] at hv
    cases hv
  | closed wasOpen now =>
    rw [now]
    exact hd.id_eq wasOpen

theorem mem_announced {event : BurstEvent} {r : DetectionDecision} {now : Tick} {e : Emission}
    (h : e ∈ announced event r now) : e.event = event ∧ (r.opened || r.closed) = true := by
  rw [announced, List.mem_append] at h
  rcases h with h | h
  · cases ho : r.opened with
    | false =>
      rw [ho] at h
      cases h
    | true =>
      rw [ho, if_pos rfl, List.mem_singleton] at h
      exact ⟨h ▸ rfl, rfl⟩
  · cases hc : r.closed with
    | false =>
      rw [hc] at h
      cases h
    | true =>
      rw [hc, if_pos rfl, List.mem_singleton] at h
      exact ⟨h ▸ rfl, Bool.or_true _⟩

/-- A stream's onset is new: no episode was ever named by it. -/
theorem Logged.courseOf_new (hd : DistinctIdentities S) (h : c.Logged seen) (hsub : seen ⊆ S)
    (hmirrored : c.MirroredIn S) {key : StreamKey} {onset : Tick} (hp : (key, onset) ∈ S)
    (hnew : (key, onset) ∉ seen ∪ c.onsets) : courseOf c.episodes (makeEventId key onset) = [] := by
  rw [courseOf, List.map_eq_nil_iff, List.filter_eq_nil_iff]
  intro e he
  simp only [decide_eq_true_eq]
  intro hid
  obtain ⟨p, hmem, hown⟩ := h.named e he
  have hpS : p ∈ S := hmem.elim (fun hs => hsub hs) fun ho => hmirrored.seen ho
  exact hnew (hd hpS hp (hown.symm.trans hid) ▸ hmem)

/-- VISIT: a processed decision continues the log. -/
theorem Logged.visit (hd : DistinctIdentities S) (h : c.Logged seen) (hsub : seen ⊆ S)
    (hmirrored : c.MirroredIn S) {key : StreamKey} {entry : StreamEntry}
    (hfind : c.streams.find? key = some entry) {d' : Detector} {r : DetectionDecision} {now : Tick}
    (hv : Visited key entry now d' r)
    (hkept : entry.detector.episode.id = makeEventId key entry.detector.episode.metrics.onsetTick →
      (key, entry.detector.episode.metrics.onsetTick) ∈ seen)
    (hseen : d'.episode.id = makeEventId key d'.episode.metrics.onsetTick →
      (key, d'.episode.metrics.onsetTick) ∈ S)
    (hnew : entry.detector.hasOpenEpisode = false → entry.detector.freshAt now = true →
      (key, entry.detector.onsetRun.getD now) ∉ seen) (at' : Tick) :
    (c.mirrorDecision key { entry with detector := d' } r at').Logged seen := by
  obtain ⟨htick, hafter, ha, htracked, honset⟩ := hv
  rw [← htick] at hafter
  have htracked₀ := hmirrored.tracked key entry hfind
  have hprocess : Governor.StreamEntry.unprocessed { entry with detector := d' } r.tick = true := hafter
  have hstreams := c.streams_mirrorDecision key { entry with detector := d' } r at'
  have hview := c.episodeView_mirrorDecision key hprocess at'
  have hevent := id_decisionEvent (c := c.processing key { entry with detector := d' } r.tick)
    (d := d') (r := r)
  generalize (c.processing key { entry with detector := d' } r.tick).shell.decisionEvent d' r = event
    at *
  generalize c.mirrorDecision key { entry with detector := d' } r at' = c' at *
  have hlog : c'.episodes = c.episodes ++ announced event r at' :=
    (congrArg EpisodeView.episodes hview).trans (episodes_mirrorEpisode _ _ r at')
  have hcounts := (congrArg EpisodeView.counts hview).trans (counts_mirrorEpisode _ event r at')
  change c'.counts = _ at hcounts
  have htable : ∀ id, id ∈ c'.openEvents.keys ↔
      (id ∈ c.openEvents.keys ∨ id = event.id ∧ (r.opened || (r.updated && !r.closed)) = true) ∧
        ¬ (id = event.id ∧ r.closed = true) := by
    intro id
    rw [show c'.openEvents = _ from congrArg EpisodeView.openEvents hview]
    exact mem_keys_mirrorEpisode
  have hin : entry.detector.current.isOpen = true → entry.detector.current.id ∈ c.openEvents.keys :=
    fun hopen => (hmirrored.table _).mpr ⟨key, entry, hfind, hopen, rfl⟩
  -- an opening is at an onset no episode had before
  have hfresh : r.opened = true → courseOf c.episodes d'.current.id = [] := by
    intro ho
    obtain ⟨hidle, hnow⟩ := ha.of_opened ho
    obtain ⟨hfreshAt, honset⟩ := honset ho
    have hid : d'.current.id = makeEventId key d'.episode.metrics.onsetTick := by
      rw [hnow, show entry.detector.current.key = key from htracked₀.key]
      rfl
    rw [hid]
    refine h.courseOf_new hd hsub hmirrored (hseen hid) ?_
    have hunseen := hnew hidle hfreshAt
    rw [← honset] at hunseen
    rintro (hs | ⟨entry', hfind', hsame, hown⟩)
    · exact hunseen hs
    · dsimp only at hfind' hsame hown
      rw [hfind] at hfind'
      cases hfind'
      rw [← hsame] at hunseen hown
      exact hunseen (hkept hown)
  refine ⟨fun id => ?_, fun e he => ?_, ?_⟩
  · rw [hlog, courseOf_append]
    exact course_announces ha h.course hin hfresh hevent htable id
  · have hgrow : seen ∪ c.onsets ⊆ seen ∪ c'.onsets := seen_insert hstreams fun entry' hfind' hown => by
      rw [hfind] at hfind'
      cases hfind'
      exact hkept hown
    rw [hlog, List.mem_append] at he
    rcases he with he | he
    · obtain ⟨p, hp, hown⟩ := h.named e he
      exact ⟨p, hgrow hp, hown⟩
    · obtain ⟨heq, hann⟩ := mem_announced he
      have hname := named_of_announced ha htracked₀.named hann
      rw [show d'.current.key = key from htracked.key] at hname
      have hentry : c'.streams.find? key =
          some (mirroredEntry { entry with detector := d' } r.tick) := by
        rw [hstreams, OrderedMap.find?_insert_self]
      refine ⟨(key, d'.episode.metrics.onsetTick), Or.inr ⟨_, hentry, ?_, ?_⟩, ?_⟩
      · rw [detector_mirroredEntry]
      · rw [detector_mirroredEntry]
        exact hname
      · rw [heq, hevent (by cases ho : r.opened <;> simp_all)]
        exact hname
  · rw [hcounts, UnorderedMap.size_eq_card]
    have hbalanced := h.balanced
    rw [UnorderedMap.size_eq_card] at hbalanced
    exact balanced_announces (courseOf c.episodes) event ha
      (fun id => (h.course id).congr List.mem_toFinset)
      (fun hopen => List.mem_toFinset.mpr (hin hopen)) hfresh hevent
      (fun id => by rw [List.mem_toFinset, List.mem_toFinset]; exact htable id) hbalanced

/-- A change of one stream's entry that leaves table, log and counts alone. -/
theorem Logged.insert {c' : Core} (h : c.Logged seen) {key : StreamKey} {entry' : StreamEntry}
    (hstreams : c'.streams = c.streams.insert key entry') (hview : c'.episodeView = c.episodeView)
    (hkept : ∀ entry, c.streams.find? key = some entry →
      entry.detector.episode.id = makeEventId key entry.detector.episode.metrics.onsetTick →
        (key, entry.detector.episode.metrics.onsetTick) ∈ seen) : c'.Logged seen := by
  have hopen : c'.openEvents = c.openEvents := congrArg EpisodeView.openEvents hview
  have hlog : c'.episodes = c.episodes := congrArg EpisodeView.episodes hview
  have hcounts : c'.counts = c.counts := congrArg EpisodeView.counts hview
  refine ⟨?_, fun e he => ?_, ?_⟩
  · rw [hopen, hlog]
    exact h.course
  · rw [hlog] at he
    obtain ⟨p, hp, hid⟩ := h.named e he
    exact ⟨p, seen_insert hstreams hkept hp, hid⟩
  · rw [hopen, hcounts]
    exact h.balanced

/-- Table, detectors and log agree. -/
structure Recorded (S past : Set (StreamKey × Tick)) (c : Core) : Prop extends MirroredIn S c where
  logged : c.Logged past

/-- RECORD: whatever a detector answers, its mirror keeps table, detectors and log in agreement. -/
theorem Recorded.answer (hd : DistinctIdentities S) (hsub : seen ⊆ S) (h : c.Recorded S seen)
    {key : StreamKey} {entry : StreamEntry} (hfind : c.streams.find? key = some entry)
    {fences : Bool} {now : Tick} {d' : Detector} {r : DetectionDecision}
    (ha : Detector.Answer fences entry.detector now d' r)
    (hticks : (entry.detector.freshAt now || fences) = true →
      Governor.StreamEntry.unprocessed entry now = true)
    (hkept : entry.detector.episode.id = makeEventId key entry.detector.episode.metrics.onsetTick →
      (key, entry.detector.episode.metrics.onsetTick) ∈ seen)
    (hseen : d'.episode.id = makeEventId key d'.episode.metrics.onsetTick →
      (key, d'.episode.metrics.onsetTick) ∈ S)
    (hnew : entry.detector.hasOpenEpisode = false → entry.detector.freshAt now = true →
      (key, entry.detector.onsetRun.getD now) ∉ seen) (at' : Tick) :
    (c.mirrorDecision key { entry with detector := d' } r at').Recorded S seen := by
  refine ⟨h.toMirroredIn.answer hd hfind ha hticks hseen at', ?_⟩
  rcases (h.tracked key entry hfind).answer ha hticks with hvisited | hrepeated
  · exact h.logged.visit hd hsub h.toMirroredIn hfind hvisited hkept hseen hnew at'
  · have hstale : Governor.StreamEntry.unprocessed { entry with detector := d' } r.tick = false :=
      hrepeated.processed
    refine h.logged.insert (c.streams_mirrorDecision key { entry with detector := d' } r at') ?_
      fun entry' hfind' hown => ?_
    · rw [mirrorDecision, hstale]
      rfl
    · rw [hfind] at hfind'
      cases hfind'
      exact hkept hown

theorem Recorded.refresh (h : c.Recorded S seen) (now : Tick) : (c.refresh now).Recorded S seen :=
  ⟨h.toMirroredIn.refresh now, by apply h.logged.congr <;> rfl⟩

theorem Recorded.raiseLastTick (h : c.Recorded S seen) (tick : Tick) :
    (c.raiseLastTick tick).Recorded S seen := by
  refine ⟨h.toMirroredIn.raiseLastTick tick, ?_⟩
  rw [Core.raiseLastTick]
  split
  · exact h.logged.congr rfl rfl
  · exact h.logged

theorem Recorded.observeGeneration (h : c.Recorded S seen) (sample : Sample) :
    (c.observeGeneration sample).Recorded S seen := by
  refine ⟨h.toMirroredIn.observeGeneration sample, ?_⟩
  obtain ⟨resourceGenerations, heq⟩ := c.base_observeGeneration sample
  rw [heq]
  exact h.logged.congr rfl rfl

theorem Recorded.ingest (hd : DistinctIdentities S) (hsub : seen ⊆ S) (h : c.Recorded S seen)
    (hkept : c.onsets ⊆ seen) (hknown : ∀ p ∈ seen, ∃ entry, c.streams.find? p.1 = some entry)
    {sample : Sample}
    (hticks : validateSample sample = .ok () →
      ∀ entry, c.streams.find? sample.stream = some entry →
        (entry.detector.freshAt sample.tick ||
          (entry.detector.changesGeneration sample && entry.detector.hasOpenEpisode)) = true →
        Governor.StreamEntry.unprocessed entry sample.tick = true)
    (hnew : validateSample sample = .ok () →
      ∀ entry, c.streams.find? sample.stream = some entry →
        entry.detector.hasOpenEpisode = false → entry.detector.freshAt sample.tick = true →
        (sample.stream, entry.detector.onsetRun.getD sample.tick) ∉ seen)
    (hsub' : (c.ingest sample).onsets ⊆ S) : (c.ingest sample).Recorded S seen := by
  refine ingest_induct h (fun hnone => ?_) (fun c₁ h₁ => h₁.observeGeneration sample) ?_
    (fun c₁ tick h₁ => h₁.raiseLastTick tick) fun c₁ tick _ h₁ => h₁.refresh tick
  · refine ⟨h.toMirroredIn.create hnone, h.logged.insert rfl rfl fun entry' hfind' => ?_⟩
    rw [hnone] at hfind'
    cases hfind'
  · intro c₁ entry d' r hvalid h₁ hfind₁ hold ha hafter
    have hseen := onset_of_entry { entry with detector := d' } hsub' hafter
    rcases hold with hentry | ⟨hnone, rfl⟩
    · exact h₁.answer hd hsub hfind₁ ha (hticks hvalid entry hentry)
        (fun hown => hkept ⟨entry, hentry, rfl, hown⟩) hseen (hnew hvalid entry hentry) r.tick
    · -- a stream that is not known yet has evaluated nothing and was never seen
      refine h₁.answer hd hsub hfind₁ ha (fun _ => rfl) (fun hown => ?_) hseen (fun _ _ hs => ?_) r.tick
      · have hvalid := makeEventId_valid sample.stream
          (c.freshEntry sample.stream).detector.episode.metrics.onsetTick
        rw [← hown] at hvalid
        cases hvalid
      · obtain ⟨entry', hentry'⟩ := hknown _ hs
        rw [hnone] at hentry'
        cases hentry'

theorem Recorded.advance (hd : DistinctIdentities S) (hsub : seen ⊆ S) (h : c.Recorded S seen)
    (hkept : c.onsets ⊆ seen) {now : Tick}
    (hticks : ∀ key entry, c.streams.find? key = some entry → entry.detector.freshAt now = true →
      Governor.StreamEntry.unprocessed entry now = true)
    (hnew : ∀ key entry, c.streams.find? key = some entry → entry.detector.hasOpenEpisode = false →
      entry.detector.freshAt now = true → (key, entry.detector.onsetRun.getD now) ∉ seen)
    (hsub' : (c.advance now).onsets ⊆ S) : (c.advance now).Recorded S seen :=
  advance_induct h (fun _ key entry _ _ h₁ hfind₁ hfind hfresh ha _ hafter =>
      h₁.answer hd hsub hfind₁ ha (fun _ => hticks key entry hfind hfresh)
        (fun hown => hkept ⟨entry, hfind, rfl, hown⟩) (onset_of_entry _ hsub' hafter)
        (hnew key entry hfind) now)
    (fun _ h₁ => h₁.raiseLastTick now) fun _ h₁ => h₁.refresh now

/-! ### Rearming -/

theorem Recorded.adoptPolicies (h : c.Recorded S seen) (policies : PolicySet) :
    (c.adoptPolicies policies).Recorded S seen :=
  ⟨h.toMirroredIn.adoptPolicies policies, h.logged.congr rfl rfl⟩

/-- What the rearming of a stream with an open episode says about it. -/
def rearmDecision : DetectionDecision := { closed := true, fenced := true }

theorem Logged.rearmStream (h : c.Logged seen) (hmirrored : c.MirroredIn S) {key : StreamKey}
    (hkept : ∀ entry, c.streams.find? key = some entry →
      entry.detector.episode.id = makeEventId key entry.detector.episode.metrics.onsetTick →
        (key, entry.detector.episode.metrics.onsetTick) ∈ seen) :
    (c.rearmStream key).Logged seen := by
  cases hfind : c.streams.find? key with
  | none =>
    rw [Core.rearmStream, hfind]
    exact h
  | some entry =>
    have hstreams : (c.rearmStream key).streams = c.streams.insert key (c.rearmedEntry entry) :=
      congrArg Base.streams (base_rearmStream hfind)
    have heq := rearmStream_eq hfind
    cases hopen : entry.detector.hasOpenEpisode with
    | false =>
      rw [hopen, if_neg Bool.false_ne_true] at heq
      exact h.insert hstreams (heq ▸ rfl) hkept
    | true =>
      rw [hopen, if_pos rfl] at heq
      have hid := c.id_rearmedEvent entry
      have htracked := hmirrored.tracked key entry hfind
      have hname := htracked.named.id_eq hopen
      rw [show entry.detector.current.key = key from htracked.key] at hname
      have ha : Announces entry.detector.current { entry.detector.current with isOpen := false }
          rearmDecision.verdict := .closed hopen rfl rfl rfl rfl
      have hin : entry.detector.current.isOpen = true →
          entry.detector.current.id ∈ c.openEvents.keys := fun hopen =>
        (hmirrored.table _).mpr ⟨key, entry, hfind, hopen, rfl⟩
      generalize c.rearmedEvent entry = event at *
      generalize c.rearmStream key = c' at *
      have hlog : c'.episodes = c.episodes ++ announced event rearmDecision c.lastTick := by
        rw [heq]
        rfl
      have hcounts : c'.counts = ⟨c.counts.opened + 0, c.counts.closed + 0, c.counts.fenced + 1⟩ := by
        rw [heq, UInt64.add_zero, UInt64.add_zero]
        rfl
      have htable : ∀ id, id ∈ c'.openEvents.keys ↔
          (id ∈ c.openEvents.keys ∨ id = event.id ∧
            (rearmDecision.opened || (rearmDecision.updated && !rearmDecision.closed)) = true) ∧
          ¬ (id = event.id ∧ rearmDecision.closed = true) := by
        intro id
        have hkeys : c'.openEvents = c.openEvents.erase event.id := by
          rw [heq]
          rfl
        rw [hkeys, UnorderedMap.mem_keys_erase]
        simp [rearmDecision]
      have hnone : rearmDecision.opened = true → courseOf c.episodes entry.detector.current.id = [] :=
        fun ho => by cases ho
      have hevent : (rearmDecision.opened || rearmDecision.updated || rearmDecision.closed) = true →
          event.id = entry.detector.current.id := fun _ => hid
      refine ⟨fun id => ?_, fun e he => ?_, ?_⟩
      · rw [hlog, courseOf_append]
        exact course_announces ha h.course hin hnone hevent htable id
      · rw [hlog, List.mem_append] at he
        have hgrow := seen_insert hstreams hkept
        rcases he with he | he
        · obtain ⟨p, hp, hown⟩ := h.named e he
          exact ⟨p, hgrow hp, hown⟩
        · refine ⟨(key, entry.detector.episode.metrics.onsetTick), Or.inl (hkept entry hfind hname), ?_⟩
          rw [(mem_announced he).1, hid]
          exact hname
      · rw [hcounts, UnorderedMap.size_eq_card]
        have hbalanced := h.balanced
        rw [UnorderedMap.size_eq_card] at hbalanced
        exact balanced_announces (courseOf c.episodes) event ha
          (fun id => (h.course id).congr List.mem_toFinset)
          (fun hopen => List.mem_toFinset.mpr (hin hopen)) hnone hevent
          (fun id => by rw [List.mem_toFinset, List.mem_toFinset]; exact htable id) hbalanced

theorem Recorded.rearm (hd : DistinctIdentities S) : ∀ (keys : List StreamKey) {c : Core},
    c.Recorded S seen → c.onsets ⊆ seen → (c.rearm keys).Recorded S seen
  | [], _, h, _ => h
  | key :: keys, c, h, hkept => by
    refine Recorded.rearm hd keys (c := c.rearmStream key)
      ⟨h.toMirroredIn.rearmStream hd key, h.logged.rearmStream h.toMirroredIn
        fun entry hfind hown => hkept ⟨entry, hfind, rfl, hown⟩⟩ (onsets_rearmStream_subset hkept key)

/-! ### Known streams -/

/-- A stream is known: it has an entry. -/
def Knows (c : Core) (key : StreamKey) : Prop := ∃ entry, c.streams.find? key = some entry

theorem knows_insert {c' : Core} {key key' : StreamKey} {entry : StreamEntry}
    (hstreams : c'.streams = c.streams.insert key entry) (h : c.Knows key') : c'.Knows key' := by
  rw [Knows, hstreams, OrderedMap.find?_insert]
  split
  · exact ⟨_, rfl⟩
  · exact h

theorem knows_raiseLastTick {key : StreamKey} (h : c.Knows key) (tick : Tick) :
    (c.raiseLastTick tick).Knows key := by
  rw [raiseLastTick]
  split <;> exact h

theorem knows_ingest {key : StreamKey} (h : c.Knows key) (sample : Sample) :
    (c.ingest sample).Knows key := by
  refine ingest_induct (P := fun c' => c'.Knows key) h (fun _ => knows_insert rfl h) (fun c₁ h₁ => ?_)
    (fun c₁ entry d' r _ h₁ _ _ _ _ => knows_insert (c₁.streams_mirrorDecision _ _ r r.tick) h₁)
    (fun c₁ tick h₁ => knows_raiseLastTick h₁ tick) fun c₁ tick _ h₁ => h₁
  obtain ⟨resourceGenerations, heq⟩ := c₁.base_observeGeneration sample
  rw [heq]
  exact h₁

theorem knows_advance {key : StreamKey} (h : c.Knows key) (now : Tick) :
    (c.advance now).Knows key := by
  obtain ⟨entry, hfind⟩ := h
  exact ⟨_, find?_advance hfind⟩

theorem knows_rearm {key : StreamKey} (h : c.Knows key) {keys : List StreamKey}
    (hnodup : keys.Nodup) : (c.rearm keys).Knows key := by
  obtain ⟨entry, hfind⟩ := h
  rw [Knows, find?_rearm keys c hnodup, hfind]
  split <;> exact ⟨_, rfl⟩

/-- A known stream stays known. -/
theorem knows_step {key : StreamKey} (h : c.Knows key) (op : Governor.Op) : (c.step op).Knows key := by
  cases op with
  | ingest sample => exact knows_ingest h sample
  | advance now => exact knows_advance h now
  | installPolicy policy =>
    rw [step, installPolicy]
    split
    · exact h
    · exact knows_rearm (c := c.adoptPolicies _) h c.streams.nodup_keys
  | setResourcePolicy resource policy =>
    rw [step, setResourcePolicy]
    split
    · exact h
    · exact knows_rearm (c := c.adoptPolicies _) h (c.streams.nodup_keys.filter _)
  | removeResourcePolicy resource =>
    rw [step, removeResourcePolicy]
    split <;> exact h
  | bindAuthority epoch incarnation boot =>
    rw [step, bindAuthority]
    split <;> exact h
  | setResourceGeneration resource generation =>
    rw [step, setResourceGeneration]
    split <;> exact h
  | setInterventionsEnabled enabled =>
    rw [step, setInterventionsEnabled]
    dsimp only
    split <;> exact h
  | bindStore _ => exact h
  | checkpoint => exact h
  | restore => exact h
  | drainEmissions => exact h

end Core

namespace Governor

/-- The emissions about episodes: each identity opened once and ended at most once, and the counts
    balanced. -/
structure EpisodesOnce (g : Governor) : Prop where
  course : ∀ id, let course := Core.courseOf (g.ledger.emitted.filter fun e => e.kind.ofEpisode) id
    course = [] ∨ Core.Once course
  balanced : g.stats.episodesOpened =
    g.stats.episodesClosed + g.stats.episodesFenced + UInt64.ofNat g.openEvents.size

/-- No evaluation of an idle stream counts its onset from a tick at which an earlier episode of the
    stream had its own: only a clock that wrapped around comes back to one. -/
def OnsetTrace.StartsAnew (s : OnsetTrace) : Op → Prop
  | .ingest sample => validateSample sample = .ok () →
    ∀ entry, s.governor.streams.find? sample.stream = some entry →
      entry.detector.hasOpenEpisode = false → entry.detector.freshAt sample.tick = true →
      (sample.stream, entry.detector.onsetRun.getD sample.tick) ∉ s.onsets
  | .advance now => ∀ key entry, s.governor.streams.find? key = some entry →
    entry.detector.hasOpenEpisode = false → entry.detector.freshAt now = true →
    (key, entry.detector.onsetRun.getD now) ∉ s.onsets
  | _ => True

instance (s : OnsetTrace) : (op : Op) → Decidable (s.StartsAnew op)
  | .ingest sample => inferInstanceAs (Decidable (validateSample sample = .ok () →
    ∀ entry ∈ s.governor.streams.find? sample.stream,
      entry.detector.hasOpenEpisode = false → entry.detector.freshAt sample.tick = true →
      (sample.stream, entry.detector.onsetRun.getD sample.tick) ∉ s.onsets))
  | .advance now => decidable_of_iff (∀ e ∈ s.governor.streams.entries,
      e.2.detector.hasOpenEpisode = false → e.2.detector.freshAt now = true →
      (e.1, e.2.detector.onsetRun.getD now) ∉ s.onsets)
    ⟨fun h _ _ hfind => h _ (OrderedMap.find?_eq_some.mp hfind),
      fun h e he => h e.1 e.2 (OrderedMap.find?_eq_some.mpr he)⟩
  | .installPolicy _ | .setResourcePolicy _ _ | .removeResourcePolicy _ | .bindAuthority _ _ _
  | .setResourceGeneration _ _ | .setInterventionsEnabled _ | .bindStore _ | .checkpoint
  | .restore | .drainEmissions => isTrue trivial

theorem recorded_step {S : Set (StreamKey × Tick)} (hd : Core.DistinctIdentities S) {s : OnsetTrace}
    {op : Op} (hticks : s.governor.MirrorsTicks op) (hnew : s.StartsAnew op) (hseen : s.seen ⊆ S)
    (hsub : (s.governor.core.step op).onsets ⊆ S) (hkept : s.governor.core.onsets ⊆ s.seen)
    (hknown : ∀ p ∈ s.seen, s.governor.core.Knows p.1) (h : s.governor.core.Recorded S s.seen) :
    (s.governor.core.step op).Recorded S s.seen := by
  have hmirrored := mirroredIn_step hd hticks hsub h.toMirroredIn
  cases op with
  | ingest sample => exact h.ingest hd hseen hkept hknown hticks hnew hsub
  | advance now => exact h.advance hd hseen hkept hticks hnew hsub
  | installPolicy policy =>
    rw [Core.step, Core.installPolicy] at hmirrored ⊢
    split
    · exact h
    · exact (Core.Recorded.rearm hd _ (h.adoptPolicies _) hkept).refresh _
  | setResourcePolicy resource policy =>
    rw [Core.step, Core.setResourcePolicy]
    split
    · exact h
    · exact (Core.Recorded.rearm hd _ (h.adoptPolicies _) hkept).refresh _
  | removeResourcePolicy resource =>
    rw [Core.step, Core.removeResourcePolicy]
    split
    · exact h
    · exact (h.adoptPolicies _).refresh _
  | bindAuthority epoch incarnation boot =>
    refine ⟨hmirrored, ?_⟩
    rw [Core.step, Core.bindAuthority]
    split
    · exact h.logged
    · exact h.logged.congr rfl rfl
  | setResourceGeneration resource generation =>
    refine ⟨hmirrored, ?_⟩
    rw [Core.step, Core.setResourceGeneration]
    split
    · exact h.logged
    · exact h.logged.congr rfl rfl
  | setInterventionsEnabled enabled =>
    refine ⟨hmirrored, ?_⟩
    rw [Core.step, Core.setInterventionsEnabled]
    dsimp only
    split <;> exact h.logged.congr rfl rfl
  | bindStore store => exact h
  | checkpoint => exact h
  | restore => exact h
  | drainEmissions => exact h

/-- What a run keeps: governor and log agree, all onsets are seen, and theirs are known streams. -/
structure OnsetTrace.Kept (S : Set (StreamKey × Tick)) (s : OnsetTrace) : Prop where
  keyed : s.governor.core.Keyed
  recorded : s.governor.core.Recorded S s.seen
  onsets : s.governor.core.onsets ⊆ s.seen
  known : ∀ p ∈ s.seen, s.governor.core.Knows p.1
  within : s.seen ⊆ S

theorem OnsetTrace.kept_new (hashing : Hashing) (config : GovernorConfig)
    (S : Set (StreamKey × Tick)) : (OnsetTrace.new hashing config).Kept S where
  keyed := keyed_new hashing config
  recorded :=
    { toMirroredIn := mirroredIn_new hashing config S
      logged :=
        { course := fun _ => Or.inr ⟨fun h => (by cases h), Or.inl rfl⟩
          named := fun _ h => by cases h
          balanced := rfl } }
  onsets := fun _ ⟨_, h, _⟩ => by cases h
  known := fun _ h => by cases h
  within := fun _ h => by cases h

theorem OnsetTrace.Kept.step {S : Set (StreamKey × Tick)} (hd : Core.DistinctIdentities S)
    {s : OnsetTrace} (h : s.Kept S) {op : Op} (hop : op ≠ .restore)
    (hticks : s.governor.MirrorsTicks op) (hnew : s.StartsAnew op)
    (hsub : (s.governor.step op).core.onsets ⊆ S) : (s.step op).Kept S := by
  have hcore := core_step h.keyed hop
  rw [hcore] at hsub
  have hrecorded := recorded_step hd hticks hnew h.within hsub h.onsets h.known h.recorded
  have hkeyed := Core.keyed_step h.keyed op
  have hknows := fun key (hk : s.governor.core.Knows key) => Core.knows_step hk op
  rw [← hcore] at hsub hrecorded hkeyed hknows
  obtain ⟨hmirrored, hcourse, hnamed, hbalanced⟩ := hrecorded
  have hseen := s.seen_step op
  refine ⟨hkeyed, ?_, ?_, ?_, ?_⟩
  all_goals rw [hseen]
  · refine ⟨hmirrored, hcourse, fun e he => ?_, hbalanced⟩
    obtain ⟨p, hp, hid⟩ := hnamed e he
    exact ⟨p, Or.inl hp, hid⟩
  · exact Set.subset_union_right
  · rintro p (hp | ⟨entry, hfind, -⟩)
    · exact hknows p.1 (h.known p hp)
    · exact ⟨entry, hfind⟩
  · exact Set.union_subset h.within hsub

theorem OnsetTrace.Kept.episodesOnce {S : Set (StreamKey × Tick)} {s : OnsetTrace} (h : s.Kept S) :
    s.governor.EpisodesOnce := by
  refine ⟨fun id => ?_, h.recorded.logged.balanced⟩
  rcases h.recorded.logged.course id with ⟨-, hopened⟩ | ⟨-, hnone | hended⟩
  · exact Or.inr (Or.inl hopened)
  · exact Or.inl hnone
  · exact Or.inr (Or.inr hended)

/-- ONCE: in every run without recovery whose evaluations and fences all come after the last tick
    processed for their stream and which starts no episode at an onset used before, every episode is
    announced as opened once and as ended at most once. -/
theorem episodesOnce_run (hashing : Hashing) (config : GovernorConfig) (ops : List Op)
    (hrestore : ∀ op ∈ ops, op ≠ .restore)
    (hdistinct : Core.DistinctIdentities
      (Runs.run OnsetTrace.step (OnsetTrace.new hashing config) ops).seen)
    (hok : Runs.Meets OnsetTrace.step (fun s op => s.governor.MirrorsTicks op ∧ s.StartsAnew op)
      (OnsetTrace.new hashing config) ops) :
    (Runs.run OnsetTrace.step (OnsetTrace.new hashing config) ops).governor.EpisodesOnce := by
  have hops : Runs.Meets OnsetTrace.step (fun _ op => op ≠ .restore)
      (OnsetTrace.new hashing config) ops :=
    Runs.meets_of_invariant (I := fun _ => True) (fun _ _ _ h => ⟨h, trivial⟩) trivial hrestore
  exact (Runs.run_invariant (I := OnsetTrace.Kept
      (Runs.run OnsetTrace.step (OnsetTrace.new hashing config) ops).seen)
    (fun _ _ h hok => h.step hdistinct hok.2.2 hok.1.1 hok.1.2 hok.2.1)
    (OnsetTrace.kept_new hashing config _)
    (Runs.meets_and hok (Runs.meets_and OnsetTrace.meets_onsets hops))).episodesOnce

/-- Two episodes of a stream, the first fenced by a rebuilt resource, the second by a policy. -/
theorem episodesOnce_run_fenced : (Runs.run OnsetTrace.step (OnsetTrace.new .back briskConfig)
    [burstSample 1 1, burstSample 2 1, burstSample 3 1, burstSample 4 2, burstSample 5 2,
      burstSample 6 2, burstSample 7 2,
      .installPolicy Detector.OnsetLog.briskPolicy]).governor.EpisodesOnce :=
  episodesOnce_run .back briskConfig _ (by simp [burstSample]) (by decide +kernel) (by decide +kernel)

/-- A rearmed detector opens an episode at ticks its stream has processed: the governor announces
    its end alone. -/
theorem rewoundOpening_unannounced :
    let s := Runs.run OnsetTrace.step (OnsetTrace.new .back briskConfig)
      [burstSample 13 1, .installPolicy Detector.OnsetLog.briskPolicy, burstSample 1 1,
        burstSample 2 1, burstSample 3 1, burstSample 14 2]
    Core.DistinctIdentities s.seen ∧ ¬ s.governor.EpisodesOnce :=
  ⟨by decide +kernel, fun h => absurd h.balanced (by decide +kernel)⟩

end Governor

end Mbg
