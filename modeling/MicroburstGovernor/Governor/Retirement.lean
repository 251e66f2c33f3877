import MicroburstGovernor.Governor.NamedStreams
import MicroburstGovernor.Model.Restorable

/-! What a call retires, and whether anything real asks for it.

    One revalidation serves every stream and every entry point, and each caller passes it a tick of
    its own: the tick a detector answered at, the tick time was advanced to, or the last tick. An
    intent issued after that tick is judged not issued, and retired for it. -/

namespace Mbg

namespace Core

open Detector (Current)

/-- What may take an intent out of force, as the governor stands and after it processed these ticks. -/
def Warranted (c : Core) (processed : List Tick) (i : InterventionIntent) : Prop :=
  i.authority.policyGeneration ≠ c.context.policyGeneration ∨
    i.authority.policyDigest ≠ c.context.policyDigest ∨
    i.authority.epoch ≠ c.context.epoch ∨
    i.authority.incarnation ≠ c.context.incarnation ∨
    i.authority.boot ≠ c.context.boot ∨
    c.observedGeneration i.stream.resource ≠ i.authority.resourceGeneration ∨
    i.event ∉ c.openEvents.keys ∨
    ∃ t ∈ processed, tickAfter t i.authority.expiryTick = false

instance (c : Core) (processed : List Tick) (i : InterventionIntent) :
    Decidable (c.Warranted processed i) := by
  unfold Warranted
  infer_instance

section

variable {c c' : Core} {processed : List Tick} {now : Tick}

theorem Warranted.congr {i : InterventionIntent} (h : c.Warranted processed i)
    (hcontext : c'.context = c.context)
    (hgenerations : c'.resourceGenerations = c.resourceGenerations)
    (hopen : c'.openEvents = c.openEvents) : c'.Warranted processed i := by
  rw [Warranted, observedGeneration, hcontext, hgenerations, hopen]
  exact h

/-- An intent whose episode is not open has nothing left to justify it. -/
theorem warranted_of_closed {i : InterventionIntent} (h : i.event ∉ c.openEvents.keys) :
    c.Warranted processed i :=
  Or.inr (Or.inr (Or.inr (Or.inr (Or.inr (Or.inr (Or.inl h))))))

theorem not_identityChanged {d : IdDomain} {Rep : Type} [DecidableEq Rep] [Complement Rep]
    [OfNat Rep 0] {a b : StrongId d Rep} (h : a = b) : identityChanged a b = false := by
  simp [identityChanged, h]

/-- VERDICT: an intent that was issued by the tick it is judged at, by a governor that has a policy,
    is only judged out of force for a reason. -/
theorem warranted_of_verdict {i : InterventionIntent}
    (hnow : tickAfter now i.authority.expiryTick = false → now ∈ processed)
    (hset : c.context.policyGeneration.raw ≠ 0)
    (hissued : tickAfter now i.authority.issuedTick = false)
    (hverdict : c.verdictFor i now ≠ AuthorityVerdict.valid) : c.Warranted processed i := by
  by_contra hnone
  simp only [Warranted, not_or, not_not, not_exists, not_and, Bool.not_eq_false] at hnone
  obtain ⟨hgeneration, hdigest, hepoch, hincarnation, hboot, hresource, hopen, hlive⟩ := hnone
  refine hverdict (verdictFor_eq_valid.mpr ⟨evaluateAuthority_eq_valid.mpr ⟨hgeneration ▸ hset,
    hissued, not_identityChanged hboot, not_identityChanged hincarnation,
    not_identityChanged hepoch, hgeneration, hdigest, not_identityChanged hresource, ?_⟩,
    UnorderedMap.contains_iff.mpr hopen⟩)
  by_contra hexpired
  have hexpired' := Bool.eq_false_of_not_eq_true hexpired
  exact hexpired (hlive now (hnow hexpired'))

/-- A retired intent keeps what its verdict depends on. -/
theorem Warranted.retired {i : InterventionIntent} {verdict : AuthorityVerdict} {tick : Tick}
    (h : c.Warranted processed i) : c.Warranted processed (retiredIntent i verdict tick) := h

/-! ### Issued by a tick -/

/-- Every live intent was issued by this tick. -/
def IssuedBy (c : Core) (now : Tick) : Prop := ∀ e ∈ c.interventions.entries, e.2.live = true →
  tickAfter now e.2.authority.issuedTick = false

theorem IssuedBy.congr (h : c.IssuedBy now) (hinterventions : c'.interventions = c.interventions) :
    c'.IssuedBy now := by
  rw [IssuedBy, hinterventions]
  exact h

theorem issuedTick_refreshedIntent (c : Core) (decision : DetectionDecision) (now : Tick)
    (limit : InterventionKindLimit) (intent : InterventionIntent) :
    (c.shell.refreshedIntent decision now limit intent).authority.issuedTick =
      intent.authority.issuedTick := by
  rw [authority_refreshedIntent]

/-- Renewing keeps the issue tick of an intent, and a new one is issued at the tick itself. -/
theorem IssuedBy.maybeRequest (h : c.IssuedBy now) (decision : DetectionDecision) :
    (c.maybeRequest decision now).IssuedBy now := by
  refine maybeRequest_induct (P := fun c => c.IssuedBy now)
    (fun c kind limit intent h hfound e he hlive => ?_) (fun c kind limit h e he hlive => ?_) h
  · rcases mem_renew he with he | rfl
    · exact h e he hlive
    · obtain ⟨⟨id, hmem⟩, hlive', -⟩ := mem_of_liveIntentFor hfound
      have hkept := c.issuedTick_refreshedIntent decision now limit intent
      generalize c.shell.refreshedIntent decision now limit intent = renewed at hkept ⊢
      have hissued : tickAfter now intent.authority.issuedTick = false := h (id, intent) hmem hlive'
      rw [← hkept] at hissued
      exact hissued
  · rcases mem_issue he with he | rfl
    · exact h e he hlive
    · simp only [Governor.newIntent]
      exact tickAfter_self now

theorem IssuedBy.mirrorDecision (h : c.IssuedBy now) (key : StreamKey) (entry : StreamEntry)
    (decision : DetectionDecision) : (c.mirrorDecision key entry decision now).IssuedBy now := by
  rw [Core.mirrorDecision]
  split
  · unfold processDecision
    extract_lets c₁ c₂
    have h₂ : c₂.IssuedBy now := fun e he => h e (mem_mirrorEpisode (c := c₁) he)
    split
    · exact h₂.maybeRequest decision
    · exact h₂
  · exact h

/-! ### Retired intents -/

/-- From one core to another, only such intents were retired. -/
def Retires (c c' : Core) (P : InterventionIntent → Prop) : Prop :=
  ∃ new, c'.retired = c.retired ++ new ∧ ∀ i ∈ new, P i

theorem Retires.none {P : InterventionIntent → Prop} (h : c'.retired = c.retired) :
    c.Retires c' P := ⟨[], by simp [h], by simp⟩

theorem Retires.trans {c'' : Core} {P : InterventionIntent → Prop} (h : c.Retires c' P)
    (h' : c'.Retires c'' P) : c.Retires c'' P := by
  obtain ⟨new, hretired, hnew⟩ := h
  obtain ⟨new', hretired', hnew'⟩ := h'
  refine ⟨new ++ new', by rw [hretired', hretired, List.append_assoc], ?_⟩
  intro i hi
  rcases List.mem_append.mp hi with hi | hi
  · exact hnew i hi
  · exact hnew' i hi

theorem Retires.mono {P Q : InterventionIntent → Prop} (h : c.Retires c' P)
    (himp : ∀ i, P i → Q i) : c.Retires c' Q := by
  obtain ⟨new, hretired, hnew⟩ := h
  exact ⟨new, hretired, fun i hi => himp i (hnew i hi)⟩

/-- Where a retirement began and where it ended matters only for the logs. -/
theorem Retires.congr {d d' : Core} {P : InterventionIntent → Prop} (h : c.Retires c' P)
    (hstart : d.retired = c.retired) (hend : d'.retired = c'.retired) : d.Retires d' P := by
  rw [Retires, hstart, hend]
  exact h

/-- A revalidation retires what it judges out of force, of the event it is for. -/
theorem retires_refresh (c : Core) (now : Tick) (onlyEvent : EventId) :
    c.Retires (c.refresh now onlyEvent) fun r => ∃ e ∈ c.interventions.entries, e.2.live = true ∧
      c.verdictFor e.2 now ≠ AuthorityVerdict.valid ∧
      (onlyEvent.valid = true → e.2.event = onlyEvent) ∧
      r = retiredIntent e.2 (c.verdictFor e.2 now) now := by
  rw [refresh, sweep]
  refine ⟨_, rfl, ?_⟩
  intro r hr
  obtain ⟨i, hi, hleaves⟩ := List.mem_filterMap.mp hr
  obtain ⟨e, he, rfl⟩ := List.mem_map.mp hi
  refine ⟨e, he, ?_⟩
  generalize e.2 = i at hleaves ⊢
  rw [refreshFate] at hleaves
  split_ifs at hleaves with hother hdead
  · cases hleaves
  · cases hleaves
  · dsimp only at hleaves
    split_ifs at hleaves with hvalid
    · cases hleaves
    · have hlive : i.live = true := by simpa using hdead
      refine ⟨hlive, hvalid, fun honly => ?_, (Option.some.inj hleaves).symm⟩
      by_contra hne
      exact hother ⟨honly, hne⟩

/-- A revalidation at a tick every live intent was issued by retires only for a reason. -/
theorem IssuedBy.refresh (h : c.IssuedBy now) (hset : c.context.policyGeneration.raw ≠ 0)
    (hnow : ∀ e ∈ c.interventions.entries, e.2.live = true →
      tickAfter now e.2.authority.expiryTick = false → now ∈ processed) (onlyEvent : EventId) :
    c.Retires (c.refresh now onlyEvent) fun i => (onlyEvent.valid = true → i.event = onlyEvent) ∧
      (c.refresh now onlyEvent).Warranted processed i := by
  refine (c.retires_refresh now onlyEvent).mono ?_
  rintro _ ⟨e, he, hlive, hverdict, hevent, rfl⟩
  have hw : c.Warranted processed e.2 :=
    warranted_of_verdict (hnow e he hlive) hset (h e he hlive) hverdict
  exact ⟨hevent, hw.retired.congr rfl rfl rfl⟩

/-- What a decision about an episode retires: intents of the episode it closes, for a reason. -/
def Strikes (c c' : Core) (processed : List Tick) (r : DetectionDecision) (event : EventId) : Prop :=
  c.Retires c' fun i => r.closed = true ∧ event ∉ c'.openEvents.keys ∧
    (event.valid = true → i.event = event) ∧ c'.Warranted processed i

theorem IssuedBy.mirrorEpisode (h : c.IssuedBy now) (hset : c.context.policyGeneration.raw ≠ 0)
    (hnow : now ∈ processed) (event : BurstEvent) (r : DetectionDecision) :
    c.Strikes (c.mirrorEpisode event r now) processed r event.id := by
  unfold Core.mirrorEpisode
  extract_lets c₁
  have h₁ : c₁.intentView = c.intentView ∧ c₁.context = c.context := by
    dsimp only [c₁]
    split
    · exact ⟨rfl, rfl⟩
    · split <;> exact ⟨rfl, rfl⟩
  obtain ⟨hview, hcontext⟩ := h₁
  have hissued : c₁.IssuedBy now := h.congr (congrArg IntentView.interventions hview)
  have hretired : c₁.retired = c.retired := congrArg IntentView.retired hview
  clear_value c₁
  cases hclosed : r.closed with
  | false => exact .none hretired
  | true =>
    have hswept := IssuedBy.refresh (c := { c₁ with openEvents := c₁.openEvents.erase event.id })
      hissued (hcontext ▸ hset) (fun _ _ _ _ => hnow) event.id
    refine (hswept.mono fun i hi => ?_).congr hretired.symm rfl
    have hgone : event.id ∉ (c₁.openEvents.erase event.id).keys := by
      simp [UnorderedMap.mem_keys_erase]
    exact ⟨hclosed, hgone, hi.1, hi.2.congr rfl rfl rfl⟩

theorem retired_maybeRequest (c : Core) (decision : DetectionDecision) (now : Tick) :
    (c.maybeRequest decision now).retired = c.retired :=
  maybeRequest_induct (P := fun c' => c'.retired = c.retired) (fun _ _ _ _ h _ => h)
    (fun _ _ _ h => h) rfl

theorem IssuedBy.processDecision (h : c.IssuedBy now) (hset : c.context.policyGeneration.raw ≠ 0)
    (hnow : now ∈ processed) (d : Detector) (r : DetectionDecision) :
    c.Strikes (c.processDecision d r now) processed r d.episode.id := by
  unfold Core.processDecision
  extract_lets c₁ c₂
  have h₂ : c.Strikes c₂ processed r d.episode.id := by
    refine Retires.mono (IssuedBy.mirrorEpisode (c := c₁) h hset hnow
      (c₁.shell.decisionEvent d r) r) ?_
    rintro i ⟨hclosed, hgone, hevent, hw⟩
    rw [id_decisionEvent (by simp [hclosed])] at hgone hevent
    exact ⟨hclosed, hgone, hevent, hw⟩
  clear_value c₂
  split
  · have hbase := c₂.base_maybeRequest r now
    have hview := c₂.episodeView_maybeRequest r now
    refine Retires.congr (Retires.mono h₂ ?_) rfl (c₂.retired_maybeRequest r now)
    have hopen : (c₂.maybeRequest r now).openEvents = c₂.openEvents :=
      congrArg EpisodeView.openEvents hview
    rintro i ⟨hclosed, hgone, hevent, hw⟩
    exact ⟨hclosed, hopen ▸ hgone, hevent, hw.congr (congrArg Base.context hbase)
      (congrArg Base.resourceGenerations hbase) hopen⟩
  · exact h₂

theorem IssuedBy.strikes_mirrorDecision (h : c.IssuedBy now)
    (hset : c.context.policyGeneration.raw ≠ 0) (hnow : now ∈ processed) (key : StreamKey)
    (entry : StreamEntry) (r : DetectionDecision) :
    c.Strikes (c.mirrorDecision key entry r now) processed r entry.detector.episode.id := by
  rw [Core.mirrorDecision]
  split
  · exact IssuedBy.processDecision (c := c.setEntry key _) h hset hnow entry.detector r
  · exact .none rfl

/-! ### Offered samples -/

/-- The tick a sample is answered at, if it is accepted: its own, or that of the cached decision. -/
def judgedTick (c : Core) (sample : Sample) : Tick :=
  match c.streams.find? sample.stream with
  | none => sample.tick
  | some entry =>
    if entry.detector.freshAt sample.tick ||
        (entry.detector.changesGeneration sample && entry.detector.hasOpenEpisode) then sample.tick
    else entry.detector.lastDecision.tick

theorem tick_ingest {d : Detector} {sample : Sample} {result : Detector × DetectionDecision}
    (h : d.ingest sample = .ok result) : result.2.tick =
      if d.freshAt sample.tick || (d.changesGeneration sample && d.hasOpenEpisode) then sample.tick
      else d.lastDecision.tick := by
  obtain ⟨hkey, hvalid⟩ := Detector.ingest_ok h
  rw [Detector.ingest_eq hkey hvalid] at h
  obtain rfl := Except.ok.inj h
  cases hfence : d.changesGeneration sample && d.hasOpenEpisode with
  | true =>
    rw [if_pos rfl, Bool.or_true, if_pos rfl]
    exact (d.fenced_fenceDecision CloseReason.capacityChanged sample.tick).tick
  | false =>
    have hs := d.sameClock_offerSample sample
    have hfresh : (d.offerSample sample).freshAt sample.tick = d.freshAt sample.tick := by
      rw [Detector.freshAt, Detector.freshAt, hs.hasEvaluated, hs.lastEvaluated]
    rw [if_neg Bool.false_ne_true, Bool.or_false, ← hfresh]
    cases hnow : (d.offerSample sample).freshAt sample.tick with
    | true =>
      rw [Detector.evaluate_fresh hnow, if_pos rfl]
      exact ((d.offerSample sample).evaluated_evaluateFresh sample.tick).tick
    | false =>
      rw [Detector.evaluate_cached hnow, if_neg Bool.false_ne_true]
      exact congrArg DetectionDecision.tick hs.cached

/-- The tick a found or created stream answers at. -/
theorem tick_of_findOrCreate {c₁ : Core} {sample : Sample} {entry : StreamEntry}
    {result : Detector × DetectionDecision}
    (hfound : c.findOrCreate sample.stream = some (entry, c₁))
    (h : entry.detector.ingest sample = .ok result) : result.2.tick = c.judgedTick sample := by
  rw [tick_ingest h, judgedTick]
  rcases findOrCreate_some hfound with ⟨hfind, -⟩ | ⟨hnone, rfl, -⟩
  · rw [hfind]
  · rw [hnone]
    rfl

theorem IssuedBy.accept {sample : Sample} {entry : StreamEntry}
    {result : Detector × DetectionDecision} (h : c.IssuedBy result.2.tick)
    (hset : c.context.policyGeneration.raw ≠ 0) (hnow : result.2.tick ∈ processed) :
    c.Retires (c.accept sample entry result)
      ((c.accept sample entry result).Warranted processed) := by
  unfold Core.accept
  extract_lets entry' c₁ c₂
  obtain ⟨generations, hobserve⟩ := c.base_observeGeneration sample
  have h₀ : (c.observeGeneration sample).IssuedBy result.2.tick := by
    rw [hobserve]
    exact h
  have hset₀ : (c.observeGeneration sample).context.policyGeneration.raw ≠ 0 := by
    rw [hobserve]
    exact hset
  have hretired₀ : (c.observeGeneration sample).retired = c.retired := by rw [hobserve]
  have hstrikes : (c.observeGeneration sample).Strikes c₁ processed result.2 _ :=
    h₀.strikes_mirrorDecision hset₀ hnow sample.stream entry' result.2
  have h₁ : c₁.IssuedBy result.2.tick := h₀.mirrorDecision sample.stream entry' result.2
  have hset₁ : c₁.context.policyGeneration.raw ≠ 0 := by
    have hcontext : c₁.context = (c.observeGeneration sample).context :=
      congrArg Base.context ((c.observeGeneration sample).base_mirrorDecision sample.stream entry'
        result.2 result.2.tick)
    rw [hcontext]
    exact hset₀
  have hraised : ∃ lastTick, c₂ = { c₁ with lastTick } := by
    dsimp only [c₂]
    split
    · exact c₁.raiseLastTick_eq result.2.tick
    · exact ⟨_, rfl⟩
  clear_value c₂ c₁
  obtain ⟨lastTick, rfl⟩ := hraised
  have hrefresh := IssuedBy.refresh (c := { c₁ with lastTick }) h₁ hset₁ (fun _ _ _ _ => hnow) default
  refine Retires.congr (Retires.trans (Retires.mono hstrikes ?_) (hrefresh.mono fun i hi => hi.2))
    hretired₀.symm rfl
  rintro i ⟨-, -, -, hw⟩
  exact hw.congr rfl rfl rfl

/-- INGEST: a sample answered at a tick every live intent was issued by retires only for a reason. -/
theorem IssuedBy.ingest {sample : Sample} (hset : c.context.policyGeneration.raw ≠ 0)
    (h : ∀ entry c₁ result, validateSample sample = .ok () →
      c.findOrCreate sample.stream = some (entry, c₁) → entry.detector.ingest sample = .ok result →
        c.IssuedBy (c.judgedTick sample) ∧ c.judgedTick sample ∈ processed) :
    c.Retires (c.ingest sample) ((c.ingest sample).Warranted processed) := by
  refine ingest_cases (P := fun c' => c.Retires c' (c'.Warranted processed)) (.none rfl)
    (fun entry c₁ hfound => .none ?_) fun entry c₁ result hvalid hfound hingest => ?_
  · obtain ⟨generations, hobserve⟩ := c₁.base_observeGeneration sample
    rw [hobserve]
    rcases findOrCreate_some hfound with ⟨-, rfl⟩ | ⟨-, -, rfl⟩ <;> rfl
  · obtain ⟨hissued, hnow⟩ := h entry c₁ result hvalid hfound hingest
    rw [← tick_of_findOrCreate hfound hingest] at hissued hnow
    obtain ⟨streams, heq⟩ : ∃ streams, c₁ = { c with streams } := by
      rcases findOrCreate_some hfound with ⟨-, rfl⟩ | ⟨-, -, rfl⟩
      · exact ⟨c₁.streams, rfl⟩
      · exact ⟨_, rfl⟩
    have hissued₁ : c₁.IssuedBy result.2.tick := by
      rw [heq]
      exact hissued
    have hset₁ : c₁.context.policyGeneration.raw ≠ 0 := by
      rw [heq]
      exact hset
    have hretired : c.retired = c₁.retired := by rw [heq]
    exact (hissued₁.accept hset₁ hnow).congr hretired rfl

/-! ### Advanced time -/

/-- A decision that closes an episode names it. -/
theorem id_of_closed {d d' : Current} {v : DetectionDecision.Verdict}
    (h : Detector.Announces d d' v) (hd : d.Named) (hclosed : v.closed = true) :
    d'.id = makeEventId d'.key d'.onset := by
  cases h with
  | kept _ _ _ closed => rw [hclosed] at closed; cases closed
  | opened _ _ _ closed => rw [hclosed] at closed; cases closed
  | openedClosed _ now => rw [now]
  | updated _ _ _ _ closed => rw [hclosed] at closed; cases closed
  | closed wasOpen now =>
    have hid := hd.id_eq wasOpen
    rw [now]
    exact hid

/-- The episode ended in the course of an advance, in a stream that was visited. -/
def Ended (S : Set (StreamKey × Tick)) (now : Tick) (c : Core) (id : EventId) : Prop :=
  id ∉ c.openEvents.keys ∧ ∃ key onset entry, (key, onset) ∈ S ∧ id = makeEventId key onset ∧
    c.streams.find? key = some entry ∧ entry.detector.freshAt now = false

/-- What the streams visited so far have done: every intent retired was one of an episode that ended,
    and the live ones were issued by now. -/
structure Advancing (S : Set (StreamKey × Tick)) (now : Tick) (c c₁ : Core) : Prop where
  context : c₁.context = c.context
  issued : c₁.IssuedBy now
  retires : c.Retires c₁ fun i => Ended S now c₁ i.event

variable {S : Set (StreamKey × Tick)}

theorem mem_keys_mirrorDecision {key : StreamKey} {entry : StreamEntry} {r : DetectionDecision}
    {id : EventId} (h : id ∈ (c.mirrorDecision key entry r now).openEvents.keys) :
    id ∈ c.openEvents.keys ∨ id = entry.detector.episode.id := by
  cases hprocess : Governor.StreamEntry.unprocessed entry r.tick with
  | false =>
    rw [Core.mirrorDecision, hprocess] at h
    exact Or.inl h
  | true =>
    have hview := congrArg EpisodeView.openEvents (c.episodeView_mirrorDecision key hprocess now)
    change (c.mirrorDecision key entry r now).openEvents = _ at hview
    rw [hview] at h
    obtain ⟨hkept | ⟨hid, hsays⟩, -⟩ := mem_keys_mirrorEpisode.mp h
    · exact Or.inl hkept
    · refine Or.inr (hid.trans (id_decisionEvent ?_))
      revert hsays
      cases r.opened <;> cases r.updated <;> simp

/-- VISIT: evaluating one more stream revives no episode that ended. -/
theorem Advancing.visit (hd : DistinctIdentities S) {c₁ : Core}
    (hset : c.context.policyGeneration.raw ≠ 0) (hnow : now ∈ processed) (hnamed : c.NamedStreams)
    (hsub : (c.advance now).onsets ⊆ S) {key : StreamKey} {entry : StreamEntry}
    (h : Advancing S now c c₁) (hfind₁ : c₁.streams.find? key = some entry)
    (hfind : c.streams.find? key = some entry) (hfresh : entry.detector.freshAt now = true) :
    Advancing S now c (c₁.mirrorDecision key
      { entry with detector := (entry.detector.evaluateFresh now).1 }
      (entry.detector.evaluateFresh now).2 now) := by
  have hev := entry.detector.evaluated_evaluateFresh now
  have hafter : (c.advance now).streams.find? key = some (mirroredEntry
      { entry with detector := (entry.detector.evaluateFresh now).1 }
      (entry.detector.evaluateFresh now).2.tick) := by
    rw [find?_advance hfind, advancedEntry, if_pos hfresh]
  have hown := hnamed key entry hfind
  generalize entry.detector.evaluateFresh now = e at hev hafter ⊢
  obtain ⟨d', r⟩ := e
  dsimp only at hev hafter ⊢
  obtain ⟨hkey, hcurrent⟩ := hown
  obtain ⟨hkey', hnamed'⟩ := hev.announces.named hcurrent
  have hkeyed : d'.current.key = key := hkey'.trans hkey
  have hstale : d'.freshAt now = false := hev.atTick
  have hseen : d'.episode.id = makeEventId key d'.episode.metrics.onsetTick →
      (key, d'.episode.metrics.onsetTick) ∈ S := fun hid => by
    refine hsub ⟨_, hafter, ?_, ?_⟩ <;> rw [detector_mirroredEntry]
    exact hid
  have hstreams := c₁.streams_mirrorDecision key { entry with detector := d' } r now
  have hbase := c₁.base_mirrorDecision key { entry with detector := d' } r now
  have hcontext : (c₁.mirrorDecision key { entry with detector := d' } r now).context = c₁.context :=
    congrArg Base.context hbase
  have hstrikes := h.issued.strikes_mirrorDecision (h.context ▸ hset) hnow key
    { entry with detector := d' } r
  refine ⟨hcontext.trans h.context, h.issued.mirrorDecision key _ r, ?_⟩
  refine (h.retires.mono fun i hi => ?_).trans (Retires.mono hstrikes fun i hi => ?_)
  · obtain ⟨hgone, key', onset, entry', hmem, hid, hfind', hstale'⟩ := hi
    have hne : key' ≠ key := by
      rintro rfl
      rw [hfind₁, Option.some.injEq] at hfind'
      rw [← hfind', hfresh] at hstale'
      cases hstale'
    refine ⟨fun hback => ?_, key', onset, entry', hmem, hid, ?_, hstale'⟩
    · rcases mem_keys_mirrorDecision hback with hstill | hsame
      · exact hgone hstill
      · rcases hnamed' with hnamed' | ⟨hunset, -⟩
        · rw [hkeyed] at hnamed'
          have heq := hd hmem (hseen hnamed') (hid.symm.trans (hsame.trans hnamed'))
          exact hne (congrArg Prod.fst heq)
        · have hvalid := makeEventId_valid key' onset
          rw [← hid, hsame, show d'.episode.id = default from hunset] at hvalid
          cases hvalid
    · rw [hstreams, OrderedMap.find?_insert_of_ne _ _ hne]
      exact hfind'
  · obtain ⟨hclosed, hgone, hevent, -⟩ := hi
    have hid : d'.episode.id = makeEventId key d'.episode.metrics.onsetTick :=
      hkeyed ▸ id_of_closed hev.announces hcurrent hclosed
    have hvalid : d'.episode.id.valid = true := by
      rw [hid]
      exact makeEventId_valid _ _
    rw [hevent hvalid]
    refine ⟨hgone, key, d'.episode.metrics.onsetTick,
      mirroredEntry { entry with detector := d' } r.tick, hseen hid, hid, ?_, ?_⟩
    · rw [hstreams, OrderedMap.find?_insert_self]
    · rw [detector_mirroredEntry]
      exact hstale

/-- ADVANCE: time advanced to a tick every live intent was issued by retires only for a reason. -/
theorem IssuedBy.advance (hd : DistinctIdentities S) (h : c.IssuedBy now)
    (hset : c.context.policyGeneration.raw ≠ 0) (hnow : now ∈ processed) (hnamed : c.NamedStreams)
    (hsub : (c.advance now).onsets ⊆ S) :
    c.Retires (c.advance now) ((c.advance now).Warranted processed) := by
  have hfold : Advancing S now c (c.streams.keys.foldl (advanceStream now) c) :=
    foldl_advanceStream_induct (P := Advancing S now c)
      (G := fun key entry => c.streams.find? key = some entry)
      (fun c₁ key entry h₁ hfind₁ hfind hfresh =>
        h₁.visit hd hset hnow hnamed hsub hfind₁ hfind hfresh)
      ⟨rfl, h, .none rfl⟩ fun _ _ hfind => hfind
  rw [Core.advance]
  generalize c.streams.keys.foldl (advanceStream now) c = c₁ at hfold ⊢
  obtain ⟨hcontext, hissued, hretires⟩ := hfold
  obtain ⟨lastTick, hraise⟩ := (c₁.refresh now).raiseLastTick_eq now
  rw [hraise]
  have hrefresh := hissued.refresh (hcontext ▸ hset) (fun _ _ _ _ => hnow) default
  refine Retires.congr (Retires.trans (hretires.mono fun i hi => ?_)
    (hrefresh.mono fun i hi => ?_)) rfl rfl
  · exact warranted_of_closed hi.1
  · exact hi.2.congr rfl rfl rfl

/-! ### Set generations -/

/-- SET GENERATION: so does a revalidation at the last tick. -/
theorem IssuedBy.setResourceGeneration {resource : ResourceId} (generation : ResourceGeneration)
    (hset : c.context.policyGeneration.raw ≠ 0)
    (h : resource.valid = true → c.IssuedBy c.lastTick ∧
      ∀ e ∈ c.interventions.entries, e.2.live = true →
        tickAfter c.lastTick e.2.authority.expiryTick = false → c.lastTick ∈ processed) :
    c.Retires (c.setResourceGeneration resource generation)
      ((c.setResourceGeneration resource generation).Warranted processed) := by
  rw [Core.setResourceGeneration]
  cases hvalid : resource.valid with
  | false => exact .none rfl
  | true =>
    obtain ⟨hissued, hnow⟩ := h hvalid
    have hrefresh := IssuedBy.refresh (c := { c with
      resourceGenerations := c.resourceGenerations.assign (.back _) resource generation })
      hissued hset hnow default
    exact (hrefresh.mono fun i hi => hi.2).congr rfl rfl

/-! ### The policy in force -/

/-- The governor has a policy: its generation is one that was counted. -/
def HasPolicy (c : Core) : Prop := c.context.policyGeneration.raw ≠ 0

/-- STEP: no operation leaves a governor without a policy. -/
theorem HasPolicy.step (h : c.HasPolicy) (op : Governor.Op) : (c.step op).HasPolicy := by
  have hrearm : ∀ (policies : PolicySet) (keys : List StreamKey), policies.generation.raw ≠ 0 →
      ((c.adoptPolicies policies).rearm keys).HasPolicy := by
    intro policies keys hgeneration
    have hcontext := congrArg Base.context (base_rearm keys (c.adoptPolicies policies))
    change ((c.adoptPolicies policies).rearm keys).context = _ at hcontext
    rw [HasPolicy, hcontext]
    exact hgeneration
  cases op with
  | ingest sample =>
    have hcontext : (c.ingest sample).context = c.context :=
      congrArg Settings.context (c.settings_ingest sample)
    rw [HasPolicy, Core.step, hcontext]
    exact h
  | advance now =>
    have hcontext : (c.advance now).context = c.context :=
      congrArg Settings.context (c.settings_advance now)
    rw [HasPolicy, Core.step, hcontext]
    exact h
  | installPolicy policy =>
    rw [Core.step, Core.installPolicy]
    split
    · exact h
    · rename_i policies hset
      obtain ⟨-, next, hnext, rfl⟩ := PolicySet.setFallback_ok hset
      exact hrearm _ _ (PolicySet.next_ne_zero hnext)
  | setResourcePolicy resource policy =>
    rw [Core.step, Core.setResourcePolicy]
    split
    · exact h
    · rename_i policies hset
      have hgeneration : policies.generation.raw ≠ 0 := by
        obtain ⟨-, next, hnext, ⟨i, -, rfl⟩ | ⟨-, rfl⟩⟩ := PolicySet.setOverride_ok hset
        · exact PolicySet.next_ne_zero hnext
        · exact PolicySet.next_ne_zero hnext
      exact hrearm policies _ hgeneration
  | removeResourcePolicy resource =>
    rw [Core.step, Core.removeResourcePolicy]
    split
    · exact h
    · rename_i policies hset
      obtain ⟨i, next, -, hnext, rfl⟩ := PolicySet.removeOverride_ok hset
      exact PolicySet.next_ne_zero hnext
  | bindAuthority epoch incarnation boot =>
    rw [Core.step, Core.bindAuthority]
    split <;> exact h
  | setResourceGeneration resource generation =>
    rw [Core.step, Core.setResourceGeneration]
    split <;> exact h
  | setInterventionsEnabled enabled =>
    rw [Core.step, Core.setInterventionsEnabled]
    dsimp only
    split <;> exact h
  | bindStore store => exact h
  | checkpoint => exact h
  | restore => exact h
  | drainEmissions => exact h

end

end Core

namespace Governor

/-- A governor with the onsets seen so far and the ticks it has processed. -/
structure RetirementLog extends OnsetTrace where
  processed : List Tick := []

/-- The tick of the decision an accepted sample was answered with, or the one time was advanced to. -/
def processedTicks (g : Governor) : Op → List Tick
  | .ingest sample =>
    if (g.ingest sample).1.status.isOk then [(g.ingest sample).1.decision.tick] else []
  | .advance now => [now]
  | _ => []

namespace RetirementLog

def step (s : RetirementLog) (op : Op) : RetirementLog where
  toOnsetTrace := s.toOnsetTrace.step op
  processed := s.processed ++ s.governor.processedTicks op

/-- A fresh governor, which has processed nothing. -/
def new (hashing : Hashing) (config : GovernorConfig) : RetirementLog :=
  { toOnsetTrace := OnsetTrace.new hashing config }

end RetirementLog

/-- The records of the intents an operation retired. -/
def retiredBy (g : Governor) (op : Op) : List InterventionIntent :=
  (g.step op).ledger.retired.drop g.ledger.retired.length

/-- The calls that bring evidence or time, which revalidate authority without withdrawing any. -/
def Op.revalidates : Op → Bool
  | .ingest _ | .advance _ | .setResourceGeneration _ _ => true
  | _ => false

/-- Such a call retires an intent only if, once it is done, something takes that intent out of
    force. -/
def RetiresWarranted (s : RetirementLog) (op : Op) : Prop :=
  op.revalidates = true → ∀ i ∈ s.governor.retiredBy op,
    (s.step op).governor.core.Warranted (s.step op).processed i

instance (s : RetirementLog) (op : Op) : Decidable (RetiresWarranted s op) := by
  unfold RetiresWarranted
  infer_instance

/-- Every live intent was issued by this tick. -/
def IssuedBy (g : Governor) (now : Tick) : Prop :=
  ∀ i ∈ g.liveInterventions, tickAfter now i.authority.issuedTick = false

/-- A stream that is known, or that the table has room for. -/
def hasRoom (g : Governor) (key : StreamKey) : Bool :=
  (g.streams.find? key).isSome || g.streams.size < Limits.maxStreams

/-- The condition: no live intent was issued after the tick it will be judged at. The last tick must
    also be one this governor processed, unless no live intent expires by it. -/
def JudgesIssued (s : RetirementLog) : Op → Prop
  | .ingest sample => validateSample sample = .ok () → s.governor.hasRoom sample.stream = true →
    s.governor.IssuedBy (s.governor.core.judgedTick sample)
  | .advance now => s.governor.IssuedBy now
  | .setResourceGeneration resource _ => resource.valid = true →
    s.governor.IssuedBy s.governor.lastTick ∧ (s.governor.lastTick ∈ s.processed ∨
      ∀ i ∈ s.governor.liveInterventions,
        tickAfter s.governor.lastTick i.authority.expiryTick = true)
  | _ => True

instance (g : Governor) (now : Tick) : Decidable (g.IssuedBy now) :=
  inferInstanceAs (Decidable (∀ i ∈ g.liveInterventions, _ = false))

instance (s : RetirementLog) : (op : Op) → Decidable (JudgesIssued s op)
  | .ingest sample => inferInstanceAs (Decidable (validateSample sample = .ok () →
    s.governor.hasRoom sample.stream = true →
    s.governor.IssuedBy (s.governor.core.judgedTick sample)))
  | .advance now => inferInstanceAs (Decidable (s.governor.IssuedBy now))
  | .setResourceGeneration resource _ => inferInstanceAs (Decidable (resource.valid = true →
    s.governor.IssuedBy s.governor.lastTick ∧ (s.governor.lastTick ∈ s.processed ∨
      ∀ i ∈ s.governor.liveInterventions,
        tickAfter s.governor.lastTick i.authority.expiryTick = true)))
  | .installPolicy _ | .setResourcePolicy _ _ | .removeResourcePolicy _ | .bindAuthority _ _ _
  | .setInterventionsEnabled _ | .bindStore _ | .checkpoint | .restore | .drainEmissions =>
    isTrue trivial

theorem issuedBy_core {g : Governor} {now : Tick} (h : g.IssuedBy now) : g.core.IssuedBy now :=
  fun e he hlive => h e.2 (mem_liveInterventions.mpr ⟨e, he, rfl, hlive⟩)

/-- What was found or created for an accepted sample, and the tick it was answered at. -/
theorem processedTicks_ingest {g : Governor} {sample : Sample} {entry : StreamEntry} {c₁ : Core}
    {result : Detector × DetectionDecision} (hvalid : validateSample sample = .ok ())
    (hfound : g.core.findOrCreate sample.stream = some (entry, c₁))
    (hingest : entry.detector.ingest sample = .ok result) :
    g.hasRoom sample.stream = true ∧ g.processedTicks (.ingest sample) = [result.2.tick] := by
  rw [core_findOrCreate] at hfound
  cases hfind : g.findOrCreate sample.stream with
  | error failure =>
    rw [hfind] at hfound
    cases hfound
  | ok found =>
    rw [hfind] at hfound
    obtain ⟨rfl, -⟩ := Prod.mk.inj (Option.some.inj hfound)
    refine ⟨?_, ?_⟩
    · rw [findOrCreate] at hfind
      rw [hasRoom]
      cases hknown : g.streams.find? sample.stream with
      | some entry => rfl
      | none =>
        rw [hknown] at hfind
        dsimp only at hfind
        split_ifs at hfind with hfull
        · cases hfind
        · simpa using hfull
    · have hout : (g.ingest sample).1.status = .ok () ∧ (g.ingest sample).1.decision = result.2 := by
        rw [ingest, hvalid]
        dsimp only
        rw [hfind]
        dsimp only
        rw [hingest]
        exact ⟨rfl, rfl⟩
      rw [processedTicks, hout.1, hout.2]
      rfl

theorem retires_of_core {g : Governor} {op : Op} {P : InterventionIntent → Prop}
    (h : g.core.Retires (g.step op).core P) : ∀ i ∈ g.retiredBy op, P i := by
  obtain ⟨new, hretired, hnew⟩ := h
  have hdrop : g.retiredBy op = new := by
    change ((g.step op).core.retired).drop g.core.retired.length = new
    rw [hretired, List.drop_left]
  rw [hdrop]
  exact hnew

/-- The invariant: intents stand under their identities, streams under their names, and there is a
    policy. -/
structure Provided (g : Governor) : Prop where
  keyed : g.core.Keyed
  named : g.core.NamedStreams
  policy : g.core.HasPolicy

theorem Provided.step {g : Governor} (h : g.Provided) (op : Op) : (g.step op).Provided := by
  by_cases hop : op = .restore
  · subst hop
    have hr := g.restored_restore
    refine ⟨Core.Restored.keyed hr h.keyed, ?_, ?_⟩
    · obtain ⟨_, _, _, _, heq⟩ := hr
      rw [heq]
      cases g.durablePolicies <;> exact h.named
    · obtain ⟨_, _, _, _, heq⟩ := hr
      rw [heq]
      cases hdurable : g.durablePolicies with
      | none => exact h.policy
      | some policies =>
        obtain ⟨fallback, overrides, generation, hrestore⟩ := durablePolicies_restored hdurable
        obtain ⟨-, -, -, hgeneration, hset⟩ := PolicySet.restore_ok hrestore
        rw [← hgeneration] at hset
        exact hset
  · have hcore := core_step h.keyed hop
    refine ⟨?_, ?_, ?_⟩
    · rw [hcore]
      exact Core.keyed_step h.keyed op
    · rw [hcore]
      exact h.named.step op
    · rw [hcore]
      exact h.policy.step op

theorem provided_new (hashing : Hashing) (config : GovernorConfig) :
    (Governor.new hashing config).Provided := by
  have hnone : (Governor.new hashing config).core.NamedStreams := fun key entry h => by cases h
  refine ⟨keyed_new hashing config, hnone, ?_⟩
  rw [Governor.new]
  dsimp only [core]
  cases hset : PolicySet.initial.setFallback config.policy with
  | error failure => exact PolicySet.restorable_initial.generation
  | ok policies =>
    obtain ⟨-, next, hnext, rfl⟩ := PolicySet.setFallback_ok hset
    exact PolicySet.next_ne_zero hnext

/-- STEP: a call that judges only what was issued retires only for a reason. -/
theorem retiresWarranted_step {S : Set (StreamKey × Tick)} (hd : Core.DistinctIdentities S)
    {s : RetirementLog} {op : Op} (h : s.governor.Provided) (hok : JudgesIssued s op)
    (hsub : (s.governor.step op).core.onsets ⊆ S) : RetiresWarranted s op := by
  intro hrevalidates
  have hcore : (s.governor.step op).core = s.governor.core.step op :=
    core_step h.keyed fun hop => by rw [hop] at hrevalidates; cases hrevalidates
  cases op with
  | ingest sample =>
    refine retires_of_core ?_
    change s.governor.core.Retires (s.governor.step (.ingest sample)).core
      ((s.governor.step (.ingest sample)).core.Warranted
        (s.processed ++ s.governor.processedTicks (.ingest sample)))
    rw [hcore]
    refine Core.IssuedBy.ingest h.policy fun entry c₁ result hvalid hfound hingest => ?_
    obtain ⟨hroom, hticks⟩ := processedTicks_ingest hvalid hfound hingest
    refine ⟨issuedBy_core (hok hvalid hroom), ?_⟩
    rw [hticks, Core.tick_of_findOrCreate hfound hingest]
    simp
  | advance now =>
    refine retires_of_core ?_
    change s.governor.core.Retires (s.governor.step (.advance now)).core
      ((s.governor.step (.advance now)).core.Warranted (s.processed ++ [now]))
    rw [hcore] at hsub ⊢
    exact (issuedBy_core hok).advance hd h.policy (by simp) h.named hsub
  | setResourceGeneration resource generation =>
    refine retires_of_core ?_
    change s.governor.core.Retires (s.governor.step (.setResourceGeneration resource generation)).core
      ((s.governor.step (.setResourceGeneration resource generation)).core.Warranted
        (s.processed ++ []))
    rw [hcore, List.append_nil]
    refine Core.IssuedBy.setResourceGeneration generation h.policy fun hvalid => ?_
    obtain ⟨hissued, hlast⟩ := hok hvalid
    refine ⟨issuedBy_core hissued, fun e he hlive hexpired => ?_⟩
    rcases hlast with hlast | hnone
    · exact hlast
    · have hnot := hnone e.2 (mem_liveInterventions.mpr ⟨e, he, rfl, hlive⟩)
      exact absurd (hexpired.symm.trans hnot) Bool.false_ne_true
  | installPolicy _ | setResourcePolicy _ _ | removeResourcePolicy _ | bindAuthority _ _ _
  | setInterventionsEnabled _ | bindStore _ | checkpoint | restore | drainEmissions =>
    cases hrevalidates

theorem RetirementLog.meets_onsets {s : RetirementLog} {ops : List Op} :
    Runs.Meets RetirementLog.step (fun s' op => (s'.governor.step op).core.onsets ⊆
      (Runs.run RetirementLog.step s ops).seen) s ops := by
  refine Runs.meets_mono (fun s' op h => ?_)
    (Runs.meets_subset_run (f := fun s : RetirementLog => s.seen) fun s' op => ?_)
  · exact (s'.seen_step op ▸ Set.subset_union_right).trans h
  · exact s'.toOnsetTrace.seen_step op ▸ Set.subset_union_left

/-- RETIREMENT: in every run in which no live intent is judged at a tick before it was issued, an
    intent is retired only if something takes it out of force. -/
theorem retiresWarranted_run (hashing : Hashing) (config : GovernorConfig) (ops : List Op)
    (hdistinct : Core.DistinctIdentities
      (Runs.run RetirementLog.step (RetirementLog.new hashing config) ops).seen)
    (hok : Runs.Meets RetirementLog.step JudgesIssued (RetirementLog.new hashing config) ops) :
    Runs.Meets RetirementLog.step RetiresWarranted (RetirementLog.new hashing config) ops := by
  have hiff : Runs.Meets RetirementLog.step RetiresWarranted (RetirementLog.new hashing config) ops ↔
      Runs.Meets RetirementLog.step (fun _ _ => True) (RetirementLog.new hashing config) ops := by
    refine Runs.meets_iff_of_admitted (I := fun s : RetirementLog => s.governor.Provided)
      (fun s op h hadmits => ?_) (provided_new hashing config)
      (Runs.meets_and hok RetirementLog.meets_onsets)
    have hstep := retiresWarranted_step hdistinct h hadmits.1 hadmits.2
    exact ⟨iff_of_true hstep trivial, fun _ => h.step op⟩
  exact hiff.mpr (Runs.meets_of_forall_mem fun _ _ => trivial)

/-- An idle sample of another stream of the same resource. -/
def otherSample (tick : UInt64) : Op :=
  .ingest { stream := ⟨⟨1⟩, ⟨2⟩, ⟨1⟩⟩, tick := ⟨tick⟩ }

/-- Intents issued, renewed, and expired by the time another stream brings. -/
theorem retiresWarranted_run_expired : Runs.Meets RetirementLog.step RetiresWarranted
    (RetirementLog.new .back { policy := pacingPolicy })
    [deepSample 11, deepSample 12, deepSample 13, otherSample 14, .setResourceGeneration ⟨1⟩ ⟨3⟩,
      otherSample 90, .advance ⟨200⟩] :=
  retiresWarranted_run .back _ _ (by decide +kernel) (by decide +kernel)

/-- A lagging stream retires an intent that has every reason to stay. -/
theorem lagging_retires :
    let s := Runs.run RetirementLog.step (RetirementLog.new .back { policy := pacingPolicy })
      [deepSample 11, deepSample 12, deepSample 13]
    Core.DistinctIdentities s.seen ∧ ¬ RetiresWarranted s (otherSample 1) := by decide +kernel

end Governor

end Mbg
