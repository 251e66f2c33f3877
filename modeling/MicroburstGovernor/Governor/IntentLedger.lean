import MicroburstGovernor.Governor.AuthorityInForce
import MicroburstGovernor.Governor.Episodes

/-! The ledger of intents: each is issued once and retired at most once, and none comes back.

    The identity of an intent is made of its event, its kind and the tick it is issued at. A stream
    processes rising ticks, its events are no other stream's, and one decision asks for each kind at
    most once, so no identity is made twice. -/

namespace Mbg

open Detector (Current Announces Answer)

namespace Core

/-! ### Whose episode a decision names -/

/-- A positive decision is about its stream and names an episode of it. -/
def NamesOwn (S : Set (StreamKey × Tick)) (key : StreamKey) (r : DetectionDecision) : Prop :=
  r.classification.isPositive = true →
    r.stream = key ∧ ∃ onset, (key, onset) ∈ S ∧ r.event = makeEventId key onset

/-- What is known of a stream's detector in every run. -/
structure Sourced (S : Set (StreamKey × Tick)) (own : StreamKey) (d : Detector) : Prop where
  key : d.key = own
  named : d.current.Named
  decided : NamesOwn S own d.lastDecision

theorem namesOwn_of_announces {S : Set (StreamKey × Tick)} {key : StreamKey} {d d' : Detector}
    {r : DetectionDecision} (ha : Announces d.current d'.current r.verdict)
    (hstream : r.stream = d.key) (hkey : d'.key = key) (hkeys : d.key = key)
    (hnamed : d'.current.Named)
    (hseen : d'.episode.id = makeEventId key d'.episode.metrics.onsetTick →
      (key, d'.episode.metrics.onsetTick) ∈ S) : NamesOwn S key r := by
  intro hpositive
  obtain ⟨hopen, hevent⟩ := ha.event_of_positive hpositive
  have hid := hnamed.id_eq hopen
  rw [show d'.current.key = key from hkey] at hid
  exact ⟨hstream.trans hkeys, _, hseen hid, hevent.trans hid⟩

theorem Sourced.answer {S : Set (StreamKey × Tick)} {key : StreamKey} {d d' : Detector}
    {fences : Bool} {now : Tick} {r : DetectionDecision} (h : Sourced S key d)
    (ha : Answer fences d now d' r)
    (hseen : d'.episode.id = makeEventId key d'.episode.metrics.onsetTick →
      (key, d'.episode.metrics.onsetTick) ∈ S) : NamesOwn S key r ∧ Sourced S key d' := by
  have hkey : d.current.key = key := h.key
  cases ha with
  | fenced _ announces _ _ _ _ _ cached _ stream =>
    obtain ⟨hkey', hnamed⟩ := announces.named h.named
    have hkey'' : d'.key = key := hkey'.trans hkey
    exact ⟨namesOwn_of_announces announces stream hkey'' h.key hnamed hseen, hkey'', hnamed,
      cached ▸ h.decided⟩
  | evaluated announces _ _ _ _ cached _ stream =>
    obtain ⟨hkey', hnamed⟩ := announces.named h.named
    have hkey'' : d'.key = key := hkey'.trans hkey
    have hown := namesOwn_of_announces announces stream hkey'' h.key hnamed hseen
    exact ⟨hown, hkey'', hnamed, cached ▸ hown⟩
  | cached same _ repeated =>
    refine ⟨repeated ▸ h.decided, (congrArg Current.key same.current).trans hkey, ?_,
      same.cached ▸ h.decided⟩
    rw [same.current]
    exact h.named

/-! ### The ledger -/

/-- The tick of a stream's clock never passes half of its range. -/
structure Clocked (S : Set (StreamKey × Tick)) (key : StreamKey) (entry : StreamEntry) : Prop where
  sourced : Sourced S key entry.detector
  decided : entry.detector.lastDecision.tick.value.toNat < 2 ^ 63
  processed : entry.lastProcessed.value.toNat < 2 ^ 63

end Core

/-- What the identity of an intent is made of. -/
def InterventionIntent.arguments (i : InterventionIntent) : EventId × InterventionKind × Tick :=
  (i.event, i.kind, i.authority.issuedTick)

namespace Core

/-- An event of a stream that has processed the tick. -/
def Placed (S : Set (StreamKey × Tick)) (c : Core) (event : EventId) (tick : Tick) : Prop :=
  ∃ key onset entry, (key, onset) ∈ S ∧ event = makeEventId key onset ∧
    c.streams.find? key = some entry ∧ entry.hasProcessed = true ∧
    tick.value ≤ entry.lastProcessed.value

/-- An intent in the log: named by its arguments, for an episode of a stream that has processed the
    tick it was issued at. -/
structure Issued (S : Set (StreamKey × Tick)) (c : Core) (i : InterventionIntent) : Prop where
  id : i.id = makeInterventionId i.event i.kind i.authority.issuedTick
  placed : Placed S c i.event i.authority.issuedTick

/-- Every intent was issued once; it is in force or was retired, once and for good. -/
structure Ledgered (S : Set (StreamKey × Tick)) (c : Core) : Prop where
  keyed : c.Keyed
  streams : ∀ key entry, c.streams.find? key = some entry → Clocked S key entry
  live : ∀ e ∈ c.interventions.entries, e.2.live = true
  issued : ∀ i ∈ c.requested, Issued S c i
  once : (c.requested.map InterventionIntent.arguments).Nodup
  retiredOnce : (c.retired.map InterventionIntent.id).Nodup
  gone : ∀ i ∈ c.retired, i.id ∉ c.interventions.keys
  terminal : ∀ i ∈ c.retired, i.state = .expired ∨ i.state = .revoked
  accounted : ∀ id, id ∈ c.requested.map InterventionIntent.id ↔
    id ∈ c.interventions.keys ∨ id ∈ c.retired.map InterventionIntent.id

/-! ### Sweeps -/

theorem id_retiredIntent (intent : InterventionIntent) (verdict : AuthorityVerdict) (now : Tick) :
    (retiredIntent intent verdict now).id = intent.id := by
  rw [retiredIntent]

theorem terminal_retiredIntent (intent : InterventionIntent) (verdict : AuthorityVerdict)
    (now : Tick) : (retiredIntent intent verdict now).state = .expired ∨
      (retiredIntent intent verdict now).state = .revoked := by
  simp only [retiredIntent]
  split
  · exact Or.inl rfl
  · exact Or.inr rfl

/-- What a sweep retires, in the order of the table. -/
def swept (fate : InterventionIntent → Fate) (now : Tick)
    (es : List (InterventionId × InterventionIntent)) : List InterventionIntent :=
  (es.map Prod.snd).filterMap fun intent => (fate intent).leaves intent now

theorem mem_swept {fate : InterventionIntent → Fate} {now : Tick}
    {es : List (InterventionId × InterventionIntent)} {i : InterventionIntent} :
    i ∈ swept fate now es ↔
      ∃ e ∈ es, ∃ verdict, fate e.2 = .retire verdict ∧ i = retiredIntent e.2 verdict now := by
  rw [swept, List.filterMap_map, List.mem_filterMap]
  refine exists_congr fun e => and_congr_right fun _ => ?_
  rw [Function.comp_apply]
  cases fate e.2 with
  | keep => simp [Fate.leaves]
  | drop => simp [Fate.leaves]
  | retire verdict => simp [Fate.leaves, eq_comm]

/-- Each entry leaves at most one intent, under its own identity. -/
theorem ids_swept_sublist (fate : InterventionIntent → Fate) (now : Tick) :
    ∀ es : List (InterventionId × InterventionIntent), (∀ e ∈ es, e.2.id = e.1) →
      ((swept fate now es).map InterventionIntent.id).Sublist (es.map Prod.fst)
  | [], _ => List.Sublist.refl []
  | e :: es, h => by
    have ih := ids_swept_sublist fate now es fun e' he' => h e' (List.mem_cons_of_mem e he')
    rw [swept] at ih ⊢
    rw [List.map_cons, List.map_cons, List.filterMap_cons]
    cases hfate : fate e.2 with
    | keep => exact ih.cons _
    | drop => exact ih.cons _
    | retire verdict =>
      simp only [Fate.leaves, List.map_cons, id_retiredIntent, h e (by simp)]
      exact ih.cons_cons e.1

variable {S : Set (StreamKey × Tick)} {c : Core}

theorem Issued.congr {c' : Core} {i : InterventionIntent} (h : Issued S c i)
    (hstreams : c'.streams = c.streams) : Issued S c' i := by
  obtain ⟨hid, hplaced⟩ := h
  rw [Placed, ← hstreams] at hplaced
  exact ⟨hid, hplaced⟩

/-- A step that leaves the streams and the intents alone. -/
theorem Ledgered.congr {c' : Core} (h : c.Ledgered S) (hstreams : c'.streams = c.streams)
    (hview : c'.intentView = c.intentView) : c'.Ledgered S := by
  obtain ⟨hkeyed, hclocked, hlive, hissued, honce, hretiredOnce, hgone, hterminal, haccounted⟩ := h
  have htable : c'.interventions = c.interventions := congrArg IntentView.interventions hview
  have hrequested : c'.requested = c.requested := congrArg IntentView.requested hview
  have hretired : c'.retired = c.retired := congrArg IntentView.retired hview
  simp only [Keyed] at hkeyed
  rw [← htable] at hkeyed hlive hgone haccounted
  rw [← hrequested] at hissued honce haccounted
  rw [← hretired] at hretiredOnce hgone hterminal haccounted
  rw [← hstreams] at hclocked
  exact ⟨hkeyed, hclocked, hlive, fun i hi => (hissued i hi).congr hstreams, honce, hretiredOnce, hgone,
    hterminal, haccounted⟩

/-- SWEEP: what leaves the table enters the history, once. -/
theorem Ledgered.sweep (h : c.Ledgered S) {fate : InterventionIntent → Fate}
    (hkeeps : ∀ i, i.live = true → fate i ≠ .drop) (now : Tick) : (c.sweep fate now).Ledgered S := by
  have hretired : (c.sweep fate now).retired = c.retired ++ swept fate now c.interventions.entries :=
    rfl
  have hleaves : ∀ i ∈ swept fate now c.interventions.entries, i.id ∈ c.interventions.keys := by
    intro i hi
    obtain ⟨e, he, verdict, -, rfl⟩ := mem_swept.mp hi
    rw [id_retiredIntent, h.keyed e he]
    exact UnorderedMap.mem_keys_of_mem he
  refine ⟨keyed_sweep h.keyed fate now, h.streams, fun e he => h.live e (mem_sweep.mp he).1,
    fun i hi => (h.issued i hi).congr rfl, h.once, ?_, fun i hi hin => ?_, fun i hi => ?_, fun id => ?_⟩
  · rw [hretired, List.map_append, List.nodup_append]
    refine ⟨h.retiredOnce, c.interventions.nodup.sublist
      (ids_swept_sublist fate now _ fun e he => h.keyed e he), fun a ha b hb heq => ?_⟩
    obtain ⟨i, hi, rfl⟩ := List.mem_map.mp ha
    obtain ⟨j, hj, hid⟩ := List.mem_map.mp hb
    exact h.gone i hi (heq ▸ hid ▸ hleaves j hj)
  · obtain ⟨e, he, hid⟩ := List.mem_map.mp hin
    obtain ⟨hmem, hkeep⟩ := mem_sweep.mp he
    rw [hretired, List.mem_append] at hi
    rcases hi with hi | hi
    · exact h.gone i hi (hid ▸ UnorderedMap.mem_keys_of_mem hmem)
    · obtain ⟨e', he', verdict, hfate, rfl⟩ := mem_swept.mp hi
      rw [id_retiredIntent, h.keyed e' he'] at hid
      rw [UnorderedMap.eq_of_mem hmem he' hid, hfate] at hkeep
      cases hkeep
  · rw [hretired, List.mem_append] at hi
    rcases hi with hi | hi
    · exact h.terminal i hi
    · obtain ⟨e, -, verdict, -, rfl⟩ := mem_swept.mp hi
      exact terminal_retiredIntent e.2 verdict now
  · rw [hretired, List.map_append, List.mem_append]
    refine (h.accounted id).trans ⟨?_, ?_⟩
    · rintro (hin | hin)
      · obtain ⟨e, he, rfl⟩ := List.mem_map.mp hin
        cases hfate : fate e.2 with
        | keep => exact Or.inl (List.mem_map.mpr ⟨e, mem_sweep.mpr ⟨he, hfate⟩, rfl⟩)
        | drop => exact absurd hfate (hkeeps e.2 (h.live e he))
        | retire verdict =>
          refine Or.inr (Or.inr (List.mem_map.mpr
            ⟨_, mem_swept.mpr ⟨e, he, verdict, hfate, rfl⟩, ?_⟩))
          rw [id_retiredIntent, h.keyed e he]
      · exact Or.inr (Or.inl hin)
    · rintro (hin | hin | hin)
      · obtain ⟨e, he, rfl⟩ := List.mem_map.mp hin
        exact Or.inl (UnorderedMap.mem_keys_of_mem (mem_sweep.mp he).1)
      · exact Or.inr hin
      · obtain ⟨i, hi, rfl⟩ := List.mem_map.mp hin
        exact Or.inl (hleaves i hi)

theorem refreshFate_ne_drop {now : Tick} {onlyEvent : EventId} {i : InterventionIntent}
    (h : i.live = true) : c.refreshFate now onlyEvent i ≠ .drop := by
  rw [refreshFate, h]
  split
  · exact fun hf => by cases hf
  · simp only [Bool.not_true, Bool.false_eq_true, if_false]
    split <;> exact fun hf => by cases hf

theorem Ledgered.refresh (h : c.Ledgered S) (now : Tick) (onlyEvent : EventId := default) :
    (c.refresh now onlyEvent).Ledgered S := h.sweep (fun _ => refreshFate_ne_drop) now

/-! ### Requests -/

theorem Ledgered.renew (h : c.Ledgered S) (decision : DetectionDecision) (now : Tick)
    (limit : InterventionKindLimit) (intent : InterventionIntent) :
    (c.renew decision now limit intent).Ledgered S := by
  have hkeys : (c.renew decision now limit intent).interventions.keys = c.interventions.keys := by
    rw [Core.renew, UnorderedMap.keys_update]
  have hrequested : (c.renew decision now limit intent).requested = c.requested := by rw [Core.renew]
  have hretired : (c.renew decision now limit intent).retired = c.retired := by rw [Core.renew]
  have hstreams : (c.renew decision now limit intent).streams = c.streams := by rw [Core.renew]
  have hkeyed := keyed_renew h.keyed decision now limit intent
  refine ⟨hkeyed, ?_, fun e he => ?_, fun i hi => ?_, ?_, ?_, fun i hi => ?_, fun i hi => ?_, ?_⟩
  · rw [hstreams]
    exact h.streams
  · rcases mem_renew he with he | heq
    · exact h.live e he
    · rw [heq]
      exact c.live_refreshedIntent decision now limit intent
  · rw [hrequested] at hi
    exact (h.issued i hi).congr hstreams
  · rw [hrequested]
    exact h.once
  · rw [hretired]
    exact h.retiredOnce
  · rw [hretired] at hi
    rw [hkeys]
    exact h.gone i hi
  · rw [hretired] at hi
    exact h.terminal i hi
  · rw [hrequested, hretired, hkeys]
    exact h.accounted

/-- ISSUE: new arguments make a new identity. -/
theorem Ledgered.issue {R : Set (EventId × InterventionKind × Tick)}
    (hR : R.InjOn fun t => makeInterventionId t.1 t.2.1 t.2.2) (h : c.Ledgered S)
    {decision : DetectionDecision} {now : Tick} {kind : InterventionKind}
    {limit : InterventionKindLimit}
    (hall : ∀ i ∈ (c.issue decision now kind limit).requested, i.arguments ∈ R)
    (hnew : ∀ i ∈ c.requested, i.arguments ≠ (decision.event, kind, now))
    (hplaced : Placed S c decision.event now) : (c.issue decision now kind limit).Ledgered S := by
  have hstreams : (c.issue decision now kind limit).streams = c.streams := by rw [Core.issue]
  have hretired : (c.issue decision now kind limit).retired = c.retired := by rw [Core.issue]
  have hrequested : (c.issue decision now kind limit).requested =
      c.requested ++ [c.shell.newIntent decision now kind limit] := by rw [Core.issue]
  have htable : (c.issue decision now kind limit).interventions =
      c.interventions.emplace c.hashing.interventions (c.shell.newIntent decision now kind limit).id
        (c.shell.newIntent decision now kind limit) := by rw [Core.issue]
  have hkeyed := keyed_issue h.keyed decision now kind limit
  have hissued : Issued S c (c.shell.newIntent decision now kind limit) := by
    constructor <;> simp only [Governor.newIntent]
    exact hplaced
  have harguments : (c.shell.newIntent decision now kind limit).arguments =
      (decision.event, kind, now) := by simp only [InterventionIntent.arguments, Governor.newIntent]
  have hlive := c.live_newIntent decision now kind limit
  have hmem : ∀ e, e ∈ (c.issue decision now kind limit).interventions.entries →
      e ∈ c.interventions.entries ∨ e.2 = c.shell.newIntent decision now kind limit := fun _ he =>
    (mem_issue he).imp_right (congrArg Prod.snd)
  generalize c.shell.newIntent decision now kind limit = new at *
  generalize c.issue decision now kind limit = c' at *
  -- another intent of this identity would have these arguments
  have hfresh : new.id ∉ c.requested.map InterventionIntent.id := by
    intro hin
    obtain ⟨i, hi, hid⟩ := List.mem_map.mp hin
    have hinR := hall i (by rw [hrequested]; exact List.mem_append_left _ hi)
    have hnewR := hall new (by rw [hrequested]; simp)
    refine hnew i hi ((hR hinR hnewR ?_).trans harguments)
    exact (h.issued i hi).id.symm.trans (hid.trans hissued.id)
  have hkeysIn := fun hin => hfresh ((h.accounted new.id).mpr (Or.inl hin))
  have hkeys : ∀ id, id ∈ c'.interventions.keys ↔ id = new.id ∨ id ∈ c.interventions.keys := by
    intro id
    rw [htable, UnorderedMap.mem_keys_emplace]
  refine ⟨hkeyed, ?_, fun e he => ?_, fun i hi => ?_, ?_, ?_, fun i hi hin => ?_, fun i hi => ?_,
    fun id => ?_⟩
  · rw [hstreams]
    exact h.streams
  · rcases hmem e he with he | heq
    · exact h.live e he
    · rw [heq]
      exact hlive
  · rw [hrequested, List.mem_append, List.mem_singleton] at hi
    rcases hi with hi | rfl
    · exact (h.issued i hi).congr hstreams
    · exact hissued.congr hstreams
  · rw [hrequested, List.map_append, List.nodup_append]
    refine ⟨h.once, List.nodup_singleton _, fun a ha b hb heq => ?_⟩
    obtain ⟨i, hi, rfl⟩ := List.mem_map.mp ha
    rw [List.map_singleton, List.mem_singleton] at hb
    exact hnew i hi (heq.trans (hb.trans harguments))
  · rw [hretired]
    exact h.retiredOnce
  · rw [hretired] at hi
    rcases (hkeys _).mp hin with heq | hin
    · exact hfresh ((h.accounted new.id).mpr (Or.inr (heq ▸ List.mem_map_of_mem hi)))
    · exact h.gone i hi hin
  · rw [hretired] at hi
    exact h.terminal i hi
  · rw [hrequested, hretired, List.map_append, List.mem_append, h.accounted, hkeys, List.map_singleton,
      List.mem_singleton]
    tauto

/-- One decision asks for each kind once. -/
theorem Ledgered.maybeRequest {R : Set (EventId × InterventionKind × Tick)}
    (hR : R.InjOn fun t => makeInterventionId t.1 t.2.1 t.2.2) (h : c.Ledgered S)
    {decision : DetectionDecision} {now : Tick}
    (hall : ∀ i ∈ (c.maybeRequest decision now).requested, i.arguments ∈ R)
    (hnew : ∀ i ∈ c.requested, i.event = decision.event → i.authority.issuedTick ≠ now)
    (hplaced : Placed S c decision.event now) : (c.maybeRequest decision now).Ledgered S := by
  rw [Core.maybeRequest] at hall ⊢
  split
  · rename_i henabled
    rw [if_pos henabled] at hall
    refine (foldl_requestKind_induct (P := fun kinds r => kinds.Nodup ∧
      ((∀ i ∈ r.core.requested, i.arguments ∈ R) → r.core.Ledgered S ∧
        (∀ i ∈ r.core.requested, i.event = decision.event → i.kind ∈ kinds →
          i.authority.issuedTick ≠ now) ∧ Placed S r.core decision.event now))
      ?_ ?_ ?_ _ _ ⟨by decide, fun _ => ⟨h, fun i hi he _ => hnew i hi he, hplaced⟩⟩).2 hall |>.1
    · rintro r kind kinds ⟨hnodup, h⟩
      refine ⟨hnodup.of_cons, fun hall => ?_⟩
      obtain ⟨hled, hnew, hplaced⟩ := h hall
      exact ⟨hled, fun i hi he hk => hnew i hi he (List.mem_cons_of_mem _ hk), hplaced⟩
    · rintro r kind kinds intent ⟨hnodup, h⟩ - -
      refine ⟨hnodup.of_cons, fun hall => ?_⟩
      have hrequested : (r.core.renew decision now
          (((c.policies.resolve decision.stream.resource).intervention).kinds kind) intent).requested =
          r.core.requested := by rw [Core.renew]
      have hstreams : (r.core.renew decision now
          (((c.policies.resolve decision.stream.resource).intervention).kinds kind) intent).streams =
          r.core.streams := by rw [Core.renew]
      dsimp only at hall ⊢
      rw [hrequested] at hall ⊢
      rw [Placed, hstreams]
      obtain ⟨hled, hnew, hplaced⟩ := h hall
      exact ⟨hled.renew decision now _ intent,
        fun i hi he hk => hnew i hi he (List.mem_cons_of_mem _ hk), hplaced⟩
    · rintro r kind kinds ⟨hnodup, h⟩ - - - - -
      refine ⟨hnodup.of_cons, fun hall => ?_⟩
      have hrequested : (r.core.issue decision now kind
          (((c.policies.resolve decision.stream.resource).intervention).kinds kind)).requested =
          r.core.requested ++ [r.core.shell.newIntent decision now kind
            (((c.policies.resolve decision.stream.resource).intervention).kinds kind)] := by
        rw [Core.issue]
      have hstreams : (r.core.issue decision now kind
          (((c.policies.resolve decision.stream.resource).intervention).kinds kind)).streams =
          r.core.streams := by rw [Core.issue]
      have hkind : (r.core.shell.newIntent decision now kind
          (((c.policies.resolve decision.stream.resource).intervention).kinds kind)).kind = kind := by
        simp only [Governor.newIntent]
      dsimp only at hall ⊢
      obtain ⟨hled, hnew, hplaced⟩ := h fun i hi => hall i
        (by rw [hrequested]; exact List.mem_append_left _ hi)
      refine ⟨hled.issue hR hall (fun i hi heq => ?_) hplaced, ?_, ?_⟩
      · simp only [InterventionIntent.arguments, Prod.mk.injEq] at heq
        exact hnew i hi heq.1 (heq.2.1 ▸ List.mem_cons_self) heq.2.2
      · rw [hrequested]
        intro i hi he hk
        rw [List.mem_append, List.mem_singleton] at hi
        rcases hi with hi | rfl
        · exact hnew i hi he (List.mem_cons_of_mem _ hk)
        · rw [hkind] at hk
          exact absurd hk (List.nodup_cons.mp hnodup).1
      · rw [Placed, hstreams]
        exact hplaced
  · exact h

/-! ### The logs only grow -/

/-- The logs of a later core begin with those of an earlier one. -/
structure LogsGrow (c c' : Core) : Prop where
  requested : c.requested <+: c'.requested
  retired : c.retired <+: c'.retired

theorem LogsGrow.refl (c : Core) : LogsGrow c c := ⟨List.prefix_rfl, List.prefix_rfl⟩

theorem LogsGrow.trans {c c' c'' : Core} (h : LogsGrow c c') (h' : LogsGrow c' c'') : LogsGrow c c'' :=
  ⟨h.requested.trans h'.requested, h.retired.trans h'.retired⟩

/-- A step that leaves the logs alone. -/
theorem LogsGrow.congr {c c₁ c₂ : Core} (h : LogsGrow c c₁) (hrequested : c₂.requested = c₁.requested)
    (hretired : c₂.retired = c₁.retired) : LogsGrow c c₂ :=
  ⟨hrequested ▸ h.requested, hretired ▸ h.retired⟩

theorem LogsGrow.sweep {c c₁ : Core} (h : LogsGrow c c₁) (fate : InterventionIntent → Fate)
    (now : Tick) : LogsGrow c (c₁.sweep fate now) :=
  h.trans ⟨List.prefix_rfl, List.prefix_append _ _⟩

theorem LogsGrow.refresh {c c₁ : Core} (h : LogsGrow c c₁) (now : Tick)
    (onlyEvent : EventId := default) : LogsGrow c (c₁.refresh now onlyEvent) := h.sweep _ now

theorem logsGrow_maybeRequest (c : Core) (decision : DetectionDecision) (now : Tick) :
    LogsGrow c (c.maybeRequest decision now) := by
  refine maybeRequest_induct (P := LogsGrow c) (fun c₁ kind limit intent h _ => ?_)
    (fun c₁ kind limit h => ?_) (.refl c)
  · exact h.congr (by rw [Core.renew]) (by rw [Core.renew])
  · refine h.trans ⟨?_, ?_⟩
    · rw [Core.issue]
      exact List.prefix_append _ _
    · rw [Core.issue]

theorem logsGrow_mirrorEpisode (c : Core) (event : BurstEvent) (r : DetectionDecision) (now : Tick) :
    LogsGrow c (c.mirrorEpisode event r now) := by
  unfold mirrorEpisode
  extract_lets c₁
  have h₁ : LogsGrow c c₁ := by
    dsimp only [c₁]
    split
    · exact (LogsGrow.refl c).congr rfl rfl
    · split
      · exact (LogsGrow.refl c).congr rfl rfl
      · exact .refl c
  split
  · have hclose : LogsGrow c { c₁ with openEvents := c₁.openEvents.erase event.id } :=
      h₁.congr rfl rfl
    exact (hclose.refresh now event.id).congr rfl rfl
  · exact h₁

theorem logsGrow_processDecision (c : Core) (d : Detector) (r : DetectionDecision) (now : Tick) :
    LogsGrow c (c.processDecision d r now) := by
  unfold processDecision
  extract_lets c₁ c₂
  have h₁ : LogsGrow c c₁ := (LogsGrow.refl c).congr rfl rfl
  have h₂ : LogsGrow c c₂ := h₁.trans (logsGrow_mirrorEpisode c₁ _ r now)
  split
  · exact h₂.trans (logsGrow_maybeRequest c₂ r now)
  · exact h₂

theorem logsGrow_mirrorDecision (c : Core) (key : StreamKey) (entry : StreamEntry)
    (r : DetectionDecision) (now : Tick) : LogsGrow c (c.mirrorDecision key entry r now) := by
  rw [mirrorDecision]
  split
  · refine LogsGrow.trans ?_ (logsGrow_processDecision _ _ r now)
    exact (LogsGrow.refl c).congr rfl rfl
  · exact (LogsGrow.refl c).congr rfl rfl

theorem LogsGrow.raiseLastTick {c c₁ : Core} (h : LogsGrow c c₁) (tick : Tick) :
    LogsGrow c (c₁.raiseLastTick tick) := by
  rw [Core.raiseLastTick]
  split
  · exact h.congr rfl rfl
  · exact h

theorem LogsGrow.observeGeneration {c c₁ : Core} (h : LogsGrow c c₁) (sample : Sample) :
    LogsGrow c (c₁.observeGeneration sample) := by
  obtain ⟨resourceGenerations, heq⟩ := c₁.base_observeGeneration sample
  rw [heq]
  exact h.congr rfl rfl

theorem LogsGrow.rearm {c c₁ : Core} (h : LogsGrow c c₁) (keys : List StreamKey) :
    LogsGrow c (c₁.rearm keys) :=
  h.congr (congrArg IntentView.requested (intentView_rearm keys c₁))
    (congrArg IntentView.retired (intentView_rearm keys c₁))

theorem logsGrow_step (c : Core) (op : Governor.Op) : LogsGrow c (c.step op) := by
  have hrefl := LogsGrow.refl c
  have hadopt : ∀ policies, LogsGrow c (c.adoptPolicies policies) := fun _ => hrefl.congr rfl rfl
  cases op with
  | ingest sample =>
    exact ingest_induct (P := LogsGrow c) hrefl (fun _ => hrefl.congr rfl rfl)
      (fun _ h => h.observeGeneration sample)
      (fun c₁ entry d' r _ h _ _ _ _ => h.trans (logsGrow_mirrorDecision c₁ _ _ r r.tick))
      (fun _ tick h => h.raiseLastTick tick) fun _ tick _ h => h.refresh tick
  | advance now =>
    exact advance_induct (P := LogsGrow c) hrefl
      (fun c₁ key entry d' r h _ _ _ _ _ _ => h.trans (logsGrow_mirrorDecision c₁ key _ r now))
      (fun _ h => h.raiseLastTick now) fun _ h => h.refresh now
  | installPolicy policy =>
    rw [step, installPolicy]
    split
    · exact hrefl
    · exact ((hadopt _).rearm _).refresh _
  | setResourcePolicy resource policy =>
    rw [step, setResourcePolicy]
    split
    · exact hrefl
    · exact ((hadopt _).rearm _).refresh _
  | removeResourcePolicy resource =>
    rw [step, removeResourcePolicy]
    split
    · exact hrefl
    · exact (hadopt _).refresh _
  | bindAuthority epoch incarnation boot =>
    rw [step, bindAuthority]
    split
    · exact hrefl
    · apply LogsGrow.refresh
      exact hrefl.congr rfl rfl
  | setResourceGeneration resource generation =>
    rw [step, setResourceGeneration]
    split
    · exact hrefl
    · apply LogsGrow.refresh
      exact hrefl.congr rfl rfl
  | setInterventionsEnabled enabled =>
    rw [step, setInterventionsEnabled]
    dsimp only
    split
    · apply LogsGrow.sweep
      exact hrefl.congr rfl rfl
    · exact hrefl.congr rfl rfl
  | bindStore _ => exact hrefl
  | checkpoint => exact hrefl
  | restore => exact hrefl
  | drainEmissions => exact hrefl

/-! ### Steps -/

theorem Placed.insert {c' : Core} {event : EventId} {tick : Tick} (h : Placed S c event tick)
    {key : StreamKey} {entry' : StreamEntry} (hstreams : c'.streams = c.streams.insert key entry')
    (hraised : ∀ entry, c.streams.find? key = some entry → entry.hasProcessed = true →
      entry'.hasProcessed = true ∧ entry.lastProcessed.value ≤ entry'.lastProcessed.value) :
    Placed S c' event tick := by
  obtain ⟨key', onset, entry, hmem, hid, hfind, hprocessed, hle⟩ := h
  by_cases hk : key' = key
  · subst hk
    obtain ⟨hprocessed', hle'⟩ := hraised entry hfind hprocessed
    refine ⟨key', onset, entry', hmem, hid, ?_, hprocessed', UInt64.le_trans hle hle'⟩
    rw [hstreams, OrderedMap.find?_insert_self]
  · refine ⟨key', onset, entry, hmem, hid, ?_, hprocessed, hle⟩
    rw [hstreams, OrderedMap.find?_insert_of_ne _ _ hk]
    exact hfind

/-- A stream's entry is replaced by one whose clock is not behind. -/
theorem Ledgered.insert {c' : Core} (h : c.Ledgered S) {key : StreamKey} {entry' : StreamEntry}
    (hstreams : c'.streams = c.streams.insert key entry') (hview : c'.intentView = c.intentView)
    (hclocked : Clocked S key entry')
    (hraised : ∀ entry, c.streams.find? key = some entry → entry.hasProcessed = true →
      entry'.hasProcessed = true ∧ entry.lastProcessed.value ≤ entry'.lastProcessed.value) :
    c'.Ledgered S := by
  have htable : c'.interventions = c.interventions := congrArg IntentView.interventions hview
  have hrequested : c'.requested = c.requested := congrArg IntentView.requested hview
  have hretired : c'.retired = c.retired := congrArg IntentView.retired hview
  refine ⟨?_, fun key' entry hfind => ?_, ?_, fun i hi => ?_, ?_, ?_, ?_, ?_, ?_⟩
  · rw [Keyed, htable]
    exact h.keyed
  · rw [hstreams, OrderedMap.find?_insert] at hfind
    split at hfind
    · rename_i hk
      cases hfind
      exact hk ▸ hclocked
    · exact h.streams key' entry hfind
  · rw [htable]
    exact h.live
  · rw [hrequested] at hi
    exact ⟨(h.issued i hi).id, (h.issued i hi).placed.insert hstreams hraised⟩
  · rw [hrequested]
    exact h.once
  · rw [hretired]
    exact h.retiredOnce
  · rw [hretired, htable]
    exact h.gone
  · rw [hretired]
    exact h.terminal
  · rw [hrequested, hretired, htable]
    exact h.accounted

theorem Ledgered.mirrorEpisode (h : c.Ledgered S) (event : BurstEvent) (r : DetectionDecision)
    (now : Tick) : (c.mirrorEpisode event r now).Ledgered S := by
  unfold Core.mirrorEpisode
  extract_lets c₁
  have h₁ : c₁.Ledgered S := by
    dsimp only [c₁]
    split
    · exact h.congr rfl rfl
    · split
      · exact h.congr rfl rfl
      · exact h
  split
  · have herase : Ledgered S { c₁ with openEvents := c₁.openEvents.erase event.id } :=
      h₁.congr rfl rfl
    apply Ledgered.congr (herase.refresh now event.id) <;> rfl
  · exact h₁

theorem requested_mirrorEpisode (c : Core) (event : BurstEvent) (r : DetectionDecision)
    (now : Tick) : (c.mirrorEpisode event r now).requested = c.requested := by
  unfold mirrorEpisode
  extract_lets c₁
  have h₁ : c₁.requested = c.requested := by
    dsimp only [c₁]
    split
    · rfl
    · split <;> rfl
  split <;> exact h₁

/-- In the lower half of the range an unprocessed tick is above the last processed one. -/
theorem lt_of_unprocessed {entry : StreamEntry} {tick : Tick}
    (h : Governor.StreamEntry.unprocessed entry tick = true) (hprocessed : entry.hasProcessed = true)
    (hlast : entry.lastProcessed.value.toNat < 2 ^ 63) (htick : tick.value.toNat < 2 ^ 63) :
    entry.lastProcessed.value < tick.value := by
  rw [Governor.StreamEntry.unprocessed, hprocessed, Bool.not_true, Bool.false_or] at h
  exact (tickAfter_iff_lt hlast htick).mp h

/-- The ticks of a decision are those offered and those cached. -/
theorem Clocked.answer {key : StreamKey} {entry : StreamEntry} (h : Clocked S key entry)
    {fences : Bool} {now : Tick} {d' : Detector} {r : DetectionDecision}
    (ha : Answer fences entry.detector now d' r) (hnow : now.value.toNat < 2 ^ 63)
    (hseen : d'.episode.id = makeEventId key d'.episode.metrics.onsetTick →
      (key, d'.episode.metrics.onsetTick) ∈ S) :
    NamesOwn S key r ∧ r.tick.value.toNat < 2 ^ 63 ∧ Clocked S key { entry with detector := d' } := by
  obtain ⟨hown, hsourced⟩ := h.sourced.answer ha hseen
  refine ⟨hown, ?_, hsourced, ?_, h.processed⟩
  · cases ha with
    | fenced _ _ _ _ _ _ _ _ tick => rw [tick]; exact hnow
    | evaluated _ _ _ _ _ _ tick => rw [tick]; exact hnow
    | cached _ _ repeated => rw [repeated]; exact h.decided
  · dsimp only
    cases ha with
    | fenced _ _ _ _ _ _ _ cached => rw [cached]; exact h.decided
    | evaluated _ _ _ _ _ cached tick => rw [cached, tick]; exact hnow
    | cached same => rw [same.cached]; exact h.decided

/-- MIRROR: a decision at a new tick of its stream asks for new identities. -/
theorem Ledgered.mirrorDecision {R : Set (EventId × InterventionKind × Tick)}
    (hd : DistinctIdentities S) (hR : R.InjOn fun t => makeInterventionId t.1 t.2.1 t.2.2)
    (h : c.Ledgered S) {key : StreamKey} {entry : StreamEntry}
    (hfind : c.streams.find? key = some entry) {d' : Detector} {r : DetectionDecision}
    (hown : NamesOwn S key r) (htick : r.tick.value.toNat < 2 ^ 63)
    (hclocked : Clocked S key { entry with detector := d' })
    (hall : ∀ i ∈ (c.mirrorDecision key { entry with detector := d' } r r.tick).requested,
      i.arguments ∈ R) :
    (c.mirrorDecision key { entry with detector := d' } r r.tick).Ledgered S := by
  have hlast := (h.streams key entry hfind).processed
  rw [Core.mirrorDecision] at hall ⊢
  by_cases hafter : Governor.StreamEntry.unprocessed { entry with detector := d' } r.tick = true
  · rw [if_pos hafter] at hall ⊢
    have hrise : entry.hasProcessed = true → entry.lastProcessed.value < r.tick.value := fun hp =>
      lt_of_unprocessed hafter hp hlast htick
    set entry' : StreamEntry := { detector := d', hasProcessed := true, lastProcessed := r.tick }
      with hentry'
    have h₁ : (c.setEntry key entry').Ledgered S := by
      refine h.insert rfl rfl ⟨hclocked.sourced, hclocked.decided, htick⟩ fun entry₀ hfind₀ hp => ?_
      rw [hfind] at hfind₀
      cases hfind₀
      exact ⟨rfl, UInt64.le_of_lt (hrise hp)⟩
    have hentry : (c.setEntry key entry').streams.find? key = some entry' := by
      rw [setEntry, OrderedMap.find?_insert_self]
    have hrequested₁ : (c.setEntry key entry').requested = c.requested := rfl
    generalize c.setEntry key entry' = c₁ at *
    unfold processDecision at hall ⊢
    extract_lets c₂ c₃ at hall
    extract_lets
    have h₂ : c₂.Ledgered S := h₁.congr rfl rfl
    have h₃ : c₃.Ledgered S := h₂.mirrorEpisode _ r r.tick
    have hrequested : c₃.requested = c.requested :=
      (requested_mirrorEpisode c₂ _ r r.tick).trans hrequested₁
    have hstreams : c₃.streams = c₁.streams :=
      congrArg Base.streams (c₂.base_mirrorEpisode (c₂.shell.decisionEvent d' r) r r.tick)
    split
    · rename_i hpositive
      rw [if_pos hpositive] at hall
      rw [Bool.and_eq_true] at hpositive
      obtain ⟨-, onset, hmem, hevent⟩ := hown hpositive.1
      refine h₃.maybeRequest hR hall (fun i hi heq hsame => ?_) ⟨key, onset, entry', hmem, hevent, ?_,
        rfl, UInt64.le_refl _⟩
      · -- an intent of this event was issued for this stream, at a tick it had processed
        rw [hrequested] at hi
        obtain ⟨key', onset', entry₀, hmem', hid, hfind₀, hprocessed, hle⟩ := (h.issued i hi).placed
        have hpair := hd hmem' hmem (hid.symm.trans (heq.trans hevent))
        obtain ⟨rfl, -⟩ := Prod.mk.inj hpair
        rw [hfind] at hfind₀
        cases hfind₀
        rw [hsame] at hle
        exact absurd hle (UInt64.not_le.mpr (hrise hprocessed))
      · rw [hstreams]
        exact hentry
    · exact h₃
  · rw [if_neg hafter] at hall ⊢
    refine h.insert rfl rfl hclocked fun entry₀ hfind₀ hp => ?_
    rw [hfind] at hfind₀
    cases hfind₀
    exact ⟨hp, UInt64.le_refl _⟩

theorem clocked_freshEntry (c : Core) (key : StreamKey) : Clocked S key (c.freshEntry key) where
  sourced := ⟨rfl, Or.inr ⟨rfl, rfl⟩, fun h => by cases h⟩
  decided := (by decide : (0 : UInt64).toNat < 2 ^ 63)
  processed := (by decide : (0 : UInt64).toNat < 2 ^ 63)

theorem Ledgered.raiseLastTick (h : c.Ledgered S) (tick : Tick) : (c.raiseLastTick tick).Ledgered S := by
  rw [Core.raiseLastTick]
  split
  · exact h.congr rfl rfl
  · exact h

theorem Ledgered.observeGeneration (h : c.Ledgered S) (sample : Sample) :
    (c.observeGeneration sample).Ledgered S := by
  obtain ⟨resourceGenerations, heq⟩ := c.base_observeGeneration sample
  rw [heq]
  exact h.congr rfl rfl

section

variable {R : Set (EventId × InterventionKind × Tick)}

/-- The arguments of the intents requested so far. -/
def RequestedWithin (R : Set (EventId × InterventionKind × Tick)) (c : Core) : Prop :=
  ∀ i ∈ c.requested, i.arguments ∈ R

theorem RequestedWithin.of_logsGrow {c' : Core} (h : RequestedWithin R c') (hg : LogsGrow c c') :
    RequestedWithin R c := fun i hi => h i (hg.requested.subset hi)

theorem Ledgered.ingest (hd : DistinctIdentities S)
    (hR : R.InjOn fun t => makeInterventionId t.1 t.2.1 t.2.2) (h : c.Ledgered S) {sample : Sample}
    (htick : sample.tick.value.toNat < 2 ^ 63) (hsub : (c.ingest sample).onsets ⊆ S)
    (hall : RequestedWithin R (c.ingest sample)) : (c.ingest sample).Ledgered S := by
  refine ingest_induct (P := fun c' => RequestedWithin R c' → c'.Ledgered S) (fun _ => h)
    (fun hnone _ => ?_) (fun c₁ h₁ hall => ?_) (fun c₁ entry d' r _ h₁ hfind₁ _ ha hafter hall => ?_)
    (fun c₁ tick h₁ hall => ?_) (fun c₁ tick _ h₁ hall => ?_) hall
  · refine h.insert rfl rfl (c.clocked_freshEntry sample.stream) fun entry hfind => ?_
    rw [hnone] at hfind
    cases hfind
  · exact (h₁ (hall.of_logsGrow (LogsGrow.observeGeneration (.refl c₁) sample))).observeGeneration
      sample
  · have h₁ := h₁ (hall.of_logsGrow (logsGrow_mirrorDecision c₁ _ _ r r.tick))
    obtain ⟨hown, hr, hclocked⟩ := (h₁.streams _ entry hfind₁).answer ha htick
      (onset_of_entry { entry with detector := d' } hsub hafter)
    exact h₁.mirrorDecision hd hR hfind₁ hown hr hclocked hall
  · exact (h₁ (hall.of_logsGrow (LogsGrow.raiseLastTick (.refl c₁) tick))).raiseLastTick tick
  · exact (h₁ (hall.of_logsGrow (LogsGrow.refresh (.refl c₁) tick))).refresh tick

theorem Ledgered.advance (hd : DistinctIdentities S)
    (hR : R.InjOn fun t => makeInterventionId t.1 t.2.1 t.2.2) (h : c.Ledgered S) {now : Tick}
    (htick : now.value.toNat < 2 ^ 63) (hsub : (c.advance now).onsets ⊆ S)
    (hall : RequestedWithin R (c.advance now)) : (c.advance now).Ledgered S := by
  refine advance_induct (P := fun c' => RequestedWithin R c' → c'.Ledgered S) (fun _ => h)
    (fun c₁ key entry d' r h₁ hfind₁ _ _ ha hr hafter hall => ?_) (fun c₁ h₁ hall => ?_)
    (fun c₁ h₁ hall => ?_) hall
  · have h₁ := h₁ (hall.of_logsGrow (logsGrow_mirrorDecision c₁ _ _ r now))
    obtain ⟨hown, htick', hclocked⟩ := (h₁.streams _ entry hfind₁).answer ha htick
      (onset_of_entry { entry with detector := d' } hsub hafter)
    rw [← hr] at hall ⊢
    exact h₁.mirrorDecision hd hR hfind₁ hown htick' hclocked hall
  · exact (h₁ (hall.of_logsGrow (LogsGrow.raiseLastTick (.refl c₁) now))).raiseLastTick now
  · exact (h₁ (hall.of_logsGrow (LogsGrow.refresh (.refl c₁) now))).refresh now

end

/-! ### Rearming -/

theorem Sourced.rearm {key : StreamKey} {d : Detector} (h : Sourced S key d) (policy : Policy)
    (generation : PolicyGeneration) (now : Tick) : Sourced S key (d.rearm policy generation now).1 := by
  have hr := d.rearmed_rearm policy generation now
  generalize d.rearm policy generation now = rearmed at *
  refine ⟨hr.key.trans h.key, ?_, hr.cached ▸ h.decided⟩
  rw [hr.current]
  rcases h.named with hnamed | ⟨hunset, -⟩
  · exact Or.inl hnamed
  · exact Or.inr ⟨hunset, rfl⟩

theorem Ledgered.rearmStream (h : c.Ledgered S) (key : StreamKey) : (c.rearmStream key).Ledgered S := by
  cases hfind : c.streams.find? key with
  | none =>
    rw [Core.rearmStream, hfind]
    exact h
  | some entry =>
    have hclocked := h.streams key entry hfind
    have hcached := (entry.detector.rearmed_rearm
      (c.policies.resolve entry.detector.key.resource) c.policies.generation c.lastTick).cached
    refine h.insert (congrArg Base.streams (base_rearmStream hfind)) (c.intentView_rearmStream key)
      ⟨hclocked.sourced.rearm _ _ _, ?_, hclocked.processed⟩ fun entry₀ hfind₀ hp => ?_
    · rw [show (c.rearmedEntry entry).detector.lastDecision = _ from hcached]
      exact hclocked.decided
    · rw [hfind] at hfind₀
      cases hfind₀
      exact ⟨hp, UInt64.le_refl _⟩

theorem Ledgered.rearm : ∀ (keys : List StreamKey) {c : Core}, c.Ledgered S → (c.rearm keys).Ledgered S
  | [], _, h => h
  | key :: keys, _, h => Ledgered.rearm keys (h.rearmStream key)

theorem Ledgered.adoptPolicies (h : c.Ledgered S) (policies : PolicySet) :
    (c.adoptPolicies policies).Ledgered S := h.congr rfl rfl

theorem revokeFate_ne_drop {verdict : AuthorityVerdict} {i : InterventionIntent}
    (h : i.live = true) : revokeFate verdict i ≠ .drop := by
  rw [revokeFate, h]
  exact fun hf => by cases hf

end Core

namespace Governor

/-- The tick an operation brings, if it brings one, lies in the lower half of the range. -/
def Op.TickBelowHalf : Op → Prop
  | .ingest sample => sample.tick.value.toNat < 2 ^ 63
  | .advance now => now.value.toNat < 2 ^ 63
  | _ => True

theorem ledgered_step {S : Set (StreamKey × Tick)} {R : Set (EventId × InterventionKind × Tick)}
    (hd : Core.DistinctIdentities S) (hR : R.InjOn fun t => makeInterventionId t.1 t.2.1 t.2.2)
    {c : Core} {op : Op} (htick : op.TickBelowHalf) (hsub : (c.step op).onsets ⊆ S)
    (hall : Core.RequestedWithin R (c.step op)) (h : c.Ledgered S) : (c.step op).Ledgered S := by
  cases op with
  | ingest sample => exact h.ingest hd hR htick hsub hall
  | advance now => exact h.advance hd hR htick hsub hall
  | installPolicy policy =>
    rw [Core.step, Core.installPolicy]
    split
    · exact h
    · exact (Core.Ledgered.rearm _ (h.adoptPolicies _)).refresh _
  | setResourcePolicy resource policy =>
    rw [Core.step, Core.setResourcePolicy]
    split
    · exact h
    · exact (Core.Ledgered.rearm _ (h.adoptPolicies _)).refresh _
  | removeResourcePolicy resource =>
    rw [Core.step, Core.removeResourcePolicy]
    split
    · exact h
    · exact (h.adoptPolicies _).refresh _
  | bindAuthority epoch incarnation boot =>
    rw [Core.step, Core.bindAuthority]
    split
    · exact h
    · apply Core.Ledgered.refresh
      exact h.congr rfl rfl
  | setResourceGeneration resource generation =>
    rw [Core.step, Core.setResourceGeneration]
    split
    · exact h
    · apply Core.Ledgered.refresh
      exact h.congr rfl rfl
  | setInterventionsEnabled enabled =>
    rw [Core.step, Core.setInterventionsEnabled]
    dsimp only
    split
    · apply Core.Ledgered.sweep
      · exact h.congr rfl rfl
      · exact fun _ => Core.revokeFate_ne_drop
    · exact h.congr rfl rfl
  | bindStore store => exact h
  | checkpoint => exact h
  | restore => exact h
  | drainEmissions => exact h

/-- The intents announced as requested, all of them, in order. -/
def requestedLog (g : Governor) : List InterventionIntent := requestedIntents g.ledger.emitted

/-- Intent identities do not collide on the arguments of the intents that were requested. -/
def DistinctInterventions (g : Governor) : Prop :=
  { t | ∃ i ∈ g.requestedLog, i.arguments = t }.InjOn fun t => makeInterventionId t.1 t.2.1 t.2.2

theorem distinctInterventions_iff {g : Governor} : g.DistinctInterventions ↔
    ∀ i ∈ g.requestedLog, ∀ j ∈ g.requestedLog,
      makeInterventionId i.event i.kind i.authority.issuedTick =
        makeInterventionId j.event j.kind j.authority.issuedTick → i.arguments = j.arguments := by
  constructor
  · exact fun h i hi j hj hid => h ⟨i, hi, rfl⟩ ⟨j, hj, rfl⟩ hid
  · rintro h _ ⟨i, hi, rfl⟩ _ ⟨j, hj, rfl⟩ hid
    exact h i hi j hj hid

instance (g : Governor) : Decidable g.DistinctInterventions :=
  decidable_of_iff _ distinctInterventions_iff.symm

/-- No intent is issued twice; every issued one is in force or was retired, once, into a terminal
    state, and what was retired is in force no more. -/
structure NoResurrection (g : Governor) : Prop where
  issuedOnce : (g.requestedLog.map InterventionIntent.id).Nodup
  retiredOnce : (g.ledger.retired.map InterventionIntent.id).Nodup
  terminal : ∀ i ∈ g.ledger.retired, i.state = .expired ∨ i.state = .revoked
  gone : ∀ i ∈ g.ledger.retired, i.id ∉ g.liveInterventions.map InterventionIntent.id
  accounted : ∀ id, id ∈ g.requestedLog.map InterventionIntent.id ↔
    id ∈ g.liveInterventions.map InterventionIntent.id ∨
      id ∈ g.ledger.retired.map InterventionIntent.id

theorem ledgered_new (hashing : Hashing) (config : GovernorConfig) (S : Set (StreamKey × Tick)) :
    (Governor.new hashing config).core.Ledgered S where
  keyed := keyed_new hashing config
  streams := fun _ _ h => by cases h
  live := fun _ h => by cases h
  issued := fun _ h => by cases h
  once := List.nodup_nil
  retiredOnce := List.nodup_nil
  gone := fun _ h => by cases h
  terminal := fun _ h => by cases h
  accounted := fun _ => ⟨fun h => (by cases h), fun h => h.elim (fun h => by cases h) fun h => by cases h⟩

/-- All intents in the table are live, each under its own identity. -/
theorem ids_liveInterventions {S : Set (StreamKey × Tick)} {g : Governor} (h : g.core.Ledgered S) :
    g.liveInterventions.map InterventionIntent.id = g.core.interventions.keys := by
  have hall : g.liveInterventions = g.core.interventions.values := by
    refine List.filter_eq_self.mpr fun i hi => ?_
    obtain ⟨e, he, rfl⟩ := List.mem_map.mp hi
    exact h.live e he
  rw [hall, UnorderedMap.values, UnorderedMap.keys, List.map_map]
  exact List.map_congr_left fun e he => h.keyed e he

theorem noResurrection_of_ledgered {S : Set (StreamKey × Tick)} {g : Governor}
    (hd : g.DistinctInterventions) (h : g.core.Ledgered S) : g.NoResurrection := by
  have hids := ids_liveInterventions h
  refine ⟨?_, h.retiredOnce, h.terminal, fun i hi => ?_, fun id => ?_⟩
  · refine (List.nodup_map_iff_inj_on h.once.of_map).mpr fun i hi j hj hid => ?_
    rw [(h.issued i hi).id, (h.issued j hj).id] at hid
    exact List.inj_on_of_nodup_map h.once hi hj (hd ⟨i, hi, rfl⟩ ⟨j, hj, rfl⟩ hid)
  · rw [hids]
    exact h.gone i hi
  · rw [hids]
    exact h.accounted id

theorem OnsetTrace.logsGrow_run {s : OnsetTrace} {ops : List Op}
    (hkeyed : s.governor.core.Keyed) (hops : ∀ op ∈ ops, op ≠ .restore) :
    Core.LogsGrow s.governor.core (Runs.run OnsetTrace.step s ops).governor.core := by
  induction ops generalizing s with
  | nil => exact .refl _
  | cons op ops ih =>
    have hcore := core_step hkeyed (hops op (by simp))
    have hkeyed' := Core.keyed_step hkeyed op
    have hgrow := s.governor.core.logsGrow_step op
    rw [← hcore] at hkeyed' hgrow
    exact hgrow.trans (ih (s := s.step op) hkeyed' fun op' h => hops op' (List.mem_cons_of_mem op h))

theorem OnsetTrace.meets_logsGrow {s : OnsetTrace} {ops : List Op}
    (hkeyed : s.governor.core.Keyed) (hops : ∀ op ∈ ops, op ≠ .restore) :
    Runs.Meets OnsetTrace.step (fun s' op => Core.LogsGrow (s'.governor.step op).core
      (Runs.run OnsetTrace.step s ops).governor.core) s ops := by
  induction ops generalizing s with
  | nil => exact trivial
  | cons op ops ih =>
    have hcore := core_step hkeyed (hops op (by simp))
    have hkeyed' := Core.keyed_step hkeyed op
    rw [← hcore] at hkeyed'
    have hops' : ∀ op' ∈ ops, op' ≠ .restore := fun op' h => hops op' (List.mem_cons_of_mem op h)
    exact ⟨logsGrow_run (s := s.step op) hkeyed' hops', ih (s := s.step op) hkeyed' hops'⟩

/-- NO RESURRECTION: in every run without recovery at ticks in the lower half of the range no intent
    is issued twice, each is retired at most once, and what was retired is never in force again. -/
theorem noResurrection_run (hashing : Hashing) (config : GovernorConfig) (past future : List Op)
    (hops : ∀ op ∈ past ++ future, op ≠ .restore ∧ op.TickBelowHalf)
    (hevents : Core.DistinctIdentities
      (Runs.run OnsetTrace.step (OnsetTrace.new hashing config) (past ++ future)).seen)
    (hinterventions : (Runs.run OnsetTrace.step (OnsetTrace.new hashing config)
      (past ++ future)).governor.DistinctInterventions) :
    (Runs.run OnsetTrace.step (OnsetTrace.new hashing config)
      (past ++ future)).governor.NoResurrection ∧
    ∀ i ∈ (Runs.run OnsetTrace.step (OnsetTrace.new hashing config) past).governor.ledger.retired,
      i.id ∉ (Runs.run OnsetTrace.step (OnsetTrace.new hashing config)
        (past ++ future)).governor.liveInterventions.map InterventionIntent.id := by
  have hkeyed := keyed_new hashing config
  have hrestore : ∀ op ∈ past ++ future, op ≠ .restore := fun op h => (hops op h).1
  have hmeets : Runs.Meets OnsetTrace.step (fun _ op => op ≠ .restore ∧ op.TickBelowHalf)
      (OnsetTrace.new hashing config) (past ++ future) :=
    Runs.meets_of_invariant (I := fun _ => True) (fun _ _ _ h => ⟨h, trivial⟩) trivial hops
  have hledgered := Runs.run_invariant (I := fun s : OnsetTrace => s.governor.core.Ledgered
      (Runs.run OnsetTrace.step (OnsetTrace.new hashing config) (past ++ future)).seen)
    (fun s op h hok => ?_) (ledgered_new hashing config _)
    (Runs.meets_and (Runs.meets_and hmeets OnsetTrace.meets_onsets)
      (OnsetTrace.meets_logsGrow (s := OnsetTrace.new hashing config) hkeyed hrestore))
  · refine ⟨noResurrection_of_ledgered hinterventions hledgered, fun i hi => ?_⟩
    have hgrow : Core.LogsGrow
        (Runs.run OnsetTrace.step (OnsetTrace.new hashing config) past).governor.core
        (Runs.run OnsetTrace.step (OnsetTrace.new hashing config) (past ++ future)).governor.core := by
      have hpast : (Runs.run OnsetTrace.step (OnsetTrace.new hashing config) past).governor.core.Keyed :=
        Runs.run_invariant (I := fun s : OnsetTrace => s.governor.core.Keyed)
          (fun s op hk hop => by
            change (s.governor.step op).core.Keyed
            rw [core_step hk hop.1]
            exact Core.keyed_step hk op) hkeyed ((Runs.meets_append _ _ _ _ _).mp hmeets).1
      rw [Runs.run_append]
      exact OnsetTrace.logsGrow_run hpast fun op h => hrestore op (List.mem_append_right past h)
    exact (noResurrection_of_ledgered hinterventions hledgered).gone i (hgrow.retired.subset hi)
  · obtain ⟨⟨⟨hop, htick⟩, hsub⟩, hgrow⟩ := hok
    change (s.governor.step op).core.Ledgered _
    rw [core_step h.keyed hop] at hsub hgrow ⊢
    exact ledgered_step hevents hinterventions htick hsub
      (fun i hi => ⟨i, hgrow.requested.subset hi, rfl⟩) h

/-- The mandate is withdrawn and renewed: the open episode's next decision issues another intent. -/
theorem noResurrection_run_toggled :
    let past := [deepSample 1, deepSample 2, deepSample 3, .setInterventionsEnabled false]
    let future := [.setInterventionsEnabled true, deepSample 4]
    let new := OnsetTrace.new .back { policy := pacingPolicy }
    (Runs.run OnsetTrace.step new (past ++ future)).governor.NoResurrection ∧
    ∀ i ∈ (Runs.run OnsetTrace.step new past).governor.ledger.retired,
      i.id ∉ (Runs.run OnsetTrace.step new (past ++ future)).governor.liveInterventions.map
        InterventionIntent.id :=
  noResurrection_run .back { policy := pacingPolicy } _ _
    (by simp [deepSample, Op.TickBelowHalf]) (by decide +kernel) (by decide +kernel)

end Governor

end Mbg
