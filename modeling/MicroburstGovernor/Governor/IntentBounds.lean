import MicroburstGovernor.Governor.IntentLedger
import MicroburstGovernor.Model.Overrides

/-! The limits of live intents.

    Limits are checked where an intent is issued or renewed, against the policy of the decision's
    stream. Every change of policy moves the generation, and the revalidation that follows it empties
    the table, so the limits an intent was checked against are those in force. -/

namespace Mbg

/-! ### Scaled magnitudes -/

/-- A magnitude scaled to a severity is positive and within its maximum. -/
theorem scaleMagnitude_bounds {maximum : UInt32} (h : maximum ≠ 0) (severity : SeverityClass) :
    1 ≤ scaleMagnitude maximum severity ∧ scaleMagnitude maximum severity ≤ maximum := by
  have hpos : 0 < maximum.toNat := by
    rw [Nat.pos_iff_ne_zero]
    exact fun h0 => h (UInt32.toNat_inj.mp h0)
  have hlt := maximum.toNat_lt
  rw [scaleMagnitude]
  generalize (maximum.toUInt64 * severity.raw.toUInt64 + 3) / 4 = scaled
  have hmin : (min scaled maximum.toUInt64).toNat ≤ maximum.toNat := by
    change (if scaled ≤ maximum.toUInt64 then scaled else maximum.toUInt64).toNat ≤ _
    split
    · rename_i hle
      exact UInt64.le_iff_toNat_le.mp hle
    · exact Nat.le_of_eq (UInt32.toNat_toUInt64 maximum)
  generalize min scaled maximum.toUInt64 = bounded at *
  have hmax : 1 ≤ (max bounded 1).toNat ∧ (max bounded 1).toNat ≤ maximum.toNat := by
    change 1 ≤ (if bounded ≤ 1 then 1 else bounded).toNat ∧
      (if bounded ≤ 1 then 1 else bounded).toNat ≤ _
    split
    · exact ⟨Nat.le_refl 1, hpos⟩
    · rename_i hle
      rw [UInt64.le_iff_toNat_le, UInt64.toNat_one] at hle
      exact ⟨by omega, hmin⟩
  generalize max bounded 1 = scale at *
  have hscale : scale.toUInt32.toNat = scale.toNat := by
    rw [UInt64.toNat_toUInt32, Nat.mod_eq_of_lt (by omega)]
  rw [UInt32.le_iff_toNat_le, UInt32.le_iff_toNat_le, hscale]
  exact hmax

/-- The larger of two magnitudes keeps to the bounds of both. -/
theorem magnitude_max {low high a b : UInt32} (hlow : low ≤ a) (ha : a ≤ high) (hb : b ≤ high) :
    low ≤ max a b ∧ max a b ≤ high := by
  change low ≤ (if a ≤ b then b else a) ∧ (if a ≤ b then b else a) ≤ high
  split
  · rename_i hle
    exact ⟨UInt32.le_trans hlow hle, hb⟩
  · exact ⟨hlow, ha⟩

/-- A magnitude within a high bound is not cut at a higher one. -/
theorem magnitude_min {low high bound a : UInt32} (hlow : low ≤ a) (ha : a ≤ high)
    (hbound : high ≤ bound) : low ≤ min a bound ∧ min a bound ≤ high := by
  change low ≤ (if a ≤ bound then a else bound) ∧ (if a ≤ bound then a else bound) ≤ high
  rw [if_pos (UInt32.le_trans ha hbound)]
  exact ⟨hlow, ha⟩

/-! ### What the limits are -/

/-- The limit in force for an intent: that of its kind under its resource's policy. -/
def limitFor (policies : PolicySet) (i : InterventionIntent) : InterventionKindLimit :=
  ((policies.resolve i.stream.resource).intervention).kinds i.kind

/-- An intent keeps to a limit. -/
structure WithinLimit (limit : InterventionKindLimit) (i : InterventionIntent) : Prop where
  enabled : limit.enabled = true
  positive : 1 ≤ i.magnitudePermille
  magnitude : i.magnitudePermille ≤ limit.magnitudePermille
  maximum : limit.magnitudePermille ≤ Limits.maxMagnitudePermille
  expiry : i.authority.expiryTick = addTicksSaturating i.stateChangedTick limit.ttlTicks

/-- A table of intents keeps to the bounds of the policies. -/
structure TableBounded (policies : PolicySet) (is : List InterventionIntent) : Prop where
  unique : (is.map fun i => (i.event, i.kind)).Nodup
  perStream : ∀ key : StreamKey, (is.countP fun i => i.stream = key) ≤
    (policies.resolve key.resource).intervention.maxConcurrentPerStream.toNat
  total : ∃ policy ∈ policies.installed,
    is.length ≤ policy.intervention.maxConcurrentTotal.toNat
  maximum : is.length ≤ Limits.maxInterventions

theorem TableBounded.of_empty (policies : PolicySet) : TableBounded policies [] where
  unique := List.nodup_nil
  perStream := fun _ => Nat.zero_le _
  total := ⟨policies.fallback, List.mem_cons_self, Nat.zero_le _⟩
  maximum := Nat.zero_le _

theorem TableBounded.sublist {policies : PolicySet} {is is' : List InterventionIntent}
    (h : TableBounded policies is) (hs : is'.Sublist is) : TableBounded policies is' := by
  obtain ⟨policy, hpolicy, htotal⟩ := h.total
  exact ⟨h.unique.sublist (hs.map _), fun key => (hs.countP_le).trans (h.perStream key),
    ⟨policy, hpolicy, hs.length_le.trans htotal⟩, hs.length_le.trans h.maximum⟩

/-- The bounds speak of nothing but event, kind and stream. -/
theorem TableBounded.congr {policies : PolicySet} {is is' : List InterventionIntent}
    (h : TableBounded policies is)
    (hsame : (is'.map fun i => (i.event, i.kind, i.stream)).Perm
      (is.map fun i => (i.event, i.kind, i.stream))) : TableBounded policies is' := by
  have hlength : is'.length = is.length := by simpa using hsame.length_eq
  have hpairs : (is'.map fun i => (i.event, i.kind)).Perm (is.map fun i => (i.event, i.kind)) := by
    simpa [Function.comp_def] using hsame.map fun t => (t.1, t.2.1)
  have hcount : ∀ key : StreamKey,
      (is'.countP fun i => i.stream = key) = is.countP fun i => i.stream = key := by
    intro key
    simpa [List.countP_map, Function.comp_def] using hsame.countP_eq fun t => t.2.2 = key
  obtain ⟨policy, hpolicy, htotal⟩ := h.total
  exact ⟨hpairs.nodup_iff.mpr h.unique, fun key => (hcount key).trans_le (h.perStream key),
    ⟨policy, hpolicy, hlength.trans_le htotal⟩, hlength.trans_le h.maximum⟩

/-- A new intent fits where its stream, its policy's total and the table have room. -/
theorem TableBounded.cons {policies : PolicySet} {is : List InterventionIntent}
    {new : InterventionIntent} (h : TableBounded policies is)
    (hnew : ∀ i ∈ is, i.event = new.event → i.kind ≠ new.kind)
    (hstream : (is.countP fun i => i.stream = new.stream) <
      (policies.resolve new.stream.resource).intervention.maxConcurrentPerStream.toNat)
    (htotal : is.length < (policies.resolve new.stream.resource).intervention.maxConcurrentTotal.toNat)
    (hroom : is.length < Limits.maxInterventions) : TableBounded policies (new :: is) := by
  refine ⟨?_, fun key => ?_, ⟨_, policies.resolve_mem_installed new.stream.resource, htotal⟩, hroom⟩
  · rw [List.map_cons, List.nodup_cons]
    refine ⟨fun hin => ?_, h.unique⟩
    obtain ⟨i, hi, heq⟩ := List.mem_map.mp hin
    exact hnew i hi (Prod.mk.inj heq).1 (Prod.mk.inj heq).2
  · rw [List.countP_cons]
    by_cases hkey : new.stream = key
    · subst hkey
      simpa using Nat.succ_le_of_lt hstream
    · simpa [hkey] using h.perStream key

namespace Core

/-! ### The invariant -/

/-- Equal event identities are those of one resource. -/
def NamesResource (S : Set (StreamKey × Tick)) : Prop :=
  ∀ p ∈ S, ∀ q ∈ S, makeEventId p.1 p.2 = makeEventId q.1 q.2 → p.1.resource = q.1.resource

/-- A live intent within its limit, for an episode of its stream, under the generation in force. -/
structure Allowed (S : Set (StreamKey × Tick)) (policies : PolicySet) (i : InterventionIntent) :
    Prop where
  live : i.live = true
  within : WithinLimit (limitFor policies i) i
  named : ∃ onset, (i.stream, onset) ∈ S ∧ i.event = makeEventId i.stream onset
  generation : i.authority.policyGeneration = policies.generation

structure Bounded (S : Set (StreamKey × Tick)) (c : Core) : Prop where
  keyed : c.Keyed
  streams : ∀ key entry, c.streams.find? key = some entry → Sourced S key entry.detector
  valid : c.policies.Valid
  generation : c.context.policyGeneration = c.policies.generation
  allowed : ∀ i ∈ c.interventions.values, Allowed S c.policies i
  table : TableBounded c.policies c.interventions.values

variable {S : Set (StreamKey × Tick)} {c : Core}

/-- A step that leaves everything the bounds speak of alone. -/
theorem Bounded.congr {c' : Core} (h : c.Bounded S) (hstreams : c'.streams = c.streams)
    (hpolicies : c'.policies = c.policies)
    (hgeneration : c'.context.policyGeneration = c.context.policyGeneration)
    (htable : c'.interventions = c.interventions) : c'.Bounded S := by
  obtain ⟨hkeyed, hsourced, hvalid, hin, hallowed, hbounded⟩ := h
  simp only [Keyed] at hkeyed
  rw [← htable] at hkeyed hallowed hbounded
  rw [← hpolicies] at hvalid hin hallowed hbounded
  rw [← hstreams] at hsourced
  exact ⟨hkeyed, hsourced, hvalid, hgeneration.trans hin, hallowed, hbounded⟩

theorem values_sweep_sublist (c : Core) (fate : InterventionIntent → Fate) (now : Tick) :
    (c.sweep fate now).interventions.values.Sublist c.interventions.values :=
  List.filter_sublist.map Prod.snd

theorem Bounded.sweep (h : c.Bounded S) (fate : InterventionIntent → Fate) (now : Tick) :
    (c.sweep fate now).Bounded S :=
  ⟨keyed_sweep h.keyed fate now, h.streams, h.valid, h.generation,
    fun i hi => h.allowed i ((c.values_sweep_sublist fate now).subset hi),
    h.table.sublist (c.values_sweep_sublist fate now)⟩

theorem Bounded.refresh (h : c.Bounded S) (now : Tick) (onlyEvent : EventId := default) :
    (c.refresh now onlyEvent).Bounded S := h.sweep _ now

/-- A revalidation under another generation leaves no intent in force. -/
theorem refresh_eq_nil (h : ∀ i ∈ c.interventions.values,
    i.authority.policyGeneration ≠ c.context.policyGeneration) (now : Tick) :
    (c.refresh now).interventions.values = [] := by
  rw [List.eq_nil_iff_forall_not_mem]
  intro i hi
  obtain ⟨e, he, rfl⟩ := List.mem_map.mp hi
  obtain ⟨hmem, -, hverdict⟩ := mem_refresh.mp he
  obtain ⟨hvalid, -⟩ := verdictFor_eq_valid.mp hverdict
  obtain ⟨-, -, -, -, -, hgeneration, -, -, -⟩ := evaluateAuthority_eq_valid.mp hvalid
  exact h _ (List.mem_map_of_mem hmem) hgeneration

/-! ### Renewing and issuing -/

/-- What an enabled limit of a valid policy makes of a magnitude. -/
theorem scaled_bounds {policy : Policy} (hvalid : PolicySet.validate policy = .ok ()) {kind : InterventionKind}
    (henabled : (policy.intervention.kinds kind).enabled = true) (severity : SeverityClass) :
    1 ≤ scaleMagnitude (policy.intervention.kinds kind).magnitudePermille severity ∧
      scaleMagnitude (policy.intervention.kinds kind).magnitudePermille severity ≤
        (policy.intervention.kinds kind).magnitudePermille ∧
      (policy.intervention.kinds kind).magnitudePermille ≤ Limits.maxMagnitudePermille := by
  obtain ⟨hpositive, hmaximum⟩ := PolicySet.magnitude_of_validate hvalid henabled
  exact ⟨(scaleMagnitude_bounds hpositive severity).1, (scaleMagnitude_bounds hpositive severity).2,
    hmaximum⟩

theorem mem_values_of_mem {m : UnorderedMap InterventionId InterventionIntent}
    {e : InterventionId × InterventionIntent} (h : e ∈ m.entries) : e.2 ∈ m.values :=
  List.mem_map_of_mem h

/-- The intent that is renewed stands in the table under its identity. -/
theorem mem_of_renewed (hkeyed : c.Keyed) {event : EventId} {kind : InterventionKind}
    {intent : InterventionIntent} (h : c.shell.liveIntentFor event kind = some intent) :
    (intent.id, intent) ∈ c.interventions.entries := by
  obtain ⟨⟨id, hmem⟩, -⟩ := mem_of_liveIntentFor h
  have hid : intent.id = id := hkeyed _ hmem
  exact hid ▸ hmem

/-- A renewal changes neither event, kind nor stream of any intent. -/
theorem table_renew (hkeyed : c.Keyed) {event : EventId} {kind : InterventionKind}
    {intent : InterventionIntent} (h : c.shell.liveIntentFor event kind = some intent)
    (decision : DetectionDecision) (now : Tick) (limit : InterventionKindLimit) :
    (c.renew decision now limit intent).interventions.values.map
        (fun i => (i.event, i.kind, i.stream)) =
      c.interventions.values.map fun i => (i.event, i.kind, i.stream) := by
  have hmem := mem_of_renewed hkeyed h
  have hid : (c.shell.refreshedIntent decision now limit intent).id = intent.id := by
    simp only [Governor.refreshedIntent]
  have hsame : ((c.shell.refreshedIntent decision now limit intent).event,
      (c.shell.refreshedIntent decision now limit intent).kind,
      (c.shell.refreshedIntent decision now limit intent).stream) =
        (intent.event, intent.kind, intent.stream) := by
    simp only [Governor.refreshedIntent]
  rw [Core.renew]
  dsimp only
  rw [hid]
  generalize c.shell.refreshedIntent decision now limit intent = renewed at *
  simp only [UnorderedMap.values, UnorderedMap.update, UnorderedMap.mapValues, List.map_map]
  refine List.map_congr_left fun e he => ?_
  dsimp only [Function.comp_apply]
  split
  · rename_i heq
    rw [UnorderedMap.eq_of_mem he hmem heq]
    exact hsame
  · rfl

/-- A renewed intent keeps to a limit it kept to before: its expiry follows the tick. -/
theorem within_refreshedIntent {limit : InterventionKindLimit} {intent : InterventionIntent}
    (h : WithinLimit limit intent) {decision : DetectionDecision}
    (hscaled : scaleMagnitude limit.magnitudePermille decision.severity ≤ limit.magnitudePermille)
    (now : Tick) : WithinLimit limit (c.shell.refreshedIntent decision now limit intent) := by
  have hmagnitude := magnitude_max h.positive h.magnitude hscaled
  constructor
  case enabled => exact h.enabled
  case maximum => exact h.maximum
  all_goals simp only [Governor.refreshedIntent]
  · exact hmagnitude.1
  · exact hmagnitude.2

/-- What a renewal leaves of an intent. -/
theorem stream_refreshedIntent (decision : DetectionDecision) (now : Tick)
    (limit : InterventionKindLimit) (intent : InterventionIntent) :
    (c.shell.refreshedIntent decision now limit intent).stream = intent.stream ∧
      (c.shell.refreshedIntent decision now limit intent).kind = intent.kind ∧
      (c.shell.refreshedIntent decision now limit intent).event = intent.event ∧
      (c.shell.refreshedIntent decision now limit intent).authority.policyGeneration =
        intent.authority.policyGeneration := by
  refine ⟨?_, ?_, ?_, ?_⟩
  case refine_4 => rw [authority_refreshedIntent]
  all_goals simp only [Governor.refreshedIntent]

theorem limitFor_refreshedIntent (policies : PolicySet) (decision : DetectionDecision) (now : Tick)
    (limit : InterventionKindLimit) (intent : InterventionIntent) :
    limitFor policies (c.shell.refreshedIntent decision now limit intent) =
      limitFor policies intent := by
  obtain ⟨hstream, hkind, -⟩ := stream_refreshedIntent (c := c) decision now limit intent
  rw [limitFor, limitFor, hstream, hkind]

theorem allowed_refreshedIntent {policies : PolicySet} {intent : InterventionIntent}
    (h : Allowed S policies intent) {decision : DetectionDecision} {limit : InterventionKindLimit}
    (hlimit : limitFor policies intent = limit)
    (hscaled : scaleMagnitude limit.magnitudePermille decision.severity ≤ limit.magnitudePermille)
    (now : Tick) : Allowed S policies (c.shell.refreshedIntent decision now limit intent) := by
  obtain ⟨-, hwithin, ⟨onset, hseen, hnamed⟩, hgeneration⟩ := h
  rw [hlimit] at hwithin
  have hkept := within_refreshedIntent (c := c) hwithin hscaled now
  obtain ⟨hstream, -, hevent, hissued⟩ := stream_refreshedIntent (c := c) decision now limit intent
  refine ⟨c.live_refreshedIntent decision now limit intent, ?_, ⟨onset, ?_, ?_⟩, ?_⟩
  · rw [limitFor_refreshedIntent, hlimit]
    exact hkept
  · rw [hstream]
    exact hseen
  · rw [hstream, hevent]
    exact hnamed
  · rw [hissued]
    exact hgeneration

/-- RENEW: an intent that shares the decision's event is one of the decision's resource. -/
theorem Bounded.renew (h : c.Bounded S) (hnames : NamesResource S) {decision : DetectionDecision}
    {key : StreamKey} {onset : Tick} (hseen : (key, onset) ∈ S)
    (hevent : decision.event = makeEventId key onset) {kind : InterventionKind}
    {intent : InterventionIntent}
    (hfound : c.shell.liveIntentFor decision.event kind = some intent)
    (henabled : ((c.policies.resolve key.resource).intervention.kinds kind).enabled = true)
    (now : Tick) :
    (c.renew decision now ((c.policies.resolve key.resource).intervention.kinds kind) intent).Bounded
      S := by
  have hmem := mem_values_of_mem (mem_of_renewed h.keyed hfound)
  obtain ⟨-, -, hsameEvent, hsameKind⟩ := mem_of_liveIntentFor hfound
  have hallowed := h.allowed intent hmem
  obtain ⟨onset', hseen', hnamed⟩ := hallowed.named
  have hresource : intent.stream.resource = key.resource :=
    hnames _ hseen' _ hseen (hnamed.symm.trans (hsameEvent.trans hevent))
  have hlimit : limitFor c.policies intent =
      (c.policies.resolve key.resource).intervention.kinds kind := by
    rw [limitFor, hresource, hsameKind]
  have hscaled := (scaled_bounds (h.valid _ (c.policies.resolve_mem_installed key.resource))
    henabled decision.severity).2.1
  generalize (c.policies.resolve key.resource).intervention.kinds kind = limit at *
  have htable := table_renew h.keyed hfound decision now limit
  have hrenewed := allowed_refreshedIntent (c := c) hallowed hlimit hscaled now
  refine ⟨keyed_renew h.keyed decision now limit intent, ?_, ?_, ?_, fun i hi => ?_,
    h.table.congr (htable ▸ List.Perm.refl _)⟩
  · rw [Core.renew]
    exact h.streams
  · rw [Core.renew]
    exact h.valid
  · rw [Core.renew]
    exact h.generation
  · obtain ⟨e, he, rfl⟩ := List.mem_map.mp hi
    rcases mem_renew he with he | heq
    · exact h.allowed _ (mem_values_of_mem he)
    · rw [heq]
      exact hrenewed

/-- The values of a table after an insertion: the new one is there, unless its key was taken. -/
theorem values_emplace (p : Placement (InterventionId × InterventionIntent))
    (m : UnorderedMap InterventionId InterventionIntent) (id : InterventionId)
    (intent : InterventionIntent) :
    (m.emplace p id intent).values = m.values ∨
      (m.emplace p id intent).values.Perm (intent :: m.values) := by
  rw [UnorderedMap.emplace]
  split
  · exact Or.inl rfl
  · exact Or.inr ((p.perm m.insertions (id, intent) m.entries).map Prod.snd)

/-- A new intent takes its stream, kind and event from the decision, its magnitude from the limit. -/
theorem allowed_newIntent (hgeneration : c.context.policyGeneration = c.policies.generation)
    (hvalid : c.policies.Valid) {decision : DetectionDecision} {onset : Tick}
    (hseen : (decision.stream, onset) ∈ S)
    (hevent : decision.event = makeEventId decision.stream onset) {kind : InterventionKind}
    (henabled :
      ((c.policies.resolve decision.stream.resource).intervention.kinds kind).enabled = true)
    (now : Tick) : Allowed S c.policies (c.shell.newIntent decision now kind
      ((c.policies.resolve decision.stream.resource).intervention.kinds kind)) := by
  have hscaled := scaled_bounds (hvalid _ (c.policies.resolve_mem_installed decision.stream.resource))
    henabled decision.severity
  have hlimit : ∀ i : InterventionIntent, i.stream = decision.stream → i.kind = kind →
      limitFor c.policies i =
        (c.policies.resolve decision.stream.resource).intervention.kinds kind := by
    intro i hstream hkind
    rw [limitFor, hstream, hkind]
  generalize (c.policies.resolve decision.stream.resource).intervention.kinds kind = limit at *
  have hmagnitude := magnitude_min hscaled.1 hscaled.2.1 hscaled.2.2
  refine ⟨c.live_newIntent decision now kind limit, ?_, ⟨onset, ?_, ?_⟩, ?_⟩
  · rw [hlimit _ (by simp only [Governor.newIntent]) (by simp only [Governor.newIntent])]
    refine ⟨henabled, ?_, ?_, hscaled.2.2, ?_⟩
    all_goals simp only [Governor.newIntent]
    · exact hmagnitude.1
    · exact hmagnitude.2
  all_goals simp only [Governor.newIntent]
  · exact hseen
  · exact hevent
  · exact hgeneration

/-- How many intents the loop over the kinds has counted, and that the table holds no more. -/
structure Counted (decision : DetectionDecision) (r : Requesting) : Prop where
  stream : (r.core.interventions.values.countP fun i => i.stream = decision.stream) ≤ r.liveForStream
  total : r.core.interventions.values.length ≤ r.liveTotal

/-- ISSUE: an intent is added where there is room for it. -/
theorem Bounded.issue {r : Requesting} (h : r.core.Bounded S) {decision : DetectionDecision}
    (hcounted : Counted decision r) {onset : Tick} (hseen : (decision.stream, onset) ∈ S)
    (hevent : decision.event = makeEventId decision.stream onset) {kind : InterventionKind}
    (hnone : r.core.shell.liveIntentFor decision.event kind = none)
    {policy : Policy} (hpolicy : r.core.policies.resolve decision.stream.resource = policy)
    (henabled : (policy.intervention.kinds kind).enabled = true)
    (hstream : r.liveForStream < policy.intervention.maxConcurrentPerStream.toNat)
    (htotal : r.liveTotal < policy.intervention.maxConcurrentTotal.toNat)
    (hroom : r.core.interventions.size < Limits.maxInterventions) (now : Tick) :
    (r.core.issue decision now kind (policy.intervention.kinds kind)).Bounded S ∧
      Counted decision ⟨r.core.issue decision now kind (policy.intervention.kinds kind),
        r.liveForStream + 1, r.liveTotal + 1⟩ := by
  subst hpolicy
  have hnew := allowed_newIntent h.generation h.valid hseen hevent henabled now
  have hkeyed := keyed_issue h.keyed decision now kind
    ((r.core.policies.resolve decision.stream.resource).intervention.kinds kind)
  have hfresh : ∀ i ∈ r.core.interventions.values, i.event = decision.event → i.kind ≠ kind := by
    intro i hi hsame hkind
    have hnot := List.find?_eq_none.mp hnone i hi
    simp [(h.allowed i hi).live, hsame, hkind] at hnot
  have hsize : r.core.interventions.values.length < Limits.maxInterventions := by
    simpa [UnorderedMap.values, UnorderedMap.size] using hroom
  have hvalues := values_emplace r.core.hashing.interventions r.core.interventions
    (r.core.shell.newIntent decision now kind
      ((r.core.policies.resolve decision.stream.resource).intervention.kinds kind)).id
    (r.core.shell.newIntent decision now kind
      ((r.core.policies.resolve decision.stream.resource).intervention.kinds kind))
  have hfields : ∀ limit, (r.core.shell.newIntent decision now kind limit).stream = decision.stream ∧
      (r.core.shell.newIntent decision now kind limit).event = decision.event ∧
      (r.core.shell.newIntent decision now kind limit).kind = kind := by
    intro limit
    refine ⟨?_, ?_, ?_⟩ <;> simp only [Governor.newIntent]
  have hfields := hfields
    ((r.core.policies.resolve decision.stream.resource).intervention.kinds kind)
  obtain ⟨hcountStream, hcountTotal⟩ := hcounted
  rw [Core.issue] at hkeyed ⊢
  generalize r.core.shell.newIntent decision now kind
    ((r.core.policies.resolve decision.stream.resource).intervention.kinds kind) = new at *
  obtain ⟨hsame, hsameEvent, hsameKind⟩ := hfields
  rw [← hsame] at hstream htotal hcountStream
  rw [← hsameEvent] at hfresh
  rw [← hsameKind] at hfresh
  rcases hvalues with hvalues | hvalues
  · -- the identity was taken: the table stays as it is
    refine ⟨⟨hkeyed, h.streams, h.valid, h.generation, ?_, ?_⟩, ?_, ?_⟩
    all_goals dsimp only
    all_goals rw [hvalues]
    · exact h.allowed
    · exact h.table
    · rw [← hsame]
      omega
    · omega
  · have htable := TableBounded.cons h.table hfresh (hcountStream.trans_lt hstream)
      (hcountTotal.trans_lt htotal) hsize
    refine ⟨⟨hkeyed, h.streams, h.valid, h.generation, fun i hi => ?_, ?_⟩, ?_, ?_⟩
    · rcases List.mem_cons.mp (hvalues.subset hi) with rfl | hi
      · exact hnew
      · exact h.allowed i hi
    · exact htable.congr (hvalues.map _)
    · dsimp only
      rw [hvalues.countP_eq, List.countP_cons, ← hsame]
      simpa using hcountStream
    · dsimp only
      rw [hvalues.length_eq, List.length_cons]
      omega

theorem enabled_of_not_suppressed {policy : InterventionPolicy} {limit : InterventionKindLimit}
    {decision : DetectionDecision} (h : Governor.kindSuppressed policy limit decision = false) :
    limit.enabled = true := by
  rw [Governor.kindSuppressed] at h
  cases henabled : limit.enabled with
  | true => rfl
  | false => simp [henabled] at h

/-- REQUEST: the counts taken before the loop over the kinds bound the table all along it. -/
theorem Bounded.maybeRequest (h : c.Bounded S) (hnames : NamesResource S)
    {decision : DetectionDecision} {onset : Tick} (hseen : (decision.stream, onset) ∈ S)
    (hevent : decision.event = makeEventId decision.stream onset) (now : Tick) :
    (c.maybeRequest decision now).Bounded S := by
  have hstart : Counted decision (c.startRequesting decision) := by
    have hlive : c.shell.liveInterventions = c.interventions.values :=
      List.filter_eq_self.mpr fun i hi => (h.allowed i hi).live
    refine ⟨Nat.le_of_eq ?_, Nat.le_of_eq ?_⟩
    all_goals rw [startRequesting, hlive]
  rw [Core.maybeRequest]
  split
  · refine (foldl_requestKind_induct (P := fun _ r => r.core.Bounded S ∧
      r.core.policies = c.policies ∧ Counted decision r) (fun _ _ _ h => h) ?_ ?_ _ _
      ⟨h, rfl, hstart⟩).1
    · rintro r kind kinds intent ⟨h, hpolicies, hcounted⟩ hsuppressed hfound
      rw [← hpolicies] at hsuppressed ⊢
      have henabled := enabled_of_not_suppressed hsuppressed
      have hrenewed := h.renew hnames hseen hevent hfound henabled now
      have htable := table_renew h.keyed hfound decision now
        (((r.core.policies.resolve decision.stream.resource).intervention).kinds kind)
      refine ⟨hrenewed, by rw [Core.renew], ?_, ?_⟩
      · have hcount := congrArg (List.countP fun t => t.2.2 = decision.stream) htable
        simp only [List.countP_map, Function.comp_def] at hcount
        exact hcount.trans_le hcounted.stream
      · have hlength := congrArg List.length htable
        simp only [List.length_map] at hlength
        exact hlength.trans_le hcounted.total
    · rintro r kind kinds ⟨h, hpolicies, hcounted⟩ hsuppressed hnone hstream htotal hroom
      obtain ⟨hissued, hcounted'⟩ := h.issue hcounted hseen hevent hnone
        (congrArg (fun policies => policies.resolve decision.stream.resource) hpolicies)
        (enabled_of_not_suppressed hsuppressed) hstream htotal hroom now
      refine ⟨hissued, ?_, hcounted'⟩
      rw [Core.issue]
      exact hpolicies
  · exact h

/-! ### Steps -/

theorem Bounded.mirrorEpisode (h : c.Bounded S) (event : BurstEvent) (r : DetectionDecision)
    (now : Tick) : (c.mirrorEpisode event r now).Bounded S := by
  unfold Core.mirrorEpisode
  extract_lets c₁
  have h₁ : c₁.Bounded S := by
    dsimp only [c₁]
    split
    · exact h.congr rfl rfl rfl rfl
    · split
      · exact h.congr rfl rfl rfl rfl
      · exact h
  split
  · have herase : Bounded S { c₁ with openEvents := c₁.openEvents.erase event.id } :=
      h₁.congr rfl rfl rfl rfl
    apply Bounded.congr (herase.refresh now event.id) <;> rfl
  · exact h₁

/-- A stream's entry is replaced by one whose decisions are still about its stream. -/
theorem Bounded.insert {c' : Core} (h : c.Bounded S) {key : StreamKey} {entry : StreamEntry}
    (hstreams : c'.streams = c.streams.insert key entry) (hpolicies : c'.policies = c.policies)
    (hgeneration : c'.context.policyGeneration = c.context.policyGeneration)
    (htable : c'.interventions = c.interventions) (hsourced : Sourced S key entry.detector) :
    c'.Bounded S := by
  have h' : Bounded S { c' with streams := c.streams } := h.congr rfl hpolicies hgeneration htable
  refine ⟨h'.keyed, fun key' entry' hfind => ?_, h'.valid, h'.generation, h'.allowed, h'.table⟩
  rw [hstreams, OrderedMap.find?_insert] at hfind
  split at hfind
  · rename_i hkey
    cases hfind
    exact hkey ▸ hsourced
  · exact h.streams key' entry' hfind

/-- MIRROR: a positive decision of a stream names an episode of that stream. -/
theorem Bounded.mirrorDecision (h : c.Bounded S) (hnames : NamesResource S) {key : StreamKey}
    {entry : StreamEntry} {r : DetectionDecision} (hown : NamesOwn S key r)
    (hsourced : Sourced S key entry.detector) (now : Tick) :
    (c.mirrorDecision key entry r now).Bounded S := by
  rw [Core.mirrorDecision]
  split
  · have h₁ : (c.setEntry key { entry with hasProcessed := true, lastProcessed := r.tick }).Bounded S :=
      h.insert rfl rfl rfl rfl hsourced
    generalize c.setEntry key { entry with hasProcessed := true, lastProcessed := r.tick } = c₁ at *
    unfold processDecision
    extract_lets c₂ c₃
    have h₂ : c₂.Bounded S := h₁.congr rfl rfl rfl rfl
    have h₃ : c₃.Bounded S := h₂.mirrorEpisode _ r now
    split
    · rename_i hpositive
      rw [Bool.and_eq_true] at hpositive
      obtain ⟨hstream, onset, hseen, hevent⟩ := hown hpositive.1
      subst hstream
      exact h₃.maybeRequest hnames hseen hevent now
    · exact h₃
  · exact h.insert rfl rfl rfl rfl hsourced

theorem Bounded.raiseLastTick (h : c.Bounded S) (tick : Tick) : (c.raiseLastTick tick).Bounded S := by
  rw [Core.raiseLastTick]
  split
  · exact h.congr rfl rfl rfl rfl
  · exact h

theorem Bounded.ingest (hnames : NamesResource S) (h : c.Bounded S) {sample : Sample}
    (hsub : (c.ingest sample).onsets ⊆ S) : (c.ingest sample).Bounded S := by
  refine ingest_induct (P := Bounded S) h (fun _ => ?_) (fun c₁ h₁ => ?_)
    (fun c₁ entry d' r _ h₁ hfind₁ _ ha hafter => ?_) (fun c₁ tick h₁ => h₁.raiseLastTick tick)
    (fun c₁ tick _ h₁ => h₁.refresh tick)
  · exact h.insert rfl rfl rfl rfl (c.clocked_freshEntry sample.stream).sourced
  · obtain ⟨resourceGenerations, heq⟩ := c₁.base_observeGeneration sample
    rw [heq]
    exact h₁.congr rfl rfl rfl rfl
  · obtain ⟨hown, hsourced⟩ := (h₁.streams _ entry hfind₁).answer ha
      (onset_of_entry { entry with detector := d' } hsub hafter)
    exact h₁.mirrorDecision hnames hown hsourced r.tick

theorem Bounded.advance (hnames : NamesResource S) (h : c.Bounded S) {now : Tick}
    (hsub : (c.advance now).onsets ⊆ S) : (c.advance now).Bounded S := by
  refine advance_induct (P := Bounded S) h (fun c₁ key entry d' r h₁ hfind₁ _ _ ha _ hafter => ?_)
    (fun c₁ h₁ => h₁.raiseLastTick now) (fun c₁ h₁ => h₁.refresh now)
  obtain ⟨hown, hsourced⟩ := (h₁.streams _ entry hfind₁).answer ha
    (onset_of_entry { entry with detector := d' } hsub hafter)
  exact h₁.mirrorDecision hnames hown hsourced now

theorem sourced_rearmStream (h : ∀ key entry, c.streams.find? key = some entry →
    Sourced S key entry.detector) (key : StreamKey) : ∀ key' entry,
    (c.rearmStream key).streams.find? key' = some entry → Sourced S key' entry.detector := by
  intro key' entry hfind
  cases hold : c.streams.find? key with
  | none =>
    rw [Core.rearmStream, hold] at hfind
    exact h key' entry hfind
  | some old =>
    have hstreams : (c.rearmStream key).streams = c.streams.insert key (c.rearmedEntry old) :=
      congrArg Base.streams (base_rearmStream hold)
    rw [hstreams, OrderedMap.find?_insert] at hfind
    split at hfind
    · rename_i hkey
      cases hfind
      exact hkey ▸ (h key old hold).rearm _ _ _
    · exact h key' entry hfind

theorem sourced_rearm : ∀ (keys : List StreamKey) {c : Core}, (∀ key entry,
    c.streams.find? key = some entry → Sourced S key entry.detector) → ∀ key entry,
    (c.rearm keys).streams.find? key = some entry → Sourced S key entry.detector
  | [], _, h => h
  | key :: keys, _, h => sourced_rearm keys (sourced_rearmStream h key)

/-- ADOPT: a set of another generation empties the table, whatever is rearmed before. -/
theorem Bounded.adopt (h : c.Bounded S) {policies : PolicySet} (hvalid : policies.Valid)
    (hmoved : policies.generation ≠ c.policies.generation) (keys : List StreamKey) (now : Tick) :
    (((c.adoptPolicies policies).rearm keys).refresh now).Bounded S := by
  have hbase := base_rearm keys (c.adoptPolicies policies)
  have hpolicies : ((c.adoptPolicies policies).rearm keys).policies = policies :=
    congrArg Base.policies hbase
  have hcontext : ((c.adoptPolicies policies).rearm keys).context.policyGeneration =
      policies.generation := congrArg (fun b => b.context.policyGeneration) hbase
  have htable : ((c.adoptPolicies policies).rearm keys).interventions = c.interventions :=
    congrArg IntentView.interventions (intentView_rearm keys (c.adoptPolicies policies))
  have hsourced := sourced_rearm (S := S) keys (c := c.adoptPolicies policies) h.streams
  have hkeyed := keyed_rearm keys (c := c.adoptPolicies policies) h.keyed
  generalize (c.adoptPolicies policies).rearm keys = c₁ at *
  have hempty : (c₁.refresh now).interventions.values = [] := by
    refine refresh_eq_nil (fun i hi hsame => hmoved ?_) now
    rw [htable] at hi
    rw [← hcontext, ← hsame]
    exact (h.allowed i hi).generation
  refine ⟨keyed_refresh hkeyed now default, hsourced, ?_, ?_, fun i hi => ?_, ?_⟩
  · change c₁.policies.Valid
    rw [hpolicies]
    exact hvalid
  · change c₁.context.policyGeneration = c₁.policies.generation
    rw [hpolicies, hcontext]
  · rw [hempty] at hi
    cases hi
  · rw [hempty]
    exact .of_empty _

end Core

namespace Governor

theorem bounded_step {S : Set (StreamKey × Tick)} (hnames : Core.NamesResource S) {c : Core} {op : Op}
    (hsub : (c.step op).onsets ⊆ S) (h : c.Bounded S) : (c.step op).Bounded S := by
  cases op with
  | ingest sample => exact h.ingest hnames hsub
  | advance now => exact h.advance hnames hsub
  | installPolicy policy =>
    rw [Core.step, Core.installPolicy]
    split
    · exact h
    · rename_i policies hset
      obtain ⟨-, next, hnext, hmoved⟩ := PolicySet.setFallback_ok hset
      exact h.adopt (PolicySet.valid_setFallback h.valid hset)
        (hmoved ▸ PolicySet.generation_ne hnext) _ _
  | setResourcePolicy resource policy =>
    rw [Core.step, Core.setResourcePolicy]
    split
    · exact h
    · rename_i policies hset
      obtain ⟨-, next, hnext, hmoved⟩ := PolicySet.setOverride_ok hset
      refine h.adopt (PolicySet.valid_setOverride h.valid hset) ?_ _ _
      rcases hmoved with ⟨i, -, rfl⟩ | ⟨-, rfl⟩ <;> exact PolicySet.generation_ne hnext
  | removeResourcePolicy resource =>
    rw [Core.step, Core.removeResourcePolicy]
    split
    · exact h
    · rename_i policies hset
      obtain ⟨i, next, -, hnext, hmoved⟩ := PolicySet.removeOverride_ok hset
      exact h.adopt (PolicySet.valid_removeOverride h.valid hset)
        (hmoved ▸ PolicySet.generation_ne hnext) [] _
  | bindAuthority epoch incarnation boot =>
    rw [Core.step, Core.bindAuthority]
    split
    · exact h
    · apply Core.Bounded.refresh
      exact h.congr rfl rfl rfl rfl
  | setResourceGeneration resource generation =>
    rw [Core.step, Core.setResourceGeneration]
    split
    · exact h
    · apply Core.Bounded.refresh
      exact h.congr rfl rfl rfl rfl
  | setInterventionsEnabled enabled =>
    rw [Core.step, Core.setInterventionsEnabled]
    dsimp only
    split
    · apply Core.Bounded.sweep
      exact h.congr rfl rfl rfl rfl
    · exact h.congr rfl rfl rfl rfl
  | bindStore store => exact h
  | checkpoint => exact h
  | restore => exact h
  | drainEmissions => exact h

/-- Every live intent keeps to its limit, and the live intents keep to the bounds of the policies. -/
structure IntentsBounded (g : Governor) : Prop where
  within : ∀ i ∈ g.liveInterventions, WithinLimit (limitFor g.policies i) i
  table : TableBounded g.policies g.liveInterventions

theorem intentsBounded_of_bounded {S : Set (StreamKey × Tick)} {g : Governor}
    (h : g.core.Bounded S) : g.IntentsBounded := by
  have hlive : g.liveInterventions = g.core.interventions.values :=
    List.filter_eq_self.mpr fun i hi => (h.allowed i hi).live
  constructor
  · rw [hlive]
    exact fun i hi => (h.allowed i hi).within
  · rw [hlive]
    exact h.table

theorem bounded_new (hashing : Hashing) (config : GovernorConfig) (S : Set (StreamKey × Tick)) :
    (Governor.new hashing config).core.Bounded S where
  keyed := keyed_new hashing config
  streams := fun _ _ h => by cases h
  valid := by
    change (Governor.new hashing config).policies.Valid
    rw [Governor.new]
    dsimp only
    split
    · rename_i policies hset
      exact PolicySet.valid_setFallback PolicySet.valid_initial hset
    · exact PolicySet.valid_initial
  generation := rfl
  allowed := fun _ h => by cases h
  table := .of_empty _

instance (s : OnsetTrace) : Decidable (Core.NamesResource s.seen) :=
  inferInstanceAs (Decidable (∀ p ∈ s.onsets, ∀ q ∈ s.onsets,
    makeEventId p.1 p.2 = makeEventId q.1 q.2 → p.1.resource = q.1.resource))

/-- INTENTS BOUNDED: in every run without recovery on whose episodes an identity is that of one
    resource, every live intent keeps to the limits in force. -/
theorem intentsBounded_run (hashing : Hashing) (config : GovernorConfig) (ops : List Op)
    (hops : ∀ op ∈ ops, op ≠ .restore)
    (hnames : Core.NamesResource
      (Runs.run OnsetTrace.step (OnsetTrace.new hashing config) ops).seen) :
    (Runs.run OnsetTrace.step (OnsetTrace.new hashing config) ops).governor.IntentsBounded := by
  have hmeets : Runs.Meets OnsetTrace.step (fun _ op => op ≠ .restore)
      (OnsetTrace.new hashing config) ops :=
    Runs.meets_of_invariant (I := fun _ => True) (fun _ _ _ h => ⟨h, trivial⟩) trivial hops
  refine intentsBounded_of_bounded (Runs.run_invariant (I := fun s : OnsetTrace =>
      s.governor.core.Bounded (Runs.run OnsetTrace.step (OnsetTrace.new hashing config) ops).seen)
    (fun s op h hok => ?_) (bounded_new hashing config _) (Runs.meets_and hmeets OnsetTrace.meets_onsets))
  obtain ⟨hop, hsub⟩ := hok
  change (s.governor.step op).core.Bounded _
  rw [core_step h.keyed hop] at hsub ⊢
  exact bounded_step hnames hsub h

/-- Two intents of one stream under a policy that an override replaced for another resource. -/
theorem intentsBounded_run_overridden : (Runs.run OnsetTrace.step
    (OnsetTrace.new .back { policy := pacingPolicy })
    [.setResourcePolicy ⟨2⟩ pacingPolicy, deepSample 1, deepSample 2, deepSample 3,
      deepSample 4]).governor.IntentsBounded :=
  intentsBounded_run .back { policy := pacingPolicy } _ (by simp [deepSample]) (by decide +kernel)

/-- A live intent whose expiry is not its renewal tick and the span of its limit. -/
def misdated (g : Governor) : Bool :=
  g.liveInterventions.any fun i =>
    i.authority.expiryTick ≠ addTicksSaturating i.stateChangedTick (limitFor g.policies i).ttlTicks

theorem not_intentsBounded_of_misdated {g : Governor} (h : g.misdated = true) :
    ¬ g.IntentsBounded := by
  intro hb
  obtain ⟨i, hi, hne⟩ := List.any_eq_true.mp h
  exact absurd (hb.within i hi).expiry (by simpa using hne)

/-- An onset of another resource whose episode has the identity of the deep stream's. -/
def twinOnset : UInt64 := 1194990997659665786

def twinSample (tick : UInt64) : Op :=
  .ingest { stream := ⟨⟨2⟩, ⟨2⟩, ⟨1⟩⟩, tick := ⟨tick⟩, depth := 2048 }

/-- Where two resources' episodes share an identity, one renews the other's intent under its own
    policy's limit. -/
theorem twinEpisode_misdates : ¬ (Runs.run OnsetTrace.step
    (OnsetTrace.new .back { policy := pacingPolicy })
    [.setResourcePolicy ⟨2⟩ { pacingPolicy with
        intervention := { requestPacing := ⟨true, 250, 32, SeverityClass.minor⟩ } },
      twinSample (twinOnset - 1), twinSample twinOnset, deepSample 1, deepSample 2, deepSample 3,
      twinSample (twinOnset + 1)]).governor.IntentsBounded :=
  not_intentsBounded_of_misdated (by decide +kernel)

end Governor

end Mbg
