import MicroburstGovernor.Governor.Acts
import MicroburstGovernor.Lib.Mailbox

/-! The emissions over runs of public calls: what is pushed, what a drain returns, what is lost.

        pushed  =  round ++ round ++ … ++ current          one round for every drain
        drained =  the newest of each round                 pending = the newest of the current one

    Every call but a restore counts what it pushes: the statistics are the tally of the emissions. -/

namespace Mbg

namespace Governor

/-! ### The outbox -/

def Outbox.push (o : Outbox) (e : Emission) : Outbox where
  pending := Mailbox.push Limits.maxPendingEmissions o.pending e
  sent := o.sent ++ [e]
  emitted := o.emitted + 1
  dropped := o.dropped + if Limits.maxPendingEmissions ≤ o.pending.length then 1 else 0

theorem outbox_pushEmissionLocked (g : Governor) (e : Emission) :
    (g.pushEmissionLocked e).outbox = g.outbox.push e := by
  by_cases hfull : Limits.maxPendingEmissions ≤ g.emissions.length
  · simp [pushEmissionLocked, outbox, Outbox.push, Mailbox.push, hfull]
  · simp [pushEmissionLocked, outbox, Outbox.push, Mailbox.push, hfull]

/-- How many emissions are of a kind; the installed policies are not counted apart. -/
def ofKind (es : List Emission) (k : EmissionKind) : ℕ :=
  if k = .policyInstalled then 0 else es.countP fun e => e.kind = k

theorem ofKind_append (es es' : List Emission) (k : EmissionKind) :
    ofKind (es ++ es') k = ofKind es k + ofKind es' k := by
  simp only [ofKind, List.countP_append]
  split <;> rfl

/-- What a part of a call pushes, in order. -/
def Posts (es : List Emission) (g g' : Governor) : Prop :=
  g'.outbox = es.foldl Outbox.push g.outbox

/-- What it pushes it counts. -/
structure Sends (es : List Emission) (g g' : Governor) : Prop where
  posts : Posts es g g'
  tally : ∀ k, g'.tally k = g.tally k + UInt64.ofNat (ofKind es k)

theorem Posts.trans {es es' : List Emission} {g g₁ g₂ : Governor} (h : Posts es g g₁)
    (h' : Posts es' g₁ g₂) : Posts (es ++ es') g g₂ := by
  unfold Posts at *
  rw [List.foldl_append, ← h]
  exact h'

theorem Sends.trans {es es' : List Emission} {g g₁ g₂ : Governor} (h : Sends es g g₁)
    (h' : Sends es' g₁ g₂) : Sends (es ++ es') g g₂ where
  posts := h.posts.trans h'.posts
  tally := by
    intro k
    rw [h'.tally, h.tally, ofKind_append, UInt64.ofNat_add, UInt64.add_assoc]

/-- A part of a call that sends nothing. -/
theorem Sends.quiet {g g' : Governor} (hout : g'.outbox = g.outbox) (htally : g'.tally = g.tally) :
    Sends [] g g' :=
  ⟨hout, fun k => by rw [htally]; simp [ofKind]⟩

theorem tally_pushEmissionLocked (g : Governor) (e : Emission) :
    (g.pushEmissionLocked e).tally = g.tally := by
  rw [pushEmissionLocked]
  funext k
  cases k <;> split <;> rfl

/-- An emission, and the counter that is raised for it. -/
theorem Sends.announce {g g₁ : Governor} {e : Emission} (hout : g₁.outbox = g.outbox)
    (htally : ∀ k, g₁.tally k = g.tally k + UInt64.ofNat (ofKind [e] k)) :
    Sends [e] g (g₁.pushEmissionLocked e) where
  posts := by
    rw [Posts, outbox_pushEmissionLocked, hout]
    rfl
  tally := by
    intro k
    rw [tally_pushEmissionLocked, htally]

/-- What a call pushes it counts, whatever it is. -/
def Sending (g g' : Governor) : Prop := ∃ es, Sends es g g'

/-- A change of authority is counted before the intents are revalidated, and announced after. -/
theorem sending_bound {g g₁ : Governor} {epoch : Epoch} {incarnation : IncarnationId} {boot : BootId}
    (h : Sending (g.rebound epoch incarnation boot) g₁) :
    Sending g (g₁.pushEmissionLocked
      { kind := .authorityBound, epoch, incarnation, tick := g₁.lastTick }) := by
  obtain ⟨es, hposts, hcounts⟩ := h
  have hout : (g.rebound epoch incarnation boot).outbox = g.outbox := rfl
  have htally : ∀ k, (g.rebound epoch incarnation boot).tally k =
      g.tally k + UInt64.ofNat (ofKind [{ kind := EmissionKind.authorityBound }] k) := by
    intro k
    cases k <;> simp [tally, ofKind, rebound]
  generalize g.rebound epoch incarnation boot = g₀ at *
  refine ⟨es ++ [{ kind := .authorityBound, epoch, incarnation, tick := g₁.lastTick }], ?_, fun k => ?_⟩
  · have hpushed : Posts [{ kind := .authorityBound, epoch, incarnation, tick := g₁.lastTick }] g₁
        (g₁.pushEmissionLocked
          { kind := .authorityBound, epoch, incarnation, tick := g₁.lastTick }) :=
      outbox_pushEmissionLocked _ _
    have hfirst : Posts es g g₁ := by
      rw [Posts, ← hout]
      exact hposts
    exact hfirst.trans hpushed
  · have hkind : ofKind [{ kind := .authorityBound, epoch, incarnation, tick := g₁.lastTick }] k =
        ofKind [{ kind := .authorityBound }] k := rfl
    rw [tally_pushEmissionLocked, hcounts, htally, ofKind_append, hkind, UInt64.ofNat_add]
    ac_rfl

/-- EVERY ACT counts what it announces, and announces one emission. -/
theorem sending_acts : ActLaw Sending where
  trans := by
    rintro g g₁ g₂ ⟨es, hes⟩ ⟨es', hes'⟩
    exact ⟨es ++ es', hes.trans hes'⟩
  quiet := fun h => ⟨[], .quiet (congrArg Parcel.outbox h) (congrArg Parcel.tally h)⟩
  retired := by
    intro g intent verdict now
    refine ⟨_, Sends.announce ?_ fun k => ?_⟩
    · dsimp only
      split <;> rfl
    · dsimp only
      by_cases hexpired : verdict = AuthorityVerdict.expired
      · rw [if_pos hexpired]
        cases k <;> simp [tally, ofKind, pushInterventionHistory]
        ac_rfl
      · rw [if_neg hexpired]
        cases k <;> simp [tally, ofKind, pushInterventionHistory]
        ac_rfl
  swept := fun s => ⟨[], .quiet rfl rfl⟩
  renewed := by
    intro g decision now limit intent
    refine ⟨_, Sends.announce rfl fun k => ?_⟩
    cases k <;> simp [tally, ofKind]
    ac_rfl
  issued := by
    intro g decision now kind limit hroom
    refine ⟨_, Sends.announce rfl fun k => ?_⟩
    cases k <;> simp [tally, ofKind]
  opened := by
    intro g event now
    refine ⟨_, Sends.announce rfl fun k => ?_⟩
    cases k <;> simp [tally, ofKind]
  ended := by
    intro g event fenced now
    have hrecorded := g.parcel_recordEventLocked event
    have hout := congrArg Parcel.outbox hrecorded
    have htally := congrArg Parcel.tally hrecorded
    rw [ending]
    dsimp only
    generalize g.recordEventLocked event = g₁ at *
    dsimp only [parcel] at hout htally
    refine ⟨_, Sends.announce ?_ fun k => ?_⟩
    · rw [← hout]
      split <;> rfl
    · rw [← htally]
      cases fenced <;> cases k <;> simp [tally, ofKind]
  installed := by
    intro g e he
    refine ⟨_, Sends.announce rfl fun k => ?_⟩
    by_cases hk : k = .policyInstalled
    · simp [ofKind, hk]
    · simp [ofKind, hk, he, Ne.symm hk]
  bound := fun g g₁ epoch incarnation boot h => sending_bound h

section

variable (g : Governor)

/-! ### Recovery -/

theorem outbox_foldl {α : Type} {turn : Governor → α → Governor}
    (hturn : ∀ g a, (turn g a).outbox = g.outbox) (as : List α) :
    ∀ g, (as.foldl turn g).outbox = g.outbox := by
  induction as with
  | nil => exact fun _ => rfl
  | cons a as ih => exact fun g => (ih (turn g a)).trans (hturn g a)

theorem outbox_applyRecovery (acc : RecoveryAccumulator) (report : RestoreReport) :
    (g.applyRecovery acc report).1.outbox = g.outbox := by
  have hpolicies : (g.restorePolicies acc report).1.outbox = g.outbox := by
    rw [restorePolicies]
    split
    · rfl
    · split <;> rfl
  have hevents : ∀ g' : Governor, (g'.restoreEvents acc).outbox = g'.outbox := by
    intro g'
    rw [restoreEvents]
    refine Eq.trans (outbox_foldl (fun g event => ?_) _ _) (outbox_foldl (fun g event => ?_) _ _)
    · exact congrArg Parcel.outbox (g.parcel_recordEventLocked _)
    · exact congrArg Parcel.outbox (g.parcel_recordEventLocked _)
  have hintents : ∀ g' : Governor, (g'.restoreInterventions acc).outbox = g'.outbox := by
    intro g'
    rw [restoreInterventions]
    refine outbox_foldl (fun g intent => ?_) _ _
    rfl
  rw [applyRecovery]
  generalize g.restorePolicies acc report = restored at *
  exact (hintents _).trans ((hevents _).trans hpolicies)

theorem posts_announceAuthority : ∃ es, Posts es g g.announceAuthority := by
  rw [announceAuthority]
  split
  · exact ⟨[_], (congrArg Parcel.outbox (parcel_appendRecordLocked _ _ _ _)).trans
      (g.outbox_pushEmissionLocked _)⟩
  · exact ⟨[_], g.outbox_pushEmissionLocked _⟩

theorem posts_restore : ∃ es, Posts es g g.restore.2.2 := by
  rw [restore]
  split
  · exact ⟨[], rfl⟩
  · split
    · exact ⟨[], rfl⟩
    · rename_i replayed store _
      obtain ⟨es, hes⟩ := posts_announceAuthority ((g.withStore store).applyRecovery
        ((g.withStore store).recover replayed).1 ((g.withStore store).recover replayed).2).1
      have hkept := (g.withStore store).outbox_applyRecovery
        ((g.withStore store).recover replayed).1 ((g.withStore store).recover replayed).2
      rw [Posts, hkept] at hes
      exact ⟨es, hes⟩

end

/-! ### Runs -/

/-- A call that does not restore counts what it pushes, and one that does pushes all the same. -/
theorem sending_step (g : Governor) {op : Op} (hdrains : op.drains = false) :
    (∃ es, Posts es g (g.step op)) ∧ (op.restores = false → Sending g (g.step op)) := by
  cases hrestores : op.restores with
  | false =>
    have hsending := sending_acts.step g hrestores hdrains
    obtain ⟨es, hes⟩ := hsending
    exact ⟨⟨es, hes.posts⟩, fun _ => ⟨es, hes⟩⟩
  | true =>
    cases op with
    | restore => exact ⟨g.posts_restore, fun h => by cases h⟩
    | _ => cases hrestores

/-- A governor with what its drains returned so far, and what was pushed before each since the one
    before it. -/
structure MailTrace where
  governor : Governor
  returned : List (List Emission) := []
  rounds : List (List Emission) := []

namespace MailTrace

/-- What was pushed since the last drain. -/
def current (s : MailTrace) : List Emission :=
  s.governor.ledger.emitted.drop s.rounds.flatten.length

def step (s : MailTrace) (op : Op) : MailTrace where
  governor := s.governor.step op
  returned := if op.drains then s.returned ++ [s.governor.drainEmissions.1] else s.returned
  rounds := if op.drains then s.rounds ++ [s.current] else s.rounds

/-- What the bound of the buffer cost: the oldest of every round that outgrew it. -/
def lost (s : MailTrace) : List Emission :=
  (s.rounds ++ [s.current]).flatMap (Mailbox.overrun Limits.maxPendingEmissions)

/-- THE MAILBOX: a drain returns the newest emissions of its round, in the order they were pushed; the
    rest of the round was dropped, and both are counted. -/
structure Delivered (s : MailTrace) : Prop where
  rounds : s.governor.ledger.emitted = s.rounds.flatten ++ s.current
  returned : s.returned = s.rounds.map (Mailbox.newest Limits.maxPendingEmissions)
  pending : s.governor.emissions = Mailbox.newest Limits.maxPendingEmissions s.current
  emitted : s.governor.stats.emissionsEmitted = UInt64.ofNat s.governor.ledger.emitted.length
  dropped : s.governor.stats.emissionsDropped = UInt64.ofNat s.lost.length

/-- The mailbox amid a round. -/
structure Holds (rounds : List (List Emission)) (current : List Emission) (o : Outbox) : Prop where
  sent : o.sent = rounds.flatten ++ current
  pending : o.pending = Mailbox.newest Limits.maxPendingEmissions current
  emitted : o.emitted = UInt64.ofNat o.sent.length
  dropped : o.dropped = UInt64.ofNat
    ((rounds ++ [current]).flatMap (Mailbox.overrun Limits.maxPendingEmissions)).length

section

variable {rounds : List (List Emission)} {current : List Emission} {o : Outbox}

theorem Holds.push (h : Holds rounds current o) (e : Emission) :
    Holds rounds (current ++ [e]) (o.push e) where
  sent := by
    rw [Outbox.push, h.sent, List.append_assoc]
  pending := by
    have hcap : 0 < Limits.maxPendingEmissions := by decide
    rw [Outbox.push]
    dsimp only
    rw [h.pending, Mailbox.push_newest hcap]
  emitted := by
    rw [Outbox.push, h.emitted, List.length_append, List.length_singleton, UInt64.ofNat_add]
    rfl
  dropped := by
    have hlost := Mailbox.length_overrun_push Limits.maxPendingEmissions current e
    have hsplit : ∀ as : List Emission,
        ((rounds ++ [as]).flatMap (Mailbox.overrun Limits.maxPendingEmissions)).length =
          (rounds.flatMap (Mailbox.overrun Limits.maxPendingEmissions)).length +
            (Mailbox.overrun Limits.maxPendingEmissions as).length := by
      intro as
      simp
    have hcount : ∀ p : Prop, ∀ [Decidable p],
        (if p then (1 : UInt64) else 0) = UInt64.ofNat (if p then 1 else 0) := by
      intro p _
      split <;> rfl
    rw [hsplit, hlost, Outbox.push]
    dsimp only
    rw [h.dropped, h.pending, hsplit, ← Nat.add_assoc, hcount, ← UInt64.ofNat_add]

theorem Holds.foldl (es : List Emission) : ∀ {current o}, Holds rounds current o →
    Holds rounds (current ++ es) (es.foldl Outbox.push o) := by
  induction es with
  | nil =>
    intro current o h
    simpa using h
  | cons e es ih =>
    intro current o h
    have hrest := ih (h.push e)
    rwa [List.append_assoc, List.singleton_append] at hrest

/-- A drain empties the mailbox and ends the round. -/
theorem Holds.drain (h : Holds rounds current o) :
    Holds (rounds ++ [current]) [] { o with pending := [] } where
  sent := by simp [h.sent]
  pending := by simp
  emitted := h.emitted
  dropped := by
    rw [h.dropped]
    simp

end

theorem delivered_iff (s : MailTrace) : Delivered s ↔ Holds s.rounds s.current s.governor.outbox ∧
    s.returned = s.rounds.map (Mailbox.newest Limits.maxPendingEmissions) := by
  constructor
  · rintro ⟨hrounds, hreturned, hpending, hemitted, hdropped⟩
    exact ⟨⟨hrounds, hpending, hemitted, hdropped⟩, hreturned⟩
  · rintro ⟨⟨hsent, hpending, hemitted, hdropped⟩, hreturned⟩
    exact ⟨hsent, hreturned, hpending, hemitted, hdropped⟩

/-- What stands behind the rounds is the current one. -/
theorem Holds.current_eq {s : MailTrace} {current : List Emission}
    (h : Holds s.rounds current s.governor.outbox) : s.current = current := by
  have hsent : s.governor.ledger.emitted = s.rounds.flatten ++ current := h.sent
  rw [MailTrace.current, hsent, List.drop_left]

/-- STEP: a drain returns its round, and any other call goes on with the current one. -/
theorem delivered_step {s : MailTrace} (h : Delivered s) (op : Op) : Delivered (s.step op) := by
  obtain ⟨hholds, hreturned⟩ := (delivered_iff s).mp h
  cases hdrains : op.drains with
  | true =>
    have hdrained := hholds.drain
    cases op with
    | drainEmissions =>
      have hnow : Holds (s.step .drainEmissions).rounds [] (s.step .drainEmissions).governor.outbox :=
        hdrained
      have hcurrent := hnow.current_eq
      refine (delivered_iff _).mpr ⟨by rw [hcurrent]; exact hnow, ?_⟩
      have hpending : s.governor.emissions = _ := hholds.pending
      simp [step, Op.drains, drainEmissions, hreturned, hpending]
    | _ => cases hdrains
  | false =>
    obtain ⟨es, hes⟩ := (sending_step s.governor hdrains).1
    have hnow : Holds (s.step op).rounds (s.current ++ es) (s.step op).governor.outbox := by
      have hrounds : (s.step op).rounds = s.rounds := by simp [step, hdrains]
      have hout : (s.step op).governor.outbox = es.foldl Outbox.push s.governor.outbox := hes
      rw [hrounds, hout]
      exact hholds.foldl es
    have hcurrent := hnow.current_eq
    refine (delivered_iff _).mpr ⟨by rw [hcurrent]; exact hnow, ?_⟩
    simp only [step, hdrains, Bool.false_eq_true, if_false]
    exact hreturned

end MailTrace

/-! ### The tally -/

theorem sent_foldl_push (es : List Emission) : ∀ o : Outbox,
    (es.foldl Outbox.push o).sent = o.sent ++ es := by
  induction es with
  | nil => exact fun o => (List.append_nil _).symm
  | cons e es ih =>
    intro o
    rw [List.foldl_cons, ih, Outbox.push, List.append_assoc, List.singleton_append]

/-- The statistics are the tally of the emissions. -/
def Tallied (g : Governor) : Prop :=
  ∀ k, g.tally k = UInt64.ofNat (ofKind g.ledger.emitted k)

theorem tallied_step {g : Governor} (h : g.Tallied) {op : Op} (hop : op.restores = false) :
    (g.step op).Tallied := by
  cases hdrains : op.drains with
  | true =>
    cases op with
    | drainEmissions => exact h
    | _ => cases hdrains
  | false =>
    obtain ⟨es, hes⟩ := (sending_step g hdrains).2 hop
    intro k
    have hsent : (g.step op).ledger.emitted = g.ledger.emitted ++ es :=
      (congrArg Outbox.sent hes.posts).trans (sent_foldl_push es g.outbox)
    rw [hes.tally, h k, hsent, ofKind_append, UInt64.ofNat_add]

/-- THE TALLY: in every run of public calls without a restore, each statistic of episodes, intents and
    authority changes is the number of emissions of its kind, also of those a drain never returned. -/
theorem tallied_run (hashing : Hashing) (config : GovernorConfig) (ops : List Op)
    (hops : ∀ op ∈ ops, op.restores = false) : (Runs.run step (new hashing config) ops).Tallied := by
  have hstart : (new hashing config).Tallied := fun k => by cases k <;> rfl
  generalize new hashing config = g at *
  induction ops generalizing g with
  | nil => exact hstart
  | cons op ops ih =>
    exact ih (fun op' hop' => hops op' (List.mem_cons_of_mem _ hop')) _
      (tallied_step hstart (hops op (by simp)))

/-- A deep queue at three ticks, a change of authority and a drain. -/
def burstCalls : List Op :=
  [1, 2, 3].map (fun tick => .ingest { stream := ⟨⟨1⟩, ⟨1⟩, ⟨1⟩⟩, tick := ⟨tick⟩, depth := 2048 }) ++
    [.bindAuthority ⟨2⟩ ⟨7⟩ ⟨7⟩, .drainEmissions, .advance ⟨4⟩]

theorem tallied_run_burst : (Runs.run step (new Hashing.back {}) burstCalls).Tallied :=
  tallied_run _ _ _ (by decide)

end Governor

end Mbg
