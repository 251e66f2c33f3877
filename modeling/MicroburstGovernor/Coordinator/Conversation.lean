import MicroburstGovernor.Coordinator.Turns

/-! A worker and its session, whatever the rest of the deployment does: every sample arrives once and
    in order, every acknowledgement is one of the batch it is returned for, and every call returns.

    The worker and the session's thread each keep one invariant: what is on its way, whose turn it is,
    and what was told. A call that blocks is answered because the session can always take a block. -/

namespace Mbg

open ByteReader

/-! ### The conversation -/

namespace Conversation

/-- The blocks of a session's thread: it waits, or takes the next one with the frame it takes off the
    queue and the one it puts on the other. -/
theorem serve_cases (k : Conversation) (lost : Bool) :
    (k.serve lost = k ∧ ∀ s, k.deployment.sessions[k.channel]? = some s →
      s.phase.reads = true ∧ k.up = []) ∨
    ∃ s answer up, k.deployment.sessions[k.channel]? = some s ∧
      k.up = Session.taken s.phase answer ++ up ∧
      k.serve lost =
        { k with
          deployment := k.deployment.step (.session k.channel answer)
          up
          down := k.down ++ Session.given s.phase s.sequence answer } := by
  unfold serve
  cases hs : k.deployment.sessions[k.channel]? with
  | none => exact Or.inl ⟨rfl, fun s h => by cases h⟩
  | some s =>
    have hsilent : Session.taken s.phase {} = [] := by
      unfold Session.taken
      split_ifs <;> rfl
    cases hreads : s.phase.reads with
    | true =>
      obtain ⟨hreply, -⟩ := Session.reply_of_reads s.sequence hreads
      have hgiven : ∀ answer, Session.given s.phase s.sequence answer = [] := by
        intro answer
        simp [Session.given, hreply]
      have hfails : ∃ s' answer up, some s = some s' ∧
          k.up = Session.taken s'.phase answer ++ up ∧
          k.advance {} =
            { k with
              deployment := k.deployment.step (.session k.channel answer)
              up
              down := k.down ++ Session.given s'.phase s'.sequence answer } := by
        refine ⟨s, {}, k.up, rfl, by rw [hsilent, List.nil_append], ?_⟩
        rw [hgiven, List.append_nil]
        rfl
      dsimp only
      rw [if_pos hreads]
      by_cases hlost : lost = true
      · rw [if_pos hlost]
        exact Or.inr hfails
      · rw [if_neg hlost]
        cases hup : k.up with
        | cons frame up =>
          refine Or.inr ⟨s, { frame := some frame }, up, rfl, ?_, ?_⟩
          · rw [Session.taken, if_pos hreads]
            rfl
          · rw [hgiven, List.append_nil]
            rfl
        | nil =>
          dsimp only
          rw [hup] at hfails
          by_cases hopen : k.worker.connected = true
          · rw [if_pos hopen]
            exact Or.inl ⟨rfl, fun s' h => by rw [← Option.some.inj h]; exact ⟨hreads, rfl⟩⟩
          · rw [if_neg hopen]
            exact Or.inr hfails
    | false =>
      have htaken : ∀ answer, Session.taken s.phase answer = [] := by
        intro answer
        rw [Session.taken, hreads]
        rfl
      dsimp only
      rw [hreads, if_neg Bool.false_ne_true]
      split
      case h_1 reply hreply =>
        split_ifs
        · refine Or.inr ⟨s, { sent := false }, k.up, rfl, by rw [htaken, List.nil_append], ?_⟩
          rw [Session.given, if_neg Bool.false_ne_true, List.append_nil]
          rfl
        · refine Or.inr ⟨s, { sent := true }, k.up, rfl, by rw [htaken, List.nil_append], ?_⟩
          rw [Session.given, if_pos rfl, hreply]
          rfl
      case h_2 hreply =>
        refine Or.inr ⟨s, {}, k.up, rfl, by rw [htaken, List.nil_append], ?_⟩
        rw [Session.given, if_pos rfl, hreply, Option.map_none, Option.toList_none, List.append_nil]
        rfl

end Conversation

/-! ### What the worker makes of a reply -/

section

variable {w : Worker} {r : Reply}

theorem fenced_takeHelloAck (h : (w.takeHelloAck r.frame.stamped).2.fenced = true) :
    w.fenced = true ∨ r.fences = true := by
  cases r with
  | helloAck response =>
    have hdecode : (decodeHelloResponse (.of (Reply.helloAck response).frame.stamped.payload)).1 =
        .ok response := decodeHelloResponse_write response
    have hfence : (Reply.helloAck response).frame.stamped.header.type ≠ MessageType.fence :=
      fun heq => by cases heq
    have hack : ¬ (Reply.helloAck response).frame.stamped.header.type ≠ MessageType.helloAck :=
      not_not.mpr rfl
    unfold Worker.takeHelloAck at h
    rw [if_neg hfence, if_neg hack, hdecode] at h
    dsimp only at h
    split_ifs at h
    · exact Or.inr h
    · exact Or.inl h
  | evidenceAck seq ack => exact Or.inl h
  | fence seq notice => exact Or.inr rfl
  | error code detail => exact Or.inl h

theorem fenced_takeEvidenceAck (h : (w.takeEvidenceAck r.frame.stamped).2.fenced = true) :
    w.fenced = true ∨ r.fences = true := by
  cases r with
  | fence seq notice => exact Or.inr rfl
  | _ => exact Or.inl h

theorem acked_takeEvidenceAck {ack : EvidenceAck}
    (h : (w.takeEvidenceAck r.frame.stamped).1 = .ok ack) : ∃ seq, r = .evidenceAck seq ack := by
  cases r with
  | evidenceAck seq sent =>
    have hdecode : (decodeEvidenceAck (.of (Reply.evidenceAck seq sent).frame.stamped.payload)).1 =
        .ok sent := decodeEvidenceAck_write sent
    have hread : (decodeEvidenceAck (.of (Reply.evidenceAck seq sent).frame.stamped.payload)).1 =
        .ok ack := h
    rw [hdecode] at hread
    exact ⟨seq, by rw [Except.ok.inj hread]⟩
  | _ => cases h

end

namespace Conversation

/-- The reply that a worker blocked for is taken: a fence has been told, and an acknowledgement that
    is returned is the one that was sent. -/
theorem take_cases (k : Conversation) (request reply : Frame) : ∃ worker acks,
    k.take request reply = { k with worker, acks } ∧
    (worker.fenced = true → k.worker.fenced = true ∨
      ∀ r : Reply, r.frame.stamped = reply → r.fences = true) ∧
    (acks = k.acks ∨ ∃ ack, acks = k.acks ++ [(request, ack)] ∧
      ∀ r : Reply, r.frame.stamped = reply → ∃ seq, r = .evidenceAck seq ack) := by
  by_cases hrequest : request.header.type = MessageType.hello
  · refine ⟨_, k.acks, by rw [take, if_pos hrequest], fun hfenced => ?_, Or.inl rfl⟩
    by_cases hbefore : k.worker.fenced = true
    · exact Or.inl hbefore
    · refine Or.inr fun r hr => ?_
      subst hr
      exact (fenced_takeHelloAck hfenced).resolve_left hbefore
  · have hfenced : ∀ r : Reply, r.frame.stamped = reply →
        (k.worker.takeEvidenceAck reply).2.fenced = true → k.worker.fenced = true ∨ r.fences = true := by
      rintro r rfl
      exact fenced_takeEvidenceAck
    have hacked : ∀ r : Reply, r.frame.stamped = reply → ∀ ack,
        (k.worker.takeEvidenceAck reply).1 = .ok ack → ∃ seq, r = .evidenceAck seq ack := by
      rintro r rfl ack
      exact acked_takeEvidenceAck
    unfold take
    rw [if_neg hrequest]
    generalize k.worker.takeEvidenceAck reply = result at *
    obtain ⟨verdict, worker⟩ := result
    have htold : worker.fenced = true → k.worker.fenced = true ∨
        ∀ r : Reply, r.frame.stamped = reply → r.fences = true := by
      intro hw
      by_cases hbefore : k.worker.fenced = true
      · exact Or.inl hbefore
      · exact Or.inr fun r hr => (hfenced r hr hw).resolve_left hbefore
    cases verdict with
    | error e => exact ⟨worker, k.acks, rfl, htold, Or.inl rfl⟩
    | ok ack =>
      exact ⟨worker, k.acks ++ [(request, ack)], rfl, htold,
        Or.inr ⟨ack, rfl, fun r hr => hacked r hr ack rfl⟩⟩

/-- Calls return in the order they were made. -/
def Ordered (said : List Frame) (acks : List (Frame × EvidenceAck)) : Option Frame → Prop
  | none => (acks.map Prod.fst).Sublist said
  | some f => ∃ earlier, said = earlier ++ [f] ∧ (acks.map Prod.fst).Sublist earlier

/-- What holds between a worker and its session in every interleaving. -/
structure Kept (a : AuthorityState) (k : Conversation) : Prop where
  admits : k.deployment.Admits a
  said : k.said = reads k.session.trace ++ k.up
  heard : (replies k.session.trace).map (fun r => r.frame.stamped) = k.heard ++ k.down
  handing : Session.Handing k.session.phase k.session.trace
  telling : Session.Telling a k.session.phase k.session.trace
  turn : k.deaf = false → Turn a k.session.phase k.session.trace k.up k.down k.waiting
  fenced : k.worker.fenced = true → Session.Told a k.session.trace
  acked : ∀ x ∈ k.acks, Acked a k.session.trace x.1 x.2
  ordered : Ordered k.said k.acks k.waiting

variable {a : AuthorityState} {k : Conversation}

/-! ### Steps of the worker -/

theorem Kept.worker (h : k.Kept a) {w : Worker} (hw : w.fenced = k.worker.fenced) (mute : Bool) :
    { k with worker := w, mute }.Kept a where
  admits := h.admits
  said := h.said
  heard := h.heard
  handing := h.handing
  telling := h.telling
  turn := h.turn
  fenced hfenced := h.fenced (hw ▸ hfenced)
  acked := h.acked
  ordered := h.ordered

/-- A frame is put on the channel, and the worker blocks if it is answered. -/
theorem Kept.say (h : k.Kept a) (hwaiting : k.waiting = none) {w : Worker}
    (hw : w.fenced = k.worker.fenced) {f : Frame} {next : Option Frame}
    (hnext : next = some f ∧ f.Asks ∨ next = none ∧ f.Quiet) :
    { k with worker := w, up := k.up ++ [f], said := k.said ++ [f], waiting := next }.Kept a where
  admits := h.admits
  said := by
    change k.said ++ [f] = reads k.session.trace ++ (k.up ++ [f])
    rw [h.said, List.append_assoc]
  heard := h.heard
  handing := h.handing
  telling := h.telling
  turn hdeaf := by
    have hturn := h.turn hdeaf
    rw [hwaiting] at hturn
    rcases hnext with ⟨rfl, hasks⟩ | ⟨rfl, hquiet⟩
    · exact ⟨hasks, Or.inl ⟨k.up, rfl, hturn⟩⟩
    · cases hturn with
      | closing hp hdown => exact .closing hp hdown
      | listening hp hup hdown =>
        refine .listening hp (fun g hg => ?_) hdown
        rcases List.mem_append.mp hg with hg | hg
        · exact hup g hg
        · rw [List.mem_singleton.mp hg]
          exact hquiet
  fenced hfenced := h.fenced (hw ▸ hfenced)
  acked := h.acked
  ordered := by
    have hordered := h.ordered
    rw [hwaiting] at hordered
    rcases hnext with ⟨rfl, -⟩ | ⟨rfl, -⟩
    · exact ⟨k.said, rfl, hordered⟩
    · exact hordered.trans (List.sublist_append_left _ _)

/-- The frame of a call, and whether the worker blocks for its answer. -/
theorem call_cases (k : Conversation) (c : WorkerCall) (sent : Bool) :
    k.call c sent = k ∨ k.waiting = none ∧ ∃ w : Worker, w.fenced = k.worker.fenced ∧
      ((∃ mute, k.call c sent = { k with worker := w, mute }) ∨
        ∃ f next, (next = some f ∧ f.Asks ∨ next = none ∧ f.Quiet) ∧
          k.call c sent =
            { k with worker := w, up := k.up ++ [f], said := k.said ++ [f], waiting := next }) := by
  unfold call
  by_cases hidle : (k.waiting.isSome || !k.worker.connected) = true
  · rw [if_pos hidle]
    exact Or.inl rfl
  · rw [if_neg hidle]
    have hwaiting : k.waiting = none := by
      cases hw : k.waiting with
      | none => rfl
      | some f =>
        rw [hw] at hidle
        exact absurd rfl hidle
    refine Or.inr ⟨hwaiting, ?_⟩
    have hspeak : (k.worker.speak c).2.fenced = k.worker.fenced ∧
        ((c = .handshake ∨ ∃ batch, c = .evidence batch) ∧ (k.worker.speak c).1.stamped.Asks ∨
          (c = .goodbye ∨ ∃ tick, c = .heartbeat tick) ∧ (k.worker.speak c).1.stamped.Quiet) := by
      cases c with
      | handshake => exact ⟨rfl, Or.inl ⟨Or.inl rfl, Or.inl rfl⟩⟩
      | heartbeat tick => exact ⟨rfl, Or.inr ⟨Or.inr ⟨tick, rfl⟩, Or.inl rfl⟩⟩
      | evidence batch => exact ⟨rfl, Or.inl ⟨Or.inr ⟨batch, rfl⟩, Or.inr rfl⟩⟩
      | goodbye => exact ⟨rfl, Or.inr ⟨Or.inl rfl, Or.inr rfl⟩⟩
    generalize k.worker.speak c = spoken at *
    obtain ⟨frame, w⟩ := spoken
    obtain ⟨hfenced, hkind⟩ := hspeak
    dsimp only
    cases encodeFrame frame with
    | error e =>
      refine ⟨_, ?_, Or.inl ⟨k.mute, rfl⟩⟩
      split_ifs <;> exact hfenced
    | ok bytes =>
      dsimp only
      by_cases hfails : (k.mute || !sent) = true
      · rw [if_pos hfails]
        refine ⟨_, ?_, Or.inl ⟨true, rfl⟩⟩
        split_ifs <;> exact hfenced
      · rw [if_neg hfails]
        refine ⟨_, ?_, Or.inr ⟨frame.stamped, _, ?_, rfl⟩⟩
        · split_ifs <;> exact hfenced
        · rcases hkind with ⟨rfl | ⟨batch, rfl⟩, hasks⟩ | ⟨rfl | ⟨tick, rfl⟩, hquiet⟩
          · exact Or.inl ⟨rfl, hasks⟩
          · exact Or.inl ⟨rfl, hasks⟩
          · exact Or.inr ⟨rfl, hquiet⟩
          · exact Or.inr ⟨rfl, hquiet⟩

theorem kept_call (h : k.Kept a) (c : WorkerCall) (sent : Bool) : (k.call c sent).Kept a := by
  rcases k.call_cases c sent with hsame | ⟨hwaiting, w, hw, ⟨mute, hcall⟩ | ⟨f, next, hnext, hcall⟩⟩
  · rw [hsame]
    exact h
  · rw [hcall]
    exact h.worker hw mute
  · rw [hcall]
    exact h.say hwaiting hw hnext

/-- The frame that was answered leaves the worker's turn to it, and an acknowledgement that is
    heard is one of this frame. -/
theorem turn_hear {p : SessionPhase} {t : List SessionEvent} {up down : List Frame} {reply f : Frame}
    (h : Turn a p t up (reply :: down) (some f)) :
    Turn a p t up down none ∧
      ∃ r : Reply, reply = r.frame.stamped ∧ (r.terminal = true ∨ Given a t f r) := by
  obtain ⟨-, ⟨earlier, -, hresting⟩ | ⟨rfl, hserved⟩⟩ := h
  · cases hresting with
    | listening _ _ hdown => cases hdown
    | closing hp hdown =>
      obtain ⟨r, hterminal, hr⟩ := hdown reply List.mem_cons_self
      exact ⟨.closing hp fun g hg => hdown g (List.mem_cons_of_mem _ hg), r, hr, Or.inl hterminal⟩
  · have hanswering := hserved.answering
    have hfree : (∃ r, reply :: down = [r.frame.stamped] ∧ Given a t f r) → p.Unasked →
        Turn a p t [] down none ∧
          ∃ r : Reply, reply = r.frame.stamped ∧ (r.terminal = true ∨ Given a t f r) := by
      rintro ⟨r, heq, hgiven⟩ hp
      obtain ⟨hr, rfl⟩ := List.cons.inj heq
      exact ⟨.listening hp (fun g hg => by cases hg) rfl, r, hr, Or.inr hgiven⟩
    have hended : p.closing = true →
        (reply :: down = [] ∨ ∃ r, reply :: down = [r.frame.stamped] ∧ Given a t f r) →
        Turn a p t [] down none ∧
          ∃ r : Reply, reply = r.frame.stamped ∧ (r.terminal = true ∨ Given a t f r) := by
      rintro hp (heq | ⟨r, heq, hgiven⟩)
      · cases heq
      · obtain ⟨hr, rfl⟩ := List.cons.inj heq
        exact ⟨.closing hp (fun g hg => by cases hg), r, hr, Or.inr hgiven⟩
    cases p with
    | awaitingHello => exact hanswering.elim
    | noting tick => exact hanswering.elim
    | looping => exact hfree hanswering trivial
    | receiving => exact hfree hanswering trivial
    | finishing graceful => exact hended rfl hanswering
    | retiring graceful => exact hended rfl hanswering
    | ended graceful => exact hended rfl hanswering
    | handshaking hello => cases hanswering
    | acknowledging response => cases hanswering
    | _ => cases hanswering.2

/-- The connection is found gone. -/
theorem Kept.deafen (h : k.Kept a) {f : Frame} (hwaiting : k.waiting = some f) :
    { k with waiting := none, deaf := true }.Kept a where
  admits := h.admits
  said := h.said
  heard := h.heard
  handing := h.handing
  telling := h.telling
  turn hdeaf := by cases hdeaf
  fenced := h.fenced
  acked := h.acked
  ordered := by
    have hordered := h.ordered
    rw [hwaiting] at hordered
    obtain ⟨earlier, hsaid, hsub⟩ := hordered
    change (k.acks.map Prod.fst).Sublist k.said
    rw [hsaid]
    exact hsub.trans (List.sublist_append_left _ _)

/-- A reply is taken off the channel. -/
theorem Kept.take (h : k.Kept a) {f reply : Frame} {down : List Frame}
    (hwaiting : k.waiting = some f) (hdeaf : k.deaf = false) (hdown : k.down = reply :: down) :
    ({ k with waiting := none, down, heard := k.heard ++ [reply] }.take f reply).Kept a := by
  have hturn := h.turn hdeaf
  rw [hwaiting, hdown] at hturn
  obtain ⟨hrest, r, hr, hkind⟩ := turn_hear hturn
  have hordered := h.ordered
  rw [hwaiting] at hordered
  obtain ⟨earlier, hsaid, hsub⟩ := hordered
  have hheard := h.heard
  rw [hdown] at hheard
  have hmem : reply ∈ (replies k.session.trace).map fun r => r.frame.stamped := by
    rw [hheard]
    simp
  obtain ⟨sent, hsent, hreply⟩ := List.mem_map.mp hmem
  obtain ⟨worker, acks, htake, hfenced, hacks⟩ :=
    take_cases { k with waiting := none, down, heard := k.heard ++ [reply] } f reply
  rw [htake]
  refine
    { admits := h.admits
      said := h.said
      heard := by
        change _ = k.heard ++ [reply] ++ down
        rw [List.append_assoc]
        exact hheard
      handing := h.handing
      telling := h.telling
      turn := fun _ => hrest
      fenced := fun hw => ?_
      acked := ?_
      ordered := ?_ }
  · rcases hfenced hw with hbefore | hfences
    · exact h.fenced hbefore
    · exact h.telling.told sent hsent (hfences sent hreply)
  · rcases hacks with rfl | ⟨ack, rfl, hack⟩
    · exact h.acked
    · intro x hx
      rcases List.mem_append.mp hx with hx | hx
      · exact h.acked x hx
      · rw [List.mem_singleton.mp hx]
        obtain ⟨seq, rfl⟩ := hack r hr.symm
        rcases hkind with hterminal | hgiven
        · cases hterminal
        · exact hgiven
  · change (acks.map Prod.fst).Sublist k.said
    rcases hacks with rfl | ⟨ack, rfl, -⟩
    · rw [hsaid]
      exact hsub.trans (List.sublist_append_left _ _)
    · rw [hsaid, List.map_append]
      exact hsub.append (List.Sublist.refl _)

theorem kept_hear (h : k.Kept a) (lost : Bool) : (k.hear lost).Kept a := by
  unfold hear
  split
  case h_1 => exact h
  case h_2 f hwaiting =>
    by_cases hfails : (k.deaf || lost) = true
    · rw [if_pos hfails]
      exact h.deafen hwaiting
    · rw [if_neg hfails]
      have hdeaf : k.deaf = false := by
        cases hd : k.deaf with
        | false => rfl
        | true =>
          rw [hd] at hfails
          exact absurd rfl hfails
      split
      case h_1 reply down hdown => exact h.take hwaiting hdeaf hdown
      case h_2 =>
        split_ifs
        · exact h.deafen hwaiting
        · exact h

/-! ### Steps of the other threads -/

theorem session_eq {s : Session} (hs : k.deployment.sessions[k.channel]? = some s) :
    k.session = s := by
  rw [session, hs]
  rfl

/-- The other threads leave the session alone; one that is spawned has done nothing. -/
theorem session_elsewhere {act : Mbg.Act} (hact : act.isOf k.channel = false) :
    { k with deployment := k.deployment.step act }.session = k.session := by
  cases hs : k.deployment.sessions[k.channel]? with
  | some s =>
    rcases k.deployment.session_step act hs with ⟨-, hsame⟩ | ⟨answer, rfl, -⟩
    · rw [session_eq hs]
      exact session_eq hsame
    · simp [Act.isOf] at hact
  | none =>
    have hnew : (k.deployment.step act).sessions[k.channel]? = none ∨
        (k.deployment.step act).sessions[k.channel]? = some {} := by
      have hlength := List.getElem?_eq_none_iff.mp hs
      cases act with
      | session i answer =>
        left
        rw [Deployment.step, Deployment.stepSession]
        cases k.deployment.sessions[i]? with
        | none => exact hs
        | some s =>
          dsimp only
          rw [List.getElem?_eq_none_iff, List.length_set]
          exact hlength
      | accept connection =>
        rw [Deployment.step]
        unfold Deployment.stepAccept
        dsimp only
        split
        · exact Or.inl hs
        · exact Or.inl hs
        · split_ifs <;> exact Or.inl hs
        · split_ifs <;> exact Or.inl hs
        · dsimp only
          rw [List.getElem?_append_right hlength]
          cases k.channel - k.deployment.sessions.length with
          | zero => exact Or.inr rfl
          | succ n => exact Or.inl rfl
        · exact Or.inl hs
      | stop =>
        left
        rw [Deployment.step]
        unfold Deployment.stepStop
        dsimp only
        split
        · exact hs
        · split_ifs <;> exact hs
        · split_ifs <;> exact hs
        · exact hs
    rw [session, session, hs]
    rcases hnew with hnew | hnew
    · rw [hnew]
    · rw [hnew]
      rfl

theorem kept_elsewhere (h : k.Kept a) {act : Mbg.Act} (hact : act.isOf k.channel = false) :
    { k with deployment := k.deployment.step act }.Kept a := by
  have hsession := session_elsewhere hact
  refine ⟨h.admits.step act, ?_, ?_, ?_, ?_, ?_, ?_, ?_, h.ordered⟩
  all_goals rw [hsession]
  · exact h.said
  · exact h.heard
  · exact h.handing
  · exact h.telling
  · exact h.turn
  · exact h.fenced
  · exact h.acked

/-- What a block of its own thread leaves of a session. -/
theorem session_serve {s : Session} {answer : Answer}
    (hs : k.deployment.sessions[k.channel]? = some s) :
    (k.deployment.step (.session k.channel answer)).sessions[k.channel]? =
      some (s.step k.deployment.coordinator k.channel answer).2 := by
  rcases k.deployment.session_step (.session k.channel answer) hs with
    ⟨hother, -⟩ | ⟨answer', heq, hnext, -⟩
  · simp [Act.isOf] at hother
  · cases heq
    exact hnext

/-- STEP: a block of the session's own thread. -/
theorem kept_serve (h : k.Kept a) (lost : Bool) : (k.serve lost).Kept a := by
  rcases k.serve_cases lost with ⟨hsame, -⟩ | ⟨s, answer, up, hs, hup, hserve⟩
  · rw [hsame]
    exact h
  · rw [hserve]
    have hadmits := h.admits.step (.session k.channel answer)
    have hmem : s ∈ k.deployment.sessions := List.mem_of_getElem? hs
    have hkept := h.admits.kept s hmem
    have hturned := Session.turned_step k.deployment.coordinator k.channel s answer
    rw [h.admits.authority] at hturned
    have hnext := @session_serve k s answer hs
    generalize (s.step k.deployment.coordinator k.channel answer).2 = s' at *
    generalize k.deployment.step (.session k.channel answer) = d' at *
    have hbefore := session_eq hs
    have hafter :
        { k with deployment := d', up, down := k.down ++ Session.given s.phase s.sequence answer }.session =
          s' := session_eq hnext
    obtain ⟨-, hsaid, hheard, hhanding, htelling, hturn, hfenced, hacked, hordered⟩ := h
    rw [hbefore] at hsaid hheard hhanding htelling hturn hfenced hacked
    have hserving : ∀ ack, s.phase = .answering ack → Session.Serving a s.trace [] ack := by
      intro ack hphase
      have hstands := hkept.stands
      rwa [Session.Stands, hphase] at hstands
    refine ⟨hadmits, ?_, ?_, ?_, ?_, ?_, ?_, ?_, hordered⟩
    all_goals rw [hafter]
    · rw [hturned.reads_eq]
      change k.said = reads s.trace ++ Session.taken s.phase answer ++ up
      rw [hsaid, hup, List.append_assoc]
    · rw [hturned.replies_eq, List.map_append, hheard, List.append_assoc]
      congr 1
      rw [List.append_cancel_left_eq, Session.given]
      split_ifs
      · cases s.phase.reply s.sequence <;> rfl
      · rfl
    · exact hhanding.turned hturned
    · exact htelling.turned hturned
    · intro hdeaf
      refine Session.turn_turned ?_ hserving hhanding hturned
      rw [← hup]
      exact hturn hdeaf
    · exact fun hw => (hfenced hw).turned hturned
    · exact fun x hx => (hacked x hx).grows hturned.grows

/-- STEP: whoever moves, the conversation keeps to it. -/
theorem kept_step (h : k.Kept a) (act : Act) : (k.step act).Kept a := by
  cases act with
  | call c sent => exact kept_call h c sent
  | hear lost => exact kept_hear h lost
  | close =>
    rw [step]
    split_ifs
    · exact h
    · exact h.worker (w := { k.worker with connected := false }) rfl k.mute
  | serve lost => exact kept_serve h lost
  | elsewhere act =>
    rw [step]
    split_ifs with hact
    · exact h
    · exact kept_elsewhere h (by simpa using hact)

theorem kept_start (maxWorkers : ℕ) (authority : AuthorityState) (governor : Governor) (channel : ℕ)
    (config : WorkerConfig) :
    (start maxWorkers authority governor channel config).Kept authority := by
  have hfenced : ((({} : Worker).connect config (.ok ())).2).fenced = false := by
    rw [Worker.connect]
    split_ifs <;> rfl
  refine ⟨⟨rfl, fun s hs => by cases hs⟩, rfl, rfl, rfl, ⟨fun r hr => ?_, trivial⟩,
    fun _ => .listening trivial (fun f hf => by cases hf) rfl, fun h => ?_, fun x hx => ?_, ?_⟩
  · cases hr
  · have hnot := hfenced.symm.trans h
    cases hnot
  · cases hx
  · exact List.Sublist.refl _

/-- RUN: in every interleaving. -/
theorem kept_run (maxWorkers : ℕ) (authority : AuthorityState) (governor : Governor) (channel : ℕ)
    (config : WorkerConfig) (acts : List Act) :
    (Runs.run step (start maxWorkers authority governor channel config) acts).Kept authority := by
  have hmeets : Runs.Meets step (fun _ _ => True)
      (start maxWorkers authority governor channel config) acts :=
    Runs.meets_of_forall_mem fun _ _ => trivial
  exact Runs.run_invariant (I := fun k => k.Kept authority) (fun k act h _ => kept_step h act)
    (kept_start maxWorkers authority governor channel config) hmeets

/-- What a worker may rely on. -/
structure Delivers (a : AuthorityState) (k : Conversation) : Prop where
  /-- The governor is handed the samples of what was said, each once and in that order. -/
  handed : handed k.session.trace <+: k.said.flatMap Frame.samples
  /-- An acknowledgement that a call returned is one of the batch of this call. -/
  acked : ∀ x ∈ k.acks, Acked a k.session.trace x.1 x.2
  ordered : (k.acks.map Prod.fst).Sublist k.said
  /-- A worker that holds itself for fenced has claimed an epoch other than the one in force. -/
  fenced : k.worker.fenced = true → ∃ f ∈ k.said, Stale a f

theorem Kept.delivers (h : k.Kept a) : k.Delivers a where
  handed := by
    rw [h.said, List.flatMap_append]
    exact h.handing.le.trans (List.prefix_append _ _)
  acked := h.acked
  ordered := by
    have hordered := h.ordered
    cases hw : k.waiting with
    | none =>
      rw [hw] at hordered
      exact hordered
    | some f =>
      rw [hw] at hordered
      obtain ⟨earlier, hsaid, hsub⟩ := hordered
      rw [hsaid]
      exact hsub.trans (List.sublist_append_left _ _)
  fenced hfenced := by
    obtain ⟨f, hf, hstale⟩ := h.fenced hfenced
    refine ⟨f, ?_, hstale⟩
    rw [h.said]
    exact List.mem_append_left _ hf

/-- A block of the session's thread. -/
def Act.serves : Act → Bool
  | .serve _ => true
  | _ => false

/-- The worker's receive. -/
def Act.hears : Act → Bool
  | .hear _ => true
  | _ => false

/-- A receive would return: with a reply, or with the end of the connection. -/
def Ready (k : Conversation) : Prop :=
  k.deaf = true ∨ k.down ≠ [] ∨ k.session.phase.closed = true

/-- A call that blocks returns once the session's thread has taken as many blocks as the frames on
    their way ask for, whatever the other threads do meanwhile. -/
def Returns (k : Conversation) : Prop :=
  ∀ f s, k.waiting = some f → k.deployment.sessions[k.channel]? = some s →
    ∀ acts : List Act, (∀ act ∈ acts, act.hears = false) →
      effort s.phase k.up < acts.countP Act.serves →
        ((Runs.run step k acts).hear false).waiting = none

section

variable {a : AuthorityState} {k : Conversation} {f : Frame} {s : Session}

theorem Ready.hear (h : k.Ready) : (k.hear false).waiting = none := by
  unfold Conversation.hear
  split
  case h_1 hwaiting => exact hwaiting
  case h_2 request hwaiting =>
    by_cases hdeaf : (k.deaf || false) = true
    · rw [if_pos hdeaf]
    · rw [if_neg hdeaf]
      split
      case h_1 reply down hdown =>
        obtain ⟨worker, acks, htake, -⟩ :=
          take_cases { k with waiting := none, down, heard := k.heard ++ [reply] } request reply
        rw [htake]
      case h_2 hdown =>
        have hclosed : k.session.phase.closed = true := by
          rcases h with h | h | h
          · rw [h] at hdeaf
            exact absurd rfl hdeaf
          · exact absurd hdown h
          · exact h
        rw [if_pos hclosed]

/-- NO DEADLOCK: a session waits for a frame of a worker that waits for it only behind its reply. -/
theorem ready_of_blocked (h : k.Kept a) (hwaiting : k.waiting = some f)
    (hs : k.deployment.sessions[k.channel]? = some s) (hreads : s.phase.reads = true)
    (hup : k.up = []) : k.Ready := by
  cases hdeaf : k.deaf with
  | true => exact Or.inl hdeaf
  | false =>
    have hturn := h.turn hdeaf
    rw [hwaiting, session_eq hs, hup] at hturn
    obtain ⟨-, ⟨earlier, hlast, -⟩ | ⟨-, -, hanswering⟩⟩ := hturn
    · exact absurd hlast.symm (List.append_ne_nil_of_right_ne_nil _ (List.cons_ne_nil _ _))
    · generalize s.phase = p at *
      cases p with
      | awaitingHello => exact hanswering.elim
      | receiving =>
        obtain ⟨r, hdown, -⟩ := hanswering
        refine Or.inr (Or.inl ?_)
        rw [hdown]
        exact List.cons_ne_nil _ _
      | _ => cases hreads

/-- STEP: the worker blocks on; the session is nearer to its reply, or it has come. -/
theorem blocked_step (h : k.Kept a) (hwaiting : k.waiting = some f)
    (hs : k.deployment.sessions[k.channel]? = some s) {act : Act} (hact : act.hears = false) :
    (k.step act).waiting = some f ∧ (k.Ready → (k.step act).Ready) ∧
      ∃ s', (k.step act).deployment.sessions[(k.step act).channel]? = some s' ∧
        ((k.step act).Ready ∨
          effort s'.phase (k.step act).up + (if act.serves then 1 else 0) ≤ effort s.phase k.up) := by
  have hsame : k.step act = k → act.serves = false → (k.step act).waiting = some f ∧
      (k.Ready → (k.step act).Ready) ∧
      ∃ s', (k.step act).deployment.sessions[(k.step act).channel]? = some s' ∧
        ((k.step act).Ready ∨
          effort s'.phase (k.step act).up + (if act.serves then 1 else 0) ≤ effort s.phase k.up) := by
    intro heq hserves
    rw [heq, hserves]
    exact ⟨hwaiting, id, s, hs, Or.inr (Nat.le_refl _)⟩
  cases act with
  | call c sent =>
    refine hsame ?_ rfl
    rw [step, call, hwaiting]
    rfl
  | hear lost => cases hact
  | close =>
    refine hsame ?_ rfl
    rw [step, hwaiting]
    rfl
  | serve lost =>
    rw [step]
    rcases k.serve_cases lost with ⟨heq, hblocked⟩ | ⟨s₁, answer, up, hs₁, hup, heq⟩
    · obtain ⟨hreads, hup⟩ := hblocked s hs
      have hready : k.Ready := ready_of_blocked h hwaiting hs hreads hup
      rw [heq]
      exact ⟨hwaiting, id, s, hs, Or.inl hready⟩
    · obtain rfl : s = s₁ := Option.some.inj (hs.symm.trans hs₁)
      have hturned := Session.turned_step k.deployment.coordinator k.channel s answer
      have hnext := @session_serve k s answer hs
      have hkeeps : k.Ready → (k.serve lost).Ready := by
        rw [heq]
        rintro (hdeaf | hdown | hclosed)
        · exact Or.inl hdeaf
        · exact Or.inr (Or.inl (List.append_ne_nil_of_left_ne_nil hdown _))
        · refine Or.inr (Or.inr ?_)
          rw [session_eq hs] at hclosed
          rw [session_eq hnext]
          exact hturned.closed hclosed
      rw [heq] at hkeeps ⊢
      refine ⟨hwaiting, hkeeps, _, hnext, ?_⟩
      cases hclosed : s.phase.closed with
      | true => exact Or.inl (hkeeps (Or.inr (Or.inr (by rw [session_eq hs]; exact hclosed))))
      | false =>
        right
        have hless := hturned.effort_lt up hclosed
        rw [← hup] at hless
        exact hless
  | elsewhere act =>
    by_cases hother : act.isOf k.channel = true
    · refine hsame ?_ rfl
      rw [step, if_pos hother]
    · have hfalse : act.isOf k.channel = false := by simpa using hother
      have hsession := session_elsewhere (k := k) hfalse
      rw [step, if_neg hother]
      refine ⟨hwaiting, fun hready => ?_, s, ?_, Or.inr (Nat.le_refl _)⟩
      · rcases hready with hdeaf | hdown | hclosed
        · exact Or.inl hdeaf
        · exact Or.inr (Or.inl hdown)
        · refine Or.inr (Or.inr ?_)
          rw [hsession]
          exact hclosed
      · rcases k.deployment.session_step act hs with ⟨-, hget⟩ | ⟨answer, rfl, -⟩
        · exact hget
        · simp [Act.isOf] at hfalse

/-- RUN: while the worker blocks every block of its session's thread brings the reply nearer. -/
theorem blocked_run (h : k.Kept a) (hwaiting : k.waiting = some f)
    (hs : k.deployment.sessions[k.channel]? = some s) (acts : List Act)
    (hacts : ∀ act ∈ acts, act.hears = false) :
    ∃ s', (Runs.run step k acts).Kept a ∧ (Runs.run step k acts).waiting = some f ∧
      (Runs.run step k acts).deployment.sessions[(Runs.run step k acts).channel]? = some s' ∧
      ((Runs.run step k acts).Ready ∨
        effort s'.phase (Runs.run step k acts).up + acts.countP Act.serves ≤
          effort s.phase k.up) := by
  induction acts using List.reverseRecOn with
  | nil => exact ⟨s, h, hwaiting, hs, Or.inr (Nat.le_refl _)⟩
  | append_singleton acts act ih =>
    obtain ⟨s₁, hkept, hwaits, hs₁, hnear⟩ :=
      ih fun act hact => hacts act (List.mem_append_left _ hact)
    have hquiet : act.hears = false :=
      hacts act (List.mem_append_right _ (List.mem_singleton_self act))
    obtain ⟨hwaits', hready, s₂, hs₂, hnext⟩ := blocked_step hkept hwaits hs₁ hquiet
    rw [Runs.run_concat, List.countP_append, List.countP_singleton]
    refine ⟨s₂, kept_step hkept act, hwaits', hs₂, ?_⟩
    rcases hnear with hnear | hle
    · exact Or.inl (hready hnear)
    · rcases hnext with hnext | hle'
      · exact Or.inl hnext
      · right
        omega

theorem Kept.returns (h : k.Kept a) : k.Returns := by
  intro f s hwaiting hs acts hacts hcount
  obtain ⟨s', -, -, -, hready | hle⟩ := blocked_run h hwaiting hs acts hacts
  · exact hready.hear
  · omega

end

end Conversation

end Mbg
