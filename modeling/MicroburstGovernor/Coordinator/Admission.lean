import MicroburstGovernor.Coordinator.Moves
import MicroburstGovernor.Lib.Log
import MicroburstGovernor.Lib.Runs
import MicroburstGovernor.Persist.Checkpoint

/-! Session admission: what a session hands to the governor, and what it owes its peer for it.

    A session's trace is a log of exchanges, each begun by a frame it reads. The law says of every
    event what the events before it must be; a step appends at most one event, and the place the
    session stands at says what its trace is. -/

namespace Mbg

/-! ### What a peer sends -/

/-- A hello in the protocol version spoken here, under the authority in force. -/
def Greets (a : AuthorityState) (f : Frame) : Prop :=
  f.header.type = MessageType.hello ∧ ∃ hello, (decodeHello (.of f.payload)).1 = .ok hello ∧
    hello.protocol = wireProtocolVersion ∧ hello.epoch = a.epoch ∧ hello.boot = a.boot

/-- An evidence frame that passes the decode and the epoch check, with its batch. -/
def Carries (a : AuthorityState) (f : Frame) (batch : EvidenceBatch) : Prop :=
  f.header.type = MessageType.evidence ∧ (decodeBatch (.of f.payload)).1 = .ok batch ∧
    batch.epoch = a.epoch

/-- A heartbeat that passes the decode and the epoch check. -/
def Beats (a : AuthorityState) (f : Frame) : Prop :=
  f.header.type = MessageType.heartbeat ∧ ∃ heartbeat,
    (decodeHeartbeat (.of f.payload)).1 = .ok heartbeat ∧ heartbeat.epoch = a.epoch

/-- An undecodable, stale or unexpected frame, behind these events: nothing at all, a first frame
    that is no hello under the authority in force, or a later one that is no heartbeat and no
    evidence under it and no goodbye. A frame of a type that is not defined is never received: the
    frame decoder refuses it. -/
def Offends (a : AuthorityState) (before : List SessionEvent) : Option Frame → Prop
  | none => True
  | some f =>
    if before = [] then ¬ Greets a f
    else isValidMessageType f.header.type.raw = true ∧ f.header.type ≠ MessageType.goodbye ∧
      ¬ Beats a f ∧ ∀ batch, ¬ Carries a f batch

namespace SessionEvent

/-- The session read a frame, or found its connection gone. -/
def isReceived : SessionEvent → Bool
  | received _ => true
  | _ => false

end SessionEvent

/-- The samples handed to the governor, in their order, with what became of them. -/
def calls (samples : List Sample) (verdicts : List Bool) : List SessionEvent :=
  List.zipWith .ingested samples verdicts

/-- These events answer this batch: each sample is handed over once and in order, then one
    acknowledgement counts them all. -/
def AnsweredBy (f : Frame) (batch : EvidenceBatch) (events : List SessionEvent) : Prop :=
  ∃ verdicts seq ack ok rest, verdicts.length = batch.samples.length ∧
    events = calls batch.samples verdicts ++ .sent (.evidenceAck seq ack) ok :: rest ∧
    (∀ e ∈ rest, e = .retired) ∧ ack.seq = f.header.seq ∧
    ack.accepted.toNat = verdicts.count true ∧ ack.rejected.toNat = verdicts.count false ∧
    ack.accepted.toNat + ack.rejected.toNat = batch.samples.length

/-- The first frame was a hello under the authority in force, and was answered by an acceptance. -/
def Opened (a : AuthorityState) (t : List SessionEvent) : Prop :=
  ∃ f response rest, t = .received (some f) :: .sent (.helloAck response) true :: rest ∧
    Greets a f ∧ response.status = .accepted

/-- No frame so far offends. -/
def Clean (a : AuthorityState) (t : List SessionEvent) : Prop :=
  Log.Justified (fun before e => ∀ frame, e = .received frame → ¬ Offends a before frame) t

/-- Every batch so far is answered before the next frame is read. -/
def Settled (a : AuthorityState) (t : List SessionEvent) : Prop :=
  Log.Answered SessionEvent.isReceived (fun before e after => ∀ f batch,
    e = .received (some f) → before ≠ [] → Carries a f batch → AnsweredBy f batch after) t

/-- The next sample of the batch of the last frame. -/
def Next (a : AuthorityState) (t : List SessionEvent) (sample : Sample) : Prop :=
  ∃ before f batch verdicts, t = before ++ .received (some f) :: calls batch.samples verdicts ∧
    before ≠ [] ∧ Carries a f batch ∧ batch.samples[verdicts.length]? = some sample

/-- At this place a session is about to read a frame, or ends: it works on no frame. -/
def SessionPhase.idle : SessionPhase → Bool
  | .counting _ | .handling _ | .ingesting _ _ | .crediting _ _ _ | .answering _ => false
  | _ => true

namespace Session

/-- The law of a session under an authority. -/
structure Lawful (a : AuthorityState) (s : Session) : Prop where
  /-- The governor is handed the next sample of an evidence frame that arrived after an accepted
      handshake, and of nothing else. -/
  ingested : ∀ before sample ok after, s.trace = before ++ .ingested sample ok :: after →
    Opened a before ∧ Next a before sample
  /-- After a frame that offends the governor is handed nothing. -/
  silenced : ∀ before frame after, s.trace = before ++ .received frame :: after →
    Offends a before frame → ∀ sample ok, .ingested sample ok ∉ after
  /-- When a frame is read every batch before it is answered. -/
  answered : ∀ before frame after, s.trace = before ++ .received frame :: after → Settled a before
  settled : s.phase.idle = true → Settled a s.trace

/-! ### Where a session stands -/

/-- What an event asks of the events before it. -/
def Permitted (a : AuthorityState) (before : List SessionEvent) : SessionEvent → Prop
  | .received _ => Settled a before
  | .ingested sample _ => Opened a before ∧ Clean a before ∧ Next a before sample
  | _ => True

/-- A session that may read its next frame of the loop. -/
structure Orderly (a : AuthorityState) (t : List SessionEvent) : Prop where
  opened : Opened a t
  clean : Clean a t
  settled : Settled a t

/-- The session has handed over part of a batch: these samples are left, this is the count. -/
def Serving (a : AuthorityState) (t : List SessionEvent) (rest : List Sample) (ack : EvidenceAck) :
    Prop :=
  ∃ before f batch verdicts, t = before ++ .received (some f) :: calls batch.samples verdicts ∧
    Orderly a before ∧ Carries a f batch ∧ verdicts.length ≤ batch.samples.length ∧
    batch.samples.drop verdicts.length = rest ∧ ack.seq = f.header.seq ∧
    ack.accepted.toNat = verdicts.count true ∧ ack.rejected.toNat = verdicts.count false

/-- What the trace is at each place of `run_session`. -/
def Stands (a : AuthorityState) (s : Session) : Prop :=
  match s.phase with
  | .awaitingHello => s.trace = []
  | .handshaking hello => ∃ f, s.trace = [.received (some f)] ∧
      f.header.type = MessageType.hello ∧ (decodeHello (.of f.payload)).1 = .ok hello
  | .acknowledging response => ∃ f, s.trace = [.received (some f)] ∧
      (response.status = .accepted → Greets a f)
  | .looping | .receiving | .noting _ => Orderly a s.trace
  | .counting f | .handling f => ∃ before, s.trace = before ++ [.received (some f)] ∧
      Orderly a before
  | .ingesting rest ack | .crediting _ rest ack => Serving a s.trace rest ack
  | .answering ack => Serving a s.trace [] ack
  | .refusing _ => ∃ before f, s.trace = before ++ [.received (some f)] ∧ Settled a before ∧
      ∀ batch, ¬ Carries a f batch
  | .finishing _ | .retiring _ | .ended _ => Settled a s.trace

end Session

/-! ### Frames and events -/

section

variable {a : AuthorityState} {f : Frame} {before t : List SessionEvent}

theorem Carries.not_offends {batch : EvidenceBatch} (h : Carries a f batch) (hbefore : before ≠ []) :
    ¬ Offends a before (some f) := by
  rw [Offends, if_neg hbefore]
  rintro ⟨-, -, -, hnone⟩
  exact hnone batch h

theorem Beats.not_offends (h : Beats a f) (hbefore : before ≠ []) : ¬ Offends a before (some f) := by
  rw [Offends, if_neg hbefore]
  rintro ⟨-, -, hnone, -⟩
  exact hnone h

theorem Opened.ne_nil (h : Opened a t) : t ≠ [] := by
  obtain ⟨f, response, rest, rfl, -⟩ := h
  exact List.cons_ne_nil _ _

theorem Opened.append (h : Opened a t) (more : List SessionEvent) : Opened a (t ++ more) := by
  obtain ⟨f, response, rest, rfl, hgreets, hstatus⟩ := h
  exact ⟨f, response, rest ++ more, rfl, hgreets, hstatus⟩

theorem not_received_of_mem_calls {samples : List Sample} {verdicts : List Bool} {e : SessionEvent}
    (h : e ∈ calls samples verdicts) : e.isReceived = false := by
  rw [calls, ← List.map_uncurry_zip_eq_zipWith] at h
  obtain ⟨⟨sample, ok⟩, -, rfl⟩ := List.mem_map.mp h
  rfl

/-- Handing over the next sample. -/
theorem calls_concat (ok : Bool) : ∀ {samples : List Sample} {verdicts : List Bool}
    {sample : Sample}, samples[verdicts.length]? = some sample →
      calls samples (verdicts ++ [ok]) = calls samples verdicts ++ [.ingested sample ok]
  | [], verdicts, sample, h => by cases h
  | first :: rest, [], sample, h => by
    have heq : first = sample := by simpa using h
    rw [heq]
    simp [calls]
  | first :: rest, verdict :: verdicts, sample, h => by
    have hrest : rest[verdicts.length]? = some sample := by simpa using h
    rw [List.cons_append, calls, List.zipWith_cons_cons, ← calls, calls_concat ok hrest]
    rfl

open ByteReader in
theorem length_of_decodeBatch {batch : EvidenceBatch} {r : ByteReader}
    (h : (decodeBatch r).1 = .ok batch) : batch.samples.length < 2 ^ 32 := by
  have hcount : Always
      (fun x : Except Failure EvidenceBatch => ∀ b, x = .ok b → b.samples.length < 2 ^ 32)
      decodeBatch := by
    unfold decodeBatch
    refine always_bind fun worker => always_bind fun epoch => always_bind fun count =>
      always_bind fun _ => ?_
    refine always_ite (fun _ => always_failure) fun _ => always_ite (fun _ => always_failure) fun _ => ?_
    have hsamples := @always_decodeMany _ (fun _ => True) decodeSample (fun _ _ _ => trivial)
      count.toNat
    refine always_bind_of hsamples fun result hresult => ?_
    cases result with
    | error e => exact always_pure fun b hb => by cases hb
    | ok samples =>
      refine always_bind fun _ => always_ite (fun _ => always_failure) fun _ => always_pure fun b hb => ?_
      rw [← Except.ok.inj hb]
      have hlength := (hresult samples rfl).1
      have hbound := count.toNat_lt
      dsimp only
      omega
  exact hcount r batch h

/-- Reading a frame that owes nothing yet, or is answered by what follows it. -/
theorem Settled.read {body : List SessionEvent} (h : Settled a t) (frame : Option Frame)
    (hbody : ∀ e ∈ body, e.isReceived = false)
    (hanswer : ∀ f batch, frame = some f → t ≠ [] → Carries a f batch → AnsweredBy f batch body) :
    Settled a (t ++ .received frame :: body) := by
  refine Log.Answered.exchange h rfl hbody fun f batch hevent hbefore hcarries => ?_
  exact hanswer f batch (SessionEvent.received.inj hevent) hbefore hcarries

/-- An exchange of the loop that does not offend leaves the session orderly. -/
theorem Session.Orderly.read {body : List SessionEvent} (h : Session.Orderly a t)
    (hclean : ¬ Offends a t (some f)) (hbody : ∀ e ∈ body, e.isReceived = false)
    (hanswer : ∀ batch, Carries a f batch → AnsweredBy f batch body) :
    Session.Orderly a (t ++ .received (some f) :: body) where
  opened := h.opened.append _
  clean := by
    rw [← List.singleton_append, ← List.append_assoc]
    refine Log.Justified.append (Log.justified_concat.mpr ⟨h.clean, fun frame heq => ?_⟩) ?_
    · rw [← SessionEvent.received.inj heq]
      exact hclean
    · intro e he pre frame heq
      have hnone := hbody e he
      rw [heq] at hnone
      cases hnone
  settled := h.settled.read (some f) hbody fun f' batch heq _ hcarries => by
    rw [← Option.some.inj heq] at hcarries ⊢
    exact hanswer batch hcarries

end

/-- An accepted claim is one under the protocol version, the epoch and the boot in force. -/
theorem of_validateClaim_accepted {current claim : AuthorityState} {claimed expected : UInt16}
    (h : validateClaim current claim claimed expected = .accepted) :
    claimed = expected ∧ claim.epoch = current.epoch ∧ claim.boot = current.boot := by
  unfold validateClaim at h
  split_ifs at h with hvalid hversion hepoch hstale hboot
  exact ⟨not_not.mp hversion, not_not.mp hstale, not_not.mp hboot⟩

namespace Session

/-- A session that keeps the law and stands where its trace puts it. -/
structure Kept (a : AuthorityState) (s : Session) : Prop where
  permitted : Log.Justified (Permitted a) s.trace
  stands : s.Stands a

/-! ### Steps -/

section

variable {c : Coordinator} {s : Session}

theorem Kept.goto (h : s.Kept c.authority) {phase : SessionPhase}
    (hstands : (s.goto phase).Stands c.authority) : (s.goto phase).Kept c.authority :=
  ⟨h.permitted, hstands⟩

/-- An event that the law permits is recorded, and the session moves on. -/
theorem Kept.record (h : s.Kept c.authority) {event : SessionEvent} {phase : SessionPhase}
    (hevent : Permitted c.authority s.trace event)
    (hstands : ((s.record event).goto phase).Stands c.authority) :
    ((s.record event).goto phase).Kept c.authority :=
  ⟨Log.justified_concat.mpr ⟨h.permitted, hevent⟩, hstands⟩

theorem settled_nil {a : AuthorityState} : Settled a [] := Log.answered_nil

theorem kept_receiveHello (h : s.Kept c.authority) (hphase : s.phase = .awaitingHello)
    (frame : Option Frame) : (receiveHello c s frame).2.Kept c.authority := by
  have htrace : s.trace = [] := by
    have hstands := h.stands
    rwa [Stands, hphase] at hstands
  have hpermitted : Permitted c.authority s.trace (.received frame) := by
    rw [htrace]
    exact settled_nil
  have hrefused : ((s.record (.received frame)).goto (.finishing false)).Kept c.authority := by
    refine h.record hpermitted ?_
    change Settled c.authority (s.trace ++ [.received frame])
    rw [htrace]
    exact settled_nil.read frame (by simp) fun f batch _ hnil => absurd rfl hnil
  unfold receiveHello
  cases frame with
  | none => exact hrefused
  | some f =>
    dsimp only
    split_ifs with htype
    · exact hrefused
    · cases hdecode : (decodeHello (.of f.payload)).1 with
      | error e => exact hrefused
      | ok hello =>
        refine h.record hpermitted ⟨f, ?_, not_not.mp htype, hdecode⟩
        rw [Session.goto, Session.record, htrace]
        rfl

theorem kept_handshake (h : s.Kept c.authority) {hello : HelloRequest}
    (hphase : s.phase = .handshaking hello) : (handshake c s hello).2.Kept c.authority := by
  obtain ⟨f, htrace, htype, hdecode⟩ : ∃ f, s.trace = [.received (some f)] ∧
      f.header.type = MessageType.hello ∧ (decodeHello (.of f.payload)).1 = .ok hello := by
    have hstands := h.stands
    rwa [Stands, hphase] at hstands
  have hrefused : ∀ response : HelloResponse, response.status ≠ .accepted →
      (s.goto (.acknowledging response)).Kept c.authority := fun response hstatus =>
    h.goto ⟨f, htrace, fun haccepted => absurd haccepted hstatus⟩
  rw [handshake]
  dsimp only
  split
  case h_4 hverdict =>
    split_ifs with hfull
    · exact hrefused _ (by simp)
    · obtain ⟨hprotocol, hepoch, hboot⟩ := of_validateClaim_accepted hverdict
      exact ⟨h.permitted, f, htrace, fun _ => ⟨htype, hello, hdecode, hprotocol, hepoch, hboot⟩⟩
  all_goals exact hrefused _ (by simp)

theorem kept_acknowledge (h : s.Kept c.authority) {response : HelloResponse}
    (hphase : s.phase = .acknowledging response) (ok : Bool) :
    (s.acknowledge response ok).Kept c.authority := by
  obtain ⟨f, htrace, hgreets⟩ : ∃ f, s.trace = [.received (some f)] ∧
      (response.status = .accepted → Greets c.authority f) := by
    have hstands := h.stands
    rwa [Stands, hphase] at hstands
  have hsettled : Settled c.authority (s.trace ++ [.sent (.helloAck response) ok]) := by
    rw [htrace]
    refine settled_nil.read (some f) (fun e he => ?_) fun f batch _ hnil => absurd rfl hnil
    rw [List.mem_singleton.mp he]
    rfl
  unfold acknowledge
  dsimp only
  split_ifs with hsent hstatus
  · exact h.record trivial hsettled
  · exact h.record trivial hsettled
  · have haccepted := hgreets (not_not.mp hstatus)
    have hok : ok = true := by simpa using hsent
    refine ⟨Log.justified_concat.mpr ⟨h.permitted, trivial⟩, ?_, ?_, hsettled⟩
    · rw [record, htrace, hok]
      exact ⟨f, response, [], rfl, haccepted, not_not.mp hstatus⟩
    · rw [record, htrace, Clean, List.singleton_append, ← List.singleton_append,
        ← List.nil_append [SessionEvent.received (some f)], Log.justified_concat,
        Log.justified_concat]
      refine ⟨⟨Log.justified_nil, fun frame heq => ?_⟩, fun frame heq => by cases heq⟩
      rw [← SessionEvent.received.inj heq, Offends, if_pos rfl]
      exact not_not.mpr haccepted

theorem kept_receiveFrame (h : s.Kept c.authority) (hphase : s.phase = .receiving)
    (frame : Option Frame) : (receiveFrame c s frame).2.Kept c.authority := by
  have horderly : Orderly c.authority s.trace := by
    have hstands := h.stands
    rwa [Stands, hphase] at hstands
  unfold receiveFrame
  cases frame with
  | none =>
    refine h.record horderly.settled ?_
    exact horderly.settled.read none (by simp) fun f batch heq => by cases heq
  | some f =>
    exact ⟨Log.justified_concat.mpr ⟨h.permitted, horderly.settled⟩, s.trace, rfl, horderly⟩

theorem kept_handleFrame (h : s.Kept c.authority) {f : Frame} (hphase : s.phase = .handling f) :
    (handleFrame c s f).2.Kept c.authority := by
  obtain ⟨before, htrace, horderly⟩ : ∃ before, s.trace = before ++ [.received (some f)] ∧
      Orderly c.authority before := by
    have hstands := h.stands
    rwa [Stands, hphase] at hstands
  have hopen := horderly.opened.ne_nil
  have hrefused : ∀ reply, (∀ batch, ¬ Carries c.authority f batch) →
      (s.goto (.refusing reply)).Kept c.authority := fun reply hnone =>
    h.goto ⟨before, f, htrace, horderly.settled, hnone⟩
  have hpassed : ¬ Offends c.authority before (some f) → (∀ batch, ¬ Carries c.authority f batch) →
      Orderly c.authority s.trace := fun hclean hnone => by
    rw [htrace]
    exact horderly.read hclean (by simp) fun batch hcarries => absurd hcarries (hnone batch)
  unfold handleFrame
  split_ifs with hheartbeat hevidence hgoodbye hvalid
  · have hnone : ∀ batch, ¬ Carries c.authority f batch := by
      rintro batch ⟨htype, -⟩
      exact absurd (hheartbeat.symm.trans htype) (by decide)
    cases hdecode : (decodeHeartbeat (.of f.payload)).1 with
    | error e => exact hrefused _ hnone
    | ok heartbeat =>
      dsimp only
      split_ifs with hstale
      · exact hrefused _ hnone
      · have hbeats : Beats c.authority f := ⟨hheartbeat, heartbeat, hdecode, not_not.mp hstale⟩
        exact h.goto (hpassed (hbeats.not_offends hopen) hnone)
  · cases hdecode : (decodeBatch (.of f.payload)).1 with
    | error e =>
      refine hrefused _ ?_
      rintro batch ⟨-, hok, -⟩
      rw [hdecode] at hok
      cases hok
    | ok batch =>
      dsimp only
      split_ifs with hstale
      · refine hrefused _ ?_
        rintro batch' ⟨-, hok, hepoch⟩
        rw [hdecode] at hok
        rw [← Except.ok.inj hok] at hepoch
        exact hstale hepoch
      · have hcarries : Carries c.authority f batch := ⟨hevidence, hdecode, not_not.mp hstale⟩
        refine h.goto ⟨before, f, batch, [], ?_, horderly, hcarries, by simp, by simp, rfl, rfl, rfl⟩
        rw [calls, List.zipWith_nil_right]
        exact htrace
  all_goals
    have hnone : ∀ batch, ¬ Carries c.authority f batch := by
      rintro batch ⟨htype, -⟩
      exact hevidence htype
  · refine h.goto ?_
    change Settled c.authority s.trace
    rw [htrace]
    exact horderly.settled.read (some f) (by simp) fun f' batch heq _ hcarries => by
      rw [← Option.some.inj heq] at hcarries
      exact absurd hcarries (hnone batch)
  · exact hrefused _ hnone
  · refine h.goto (hpassed ?_ hnone)
    rw [Offends, if_neg hopen]
    rintro ⟨hdefined, -⟩
    exact hvalid hdefined

theorem Serving.next_sample {a : AuthorityState} {t : List SessionEvent} {sample : Sample}
    {rest : List Sample} {ack : EvidenceAck} (h : Serving a t (sample :: rest) ack) :
    Opened a t ∧ Clean a t ∧ Next a t sample := by
  obtain ⟨before, f, batch, verdicts, rfl, horderly, hcarries, -, hdrop, -⟩ := h
  have hopen := horderly.opened.ne_nil
  have hnext : batch.samples[verdicts.length]? = some sample := by
    rw [← List.head?_drop, hdrop]
    rfl
  refine ⟨horderly.opened.append _, ?_, before, f, batch, verdicts, rfl, hopen, hcarries, hnext⟩
  rw [← List.singleton_append, ← List.append_assoc]
  refine Log.Justified.append (Log.justified_concat.mpr ⟨horderly.clean, fun frame heq => ?_⟩) ?_
  · rw [← SessionEvent.received.inj heq]
    exact hcarries.not_offends hopen
  · intro e he pre frame heq
    have hnone := not_received_of_mem_calls he
    rw [heq] at hnone
    cases hnone

theorem toNat_succ_of_lt {x : UInt32} (h : x.toNat + 1 < 2 ^ 32) : (x + 1).toNat = x.toNat + 1 := by
  rw [UInt32.toNat_add]
  exact Nat.mod_eq_of_lt h

/-- STEP: a sample is handed over and counted; the counters have room for a whole batch. -/
theorem Serving.ingested {a : AuthorityState} {t : List SessionEvent} {sample : Sample}
    {rest : List Sample} {ack ack' : EvidenceAck} (h : Serving a t (sample :: rest) ack) (ok : Bool)
    (hseq : ack'.seq = ack.seq)
    (haccepted : ack'.accepted = if ok then ack.accepted + 1 else ack.accepted)
    (hrejected : ack'.rejected = if ok then ack.rejected else ack.rejected + 1) :
    Serving a (t ++ [.ingested sample ok]) rest ack' := by
  obtain ⟨before, f, batch, verdicts, rfl, horderly, hcarries, hle, hdrop, hackseq, hcount, hcount'⟩ := h
  have hnext : batch.samples[verdicts.length]? = some sample := by
    rw [← List.head?_drop, hdrop]
    rfl
  have hlt : verdicts.length < batch.samples.length := (List.getElem?_eq_some_iff.mp hnext).1
  have hbound := length_of_decodeBatch hcarries.2.1
  have htrue := List.count_le_length (a := true) (l := verdicts)
  have hfalse := List.count_le_length (a := false) (l := verdicts)
  refine ⟨before, f, batch, verdicts ++ [ok], ?_, horderly, hcarries, ?_, ?_, ?_, ?_, ?_⟩
  · rw [calls_concat ok hnext, List.append_assoc, List.cons_append]
  · rw [List.length_append, List.length_singleton]
    omega
  · rw [List.length_append, List.length_singleton, ← List.tail_drop, hdrop]
    rfl
  · rw [hseq, hackseq]
  · rw [haccepted, List.count_append]
    cases ok with
    | false => simpa using hcount
    | true =>
      rw [if_pos rfl, toNat_succ_of_lt (by omega), hcount]
      simp
  · rw [hrejected, List.count_append]
    cases ok with
    | true => simpa using hcount'
    | false =>
      rw [if_neg Bool.false_ne_true, toNat_succ_of_lt (by omega), hcount']
      simp

theorem kept_ingestSample (h : s.Kept c.authority) {sample : Sample} {rest : List Sample}
    {ack : EvidenceAck} (hphase : s.phase = .ingesting (sample :: rest) ack) :
    (ingestSample c s sample rest ack).2.Kept c.authority := by
  have hserving : Serving c.authority s.trace (sample :: rest) ack := by
    have hstands := h.stands
    rwa [Stands, hphase] at hstands
  have hnext := hserving.next_sample
  unfold ingestSample
  generalize c.governor.ingest sample = result
  obtain ⟨outcome, governor⟩ := result
  dsimp only
  split
  · refine h.record hnext ?_
    split_ifs
    · exact hserving.ingested true rfl rfl rfl
    · exact hserving.ingested true rfl rfl rfl
  · exact h.record hnext (hserving.ingested false rfl rfl rfl)

/-- The batch is handed over and the acknowledgement sent. -/
theorem Serving.answered {a : AuthorityState} {t : List SessionEvent} {ack : EvidenceAck}
    (h : Serving a t [] ack) (seq : FrameSeq) (ok : Bool) :
    Orderly a (t ++ [.sent (.evidenceAck seq ack) ok]) := by
  obtain ⟨before, f, batch, verdicts, rfl, horderly, hcarries, hle, hdrop, hseq, hcount, hcount'⟩ := h
  have hlength : verdicts.length = batch.samples.length := by
    have := List.drop_eq_nil_iff.mp hdrop
    omega
  rw [List.append_assoc, List.cons_append]
  refine horderly.read (hcarries.not_offends horderly.opened.ne_nil) (fun e he => ?_) ?_
  · rcases List.mem_append.mp he with he | he
    · exact not_received_of_mem_calls he
    · rw [List.mem_singleton.mp he]
      rfl
  · intro batch' hcarries'
    obtain rfl : batch = batch' := Except.ok.inj (hcarries.2.1.symm.trans hcarries'.2.1)
    refine ⟨verdicts, seq, ack, ok, [], hlength, rfl, by simp, hseq, hcount, hcount', ?_⟩
    rw [hcount, hcount', ← hlength]
    have hall := List.length_eq_countP_add_countP (l := verdicts) (fun b => b == true)
    have hnot : verdicts.countP (fun b => decide ¬ (b == true) = true) = verdicts.count false := by
      rw [List.count]
      exact List.countP_congr fun b _ => by cases b <;> simp
    rw [hnot] at hall
    exact hall.symm

/-- STEP: every block of `run_session` keeps the law, whatever the network answers. -/
theorem kept_step (h : s.Kept c.authority) (id : ℕ) (answer : Answer) :
    (s.step c id answer).2.Kept c.authority := by
  have hstands := h.stands
  unfold step
  split
  case h_1 hphase => exact kept_receiveHello h hphase answer.frame
  case h_2 hello hphase => exact kept_handshake h hphase
  case h_3 response hphase => exact kept_acknowledge h hphase answer.sent
  case h_4 hphase =>
    rw [Stands, hphase] at hstands
    refine h.goto ?_
    split_ifs
    · exact hstands
    · exact hstands.settled
  case h_5 hphase => exact kept_receiveFrame h hphase answer.frame
  case h_6 f hphase =>
    rw [Stands, hphase] at hstands
    exact h.goto hstands
  case h_7 f hphase => exact kept_handleFrame h hphase
  case h_8 tick hphase =>
    rw [Stands, hphase] at hstands
    exact h.goto hstands
  case h_9 ack hphase =>
    rw [Stands, hphase] at hstands
    exact h.goto hstands
  case h_10 sample rest ack hphase => exact kept_ingestSample h hphase
  case h_11 tick rest ack hphase =>
    rw [Stands, hphase] at hstands
    exact h.goto hstands
  case h_12 ack hphase =>
    rw [Stands, hphase] at hstands
    have horderly := hstands.answered s.sequence answer.sent
    refine h.record trivial ?_
    split_ifs
    · exact horderly
    · exact horderly.settled
  case h_13 reply hphase =>
    rw [Stands, hphase] at hstands
    obtain ⟨before, f, htrace, hsettled, hnone⟩ := hstands
    refine h.record trivial ?_
    change Settled c.authority (s.trace ++ [.sent reply answer.sent])
    rw [htrace, List.append_assoc, List.singleton_append]
    refine hsettled.read (some f) (fun e he => ?_) fun f' batch heq _ hcarries => ?_
    · rw [List.mem_singleton.mp he]
      rfl
    · rw [← Option.some.inj heq] at hcarries
      exact absurd hcarries (hnone batch)
  case h_14 graceful hphase =>
    rw [Stands, hphase] at hstands
    exact h.goto hstands
  case h_15 graceful hphase =>
    rw [Stands, hphase] at hstands
    refine h.record trivial (Log.Answered.concat hstands rfl ?_)
    intro pre e post _ hanswer f batch heq hbefore hcarries
    obtain ⟨verdicts, seq, ack, ok, rest, hlength, rfl, hrest, hcounts⟩ :=
      hanswer f batch heq hbefore hcarries
    refine ⟨verdicts, seq, ack, ok, rest ++ [.retired], hlength, ?_, fun e he => ?_, hcounts⟩
    · rw [List.append_assoc, List.cons_append]
    · rcases List.mem_append.mp he with he | he
      · exact hrest e he
      · exact List.mem_singleton.mp he
  case h_16 graceful hphase => exact h

end

/-! ### What the law says -/

theorem Kept.settled {a : AuthorityState} {s : Session} (h : s.Kept a) (hidle : s.phase.idle = true) :
    Settled a s.trace := by
  have hstands := h.stands
  have hread : ∀ f, s.trace = [.received (some f)] → Settled a s.trace := fun f htrace => by
    rw [htrace]
    exact settled_nil.read (some f) (by simp) fun f batch _ hnil => absurd rfl hnil
  unfold Stands at hstands
  split at hstands
  case h_1 =>
    rw [hstands]
    exact settled_nil
  case h_2 =>
    obtain ⟨f, htrace, -⟩ := hstands
    exact hread f htrace
  case h_3 =>
    obtain ⟨f, htrace, -⟩ := hstands
    exact hread f htrace
  case h_4 => exact hstands.settled
  case h_5 => exact hstands.settled
  case h_6 => exact hstands.settled
  case h_12 =>
    obtain ⟨before, f, htrace, hsettled, hnone⟩ := hstands
    rw [htrace]
    exact hsettled.read (some f) (by simp) fun f' batch heq _ hcarries => by
      rw [← Option.some.inj heq] at hcarries
      exact absurd hcarries (hnone batch)
  case h_13 => exact hstands
  case h_14 => exact hstands
  case h_15 => exact hstands
  all_goals
    rename_i hphase
    rw [hphase] at hidle
    cases hidle

theorem Kept.lawful {a : AuthorityState} {s : Session} (h : s.Kept a) : s.Lawful a where
  ingested before sample ok after htrace := by
    obtain ⟨hopened, -, hnext⟩ := h.permitted before (.ingested sample ok) after htrace
    exact ⟨hopened, hnext⟩
  silenced before frame after htrace hoffends sample ok hmem := by
    obtain ⟨mid, last, rfl⟩ := List.append_of_mem hmem
    have hclean : Clean a (before ++ .received frame :: mid) := by
      refine (h.permitted _ (.ingested sample ok) last ?_).2.1
      rw [htrace, List.append_assoc, List.cons_append]
    exact hclean before (.received frame) mid rfl frame rfl hoffends
  answered before frame after htrace := h.permitted before (.received frame) after htrace
  settled := h.settled

/-! ### What a step emits -/

/-- A step records at most one event, and it runs the governor only on a sample it records. -/
inductive Emits (c : Coordinator) (s : Session) (c' : Coordinator) (s' : Session) : Prop where
  | silent (hgovernor : c'.governor = c.governor) (htrace : s'.trace = s.trace)
  | event (e : SessionEvent) (hgovernor : c'.governor = c.governor)
      (htrace : s'.trace = s.trace ++ [e])
  | call (sample : Sample) (ok : Bool)
      (hgovernor : c'.governor = (c.governor.ingest sample).2)
      (hok : ok = true ↔ (c.governor.ingest sample).1.status = .ok ())
      (htrace : s'.trace = s.trace ++ [.ingested sample ok])

section

variable {c : Coordinator} {s : Session}

theorem governor_touch (c : Coordinator) (worker : WorkerId) (change : WorkerRecord → WorkerRecord) :
    (c.touch worker change).governor = c.governor := by
  obtain ⟨workers, heq⟩ := c.touch_eq worker change
  rw [heq]

theorem emits_receiveHello (frame : Option Frame) :
    Emits c s (receiveHello c s frame).1 (receiveHello c s frame).2 := by
  unfold receiveHello
  cases frame with
  | none => exact .event (.received none) rfl rfl
  | some f =>
    dsimp only
    split_ifs
    · exact .event (.received (some f)) rfl rfl
    · cases (decodeHello (.of f.payload)).1 with
      | error e => exact .event (.received (some f)) rfl rfl
      | ok hello => exact .event (.received (some f)) rfl rfl

theorem emits_handshake (hello : HelloRequest) :
    Emits c s (handshake c s hello).1 (handshake c s hello).2 := by
  rw [handshake]
  dsimp only
  split
  case h_4 => split_ifs <;> exact .silent rfl rfl
  all_goals exact .silent rfl rfl

theorem emits_acknowledge (response : HelloResponse) (ok : Bool) :
    Emits c s c (s.acknowledge response ok) := by
  unfold acknowledge
  dsimp only
  split_ifs <;> exact .event (.sent (.helloAck response) ok) rfl rfl

theorem emits_handleFrame (f : Frame) :
    Emits c s (handleFrame c s f).1 (handleFrame c s f).2 := by
  unfold handleFrame
  split_ifs
  · cases (decodeHeartbeat (.of f.payload)).1 with
    | error e => exact .silent rfl rfl
    | ok heartbeat =>
      dsimp only
      split_ifs <;> exact .silent rfl rfl
  · cases (decodeBatch (.of f.payload)).1 with
    | error e => exact .silent rfl rfl
    | ok batch =>
      dsimp only
      split_ifs <;> exact .silent rfl rfl
  · exact .silent rfl rfl
  · exact .silent rfl rfl
  · exact .silent rfl rfl

theorem emits_ingestSample (sample : Sample) (rest : List Sample) (ack : EvidenceAck) :
    Emits c s (ingestSample c s sample rest ack).1 (ingestSample c s sample rest ack).2 := by
  unfold ingestSample
  cases hresult : c.governor.ingest sample with
  | mk outcome governor =>
    have hgovernor : governor = (c.governor.ingest sample).2 := by rw [hresult]
    have houtcome : outcome = (c.governor.ingest sample).1 := by rw [hresult]
    dsimp only
    split
    case h_1 hstatus =>
      refine .call sample true hgovernor ?_ rfl
      rw [← houtcome, hstatus]
      simp
    case h_2 e hstatus =>
      refine .call sample false hgovernor ?_ rfl
      rw [← houtcome, hstatus]
      simp

theorem emits_step (c : Coordinator) (id : ℕ) (s : Session) (answer : Answer) :
    Emits c s (s.step c id answer).1 (s.step c id answer).2 := by
  unfold step
  split
  · exact emits_receiveHello answer.frame
  · exact emits_handshake _
  · exact emits_acknowledge _ answer.sent
  · exact .silent rfl rfl
  · unfold receiveFrame
    cases answer.frame with
    | none => exact .event (.received none) rfl rfl
    | some f => exact .event (.received (some f)) rfl rfl
  · exact .silent (governor_touch _ _ _) rfl
  · exact emits_handleFrame _
  · exact .silent (governor_touch _ _ _) rfl
  · exact .silent rfl rfl
  · exact emits_ingestSample _ _ _
  · exact .silent (governor_touch _ _ _) rfl
  · exact .event _ rfl rfl
  · exact .event _ rfl rfl
  · obtain ⟨workers, counters, heq, -⟩ := c.finishSession_eq s.worker s.registered _
    refine .silent ?_ rfl
    rw [heq]
  · exact .event .retired rfl rfl
  · exact .silent rfl rfl

end

end Session

/-! ### How far a session is from its next frame -/

/-- The samples of a frame, if it is evidence that decodes. -/
def batchOf (f : Frame) : List Sample :=
  match (decodeBatch (.of f.payload)).1 with
  | .ok batch => batch.samples
  | .error _ => []

theorem batchOf_eq {f : Frame} {batch : EvidenceBatch}
    (h : (decodeBatch (.of f.payload)).1 = .ok batch) : batchOf f = batch.samples := by
  unfold batchOf
  rw [h]

/-- How many blocks a session that works on a frame has before it at most. -/
def SessionPhase.pending : SessionPhase → ℕ
  | .counting f => 2 * (batchOf f).length + 4
  | .handling f => 2 * (batchOf f).length + 3
  | .ingesting rest _ => 2 * rest.length + 2
  | .crediting _ rest _ => 2 * rest.length + 3
  | .answering _ => 1
  | _ => 0

namespace Session

section

variable {c : Coordinator} {s : Session}

theorem idle_receiveHello (frame : Option Frame) : (receiveHello c s frame).2.phase.idle = true := by
  unfold receiveHello
  cases frame with
  | none => rfl
  | some f =>
    dsimp only
    split_ifs
    · rfl
    · cases (decodeHello (.of f.payload)).1 <;> rfl

theorem idle_handshake (hello : HelloRequest) : (handshake c s hello).2.phase.idle = true := by
  rw [handshake]
  dsimp only
  split
  case h_4 => split_ifs <;> rfl
  all_goals rfl

theorem idle_acknowledge (response : HelloResponse) (ok : Bool) :
    (s.acknowledge response ok).phase.idle = true := by
  unfold acknowledge
  dsimp only
  split_ifs <;> rfl

/-- A frame is passed over or refused, or its samples are handed over. -/
theorem phase_handleFrame (f : Frame) : (handleFrame c s f).2.phase.idle = true ∨
    ∃ ack, (handleFrame c s f).2.phase = .ingesting (batchOf f) ack := by
  unfold handleFrame
  split_ifs
  · left
    cases (decodeHeartbeat (.of f.payload)).1 with
    | error e => rfl
    | ok heartbeat =>
      dsimp only
      split_ifs <;> rfl
  · cases hdecode : (decodeBatch (.of f.payload)).1 with
    | error e => exact Or.inl rfl
    | ok batch =>
      have hbatch := batchOf_eq hdecode
      dsimp only
      split_ifs
      · exact Or.inl rfl
      · rw [hbatch]
        exact Or.inr ⟨_, rfl⟩
  · exact Or.inl rfl
  · exact Or.inl rfl
  · exact Or.inl rfl

theorem pending_ingestSample (sample : Sample) (rest : List Sample) (ack : EvidenceAck) :
    (ingestSample c s sample rest ack).2.phase.pending ≤ 2 * rest.length + 3 := by
  unfold ingestSample
  generalize c.governor.ingest sample = result
  obtain ⟨outcome, governor⟩ := result
  dsimp only
  split
  · split_ifs
    · exact Nat.le_refl _
    · exact Nat.le_succ _
  · exact Nat.le_succ _

/-- PROGRESS: a step leaves the session idle, reads a frame, or brings the session closer to the end
    of its work. -/
theorem pending_step (c : Coordinator) (id : ℕ) (s : Session) (answer : Answer) :
    (s.step c id answer).2.phase.idle = true ∨
      (∃ f, (s.step c id answer).2.trace = s.trace ++ [.received f]) ∨
      s.phase.idle = false ∧ (s.step c id answer).2.phase.pending < s.phase.pending := by
  unfold step
  split
  case h_1 hphase => exact Or.inl (idle_receiveHello answer.frame)
  case h_2 hello hphase => exact Or.inl (idle_handshake hello)
  case h_3 response hphase => exact Or.inl (idle_acknowledge response answer.sent)
  case h_4 hphase =>
    left
    change SessionPhase.idle (if c.running = true then _ else _) = true
    split_ifs <;> rfl
  case h_5 hphase =>
    unfold receiveFrame
    cases answer.frame with
    | none => exact Or.inl rfl
    | some f => exact Or.inr (Or.inl ⟨some f, rfl⟩)
  case h_6 f hphase =>
    rw [hphase]
    refine Or.inr (Or.inr ⟨rfl, ?_⟩)
    simp only [goto, SessionPhase.pending]
    omega
  case h_7 f hphase =>
    rcases phase_handleFrame (c := c) (s := s) f with hidle | ⟨ack, hnext⟩
    · exact Or.inl hidle
    · rw [hphase, hnext]
      refine Or.inr (Or.inr ⟨rfl, ?_⟩)
      simp only [SessionPhase.pending]
      omega
  case h_8 tick hphase => exact Or.inl rfl
  case h_9 ack hphase =>
    rw [hphase]
    refine Or.inr (Or.inr ⟨rfl, ?_⟩)
    simp only [goto, SessionPhase.pending]
    omega
  case h_10 sample rest ack hphase =>
    have hless := pending_ingestSample (c := c) (s := s) sample rest ack
    rw [hphase]
    refine Or.inr (Or.inr ⟨rfl, ?_⟩)
    simp only [SessionPhase.pending, List.length_cons] at hless ⊢
    omega
  case h_11 tick rest ack hphase =>
    rw [hphase]
    refine Or.inr (Or.inr ⟨rfl, ?_⟩)
    simp only [goto, SessionPhase.pending]
    omega
  case h_12 ack hphase =>
    left
    change SessionPhase.idle (if answer.sent = true then _ else _) = true
    split_ifs <;> rfl
  case h_13 reply hphase => exact Or.inl rfl
  case h_14 graceful hphase => exact Or.inl rfl
  case h_15 graceful hphase => exact Or.inl rfl
  case h_16 graceful hphase =>
    rw [hphase]
    exact Or.inl rfl

end

end Session

/-! ### The sessions of a deployment -/

namespace Session

/-- No step changes the authority. -/
theorem Move.authority {c c' : Coordinator} {id : ℕ} {s s' : Session} (h : Move c id s c' s') :
    c'.authority = c.authority := by
  cases h with
  | quiet hc _ => exact hc.authority
  | admitted => rfl
  | @finished graceful =>
    obtain ⟨workers, counters, heq, -⟩ := c.finishSession_eq s.worker s.registered graceful
    rw [heq]
    rfl
  | retired => rfl

end Session

/-- The step is one of this session's thread. -/
def Act.isOf (id : ℕ) : Act → Bool
  | .session i _ => i == id
  | _ => false

namespace Deployment

/-- The law of session admission, in a state of the deployment and from it on. -/
structure AdmissionLaw (a : AuthorityState) (d : Deployment) : Prop where
  authority : d.coordinator.authority = a
  lawful : ∀ s ∈ d.sessions, s.Lawful a
  /-- The governor is run only by a session, on a sample that its trace records. -/
  calls : ∀ act, (d.step act).coordinator.governor = d.coordinator.governor ∨
    ∃ id answer s s' sample ok, act = .session id answer ∧ d.sessions[id]? = some s ∧
      (d.step act).sessions[id]? = some s' ∧ s'.trace = s.trace ++ [.ingested sample ok] ∧
      s'.Lawful a ∧
      (d.step act).coordinator.governor = (d.coordinator.governor.ingest sample).2 ∧
      (ok = true ↔ (d.coordinator.governor.ingest sample).1.status = .ok ())
  /-- A batch that is not answered yet is, after enough steps of its session's thread, whatever the
      other threads do. -/
  answers : ∀ id s before f batch after, d.sessions[id]? = some s →
    s.trace = before ++ .received (some f) :: after → before ≠ [] → Carries a f batch →
    ∃ n, ∀ acts : List Act, n ≤ acts.countP (Act.isOf id) →
      ∃ s' after', (Runs.run step d acts).sessions[id]? = some s' ∧
        s'.trace = before ++ .received (some f) :: after' ∧
        AnsweredBy f batch (after'.takeWhile fun e => !e.isReceived)

/-- The authority in force is the one started under, and every session keeps the law. -/
structure Admits (a : AuthorityState) (d : Deployment) : Prop where
  authority : d.coordinator.authority = a
  kept : ∀ s ∈ d.sessions, s.Kept a

/-- What a step makes of a session: its own thread takes its next block, any other leaves it. -/
theorem session_step (d : Deployment) (act : Act) {id : ℕ} {s : Session}
    (hs : d.sessions[id]? = some s) :
    (act.isOf id = false ∧ (d.step act).sessions[id]? = some s) ∨
      ∃ answer, act = .session id answer ∧
        (d.step act).sessions[id]? = some (s.step d.coordinator id answer).2 ∧
        (d.step act).coordinator = (s.step d.coordinator id answer).1 := by
  obtain ⟨hid, hget⟩ := List.getElem?_eq_some_iff.mp hs
  cases act with
  | session i answer =>
    by_cases hi : i = id
    · subst hi
      refine Or.inr ⟨answer, rfl, ?_⟩
      rw [step, stepSession, hs]
      exact ⟨List.getElem?_set_self hid, rfl⟩
    · refine Or.inl ⟨by simpa [Act.isOf] using hi, ?_⟩
      rw [step, stepSession]
      cases d.sessions[i]? with
      | none => exact hs
      | some t =>
        dsimp only
        rw [List.getElem?_set_ne hi, hs]
  | accept connection =>
    refine Or.inl ⟨rfl, ?_⟩
    rw [step]
    unfold stepAccept
    dsimp only
    split
    · exact hs
    · exact hs
    · split_ifs <;> exact hs
    · split_ifs <;> exact hs
    · dsimp only
      rw [List.getElem?_append_left hid, hs]
    · exact hs
  | stop =>
    refine Or.inl ⟨rfl, ?_⟩
    rw [step]
    unfold stepStop
    dsimp only
    split
    · exact hs
    · split_ifs <;> exact hs
    · split_ifs <;> exact hs
    · exact hs

/-- STEP: the law is kept by every thread. -/
theorem Admits.step {a : AuthorityState} {d : Deployment} (h : d.Admits a) (act : Act) :
    (d.step act).Admits a := by
  obtain ⟨rfl, hkept⟩ := h
  cases act with
  | session id answer =>
    rw [Deployment.step]
    unfold stepSession
    cases hs : d.sessions[id]? with
    | none => exact ⟨rfl, hkept⟩
    | some s =>
      have hmem : s ∈ d.sessions := List.mem_of_getElem? hs
      refine ⟨(s.move_step d.coordinator id answer).authority, fun t ht => ?_⟩
      rcases List.mem_or_eq_of_mem_set ht with ht | rfl
      · exact hkept t ht
      · exact Session.kept_step (hkept s hmem) id answer
  | accept connection =>
    have hfresh : ({} : Session).Kept d.coordinator.authority := ⟨Log.justified_nil, rfl⟩
    rw [Deployment.step]
    unfold stepAccept
    dsimp only
    split
    · exact ⟨rfl, hkept⟩
    · exact ⟨rfl, hkept⟩
    · split_ifs <;> exact ⟨rfl, hkept⟩
    · split_ifs <;> exact ⟨rfl, hkept⟩
    · refine ⟨rfl, fun t ht => ?_⟩
      rcases List.mem_append.mp ht with ht | ht
      · exact hkept t ht
      · rw [List.mem_singleton.mp ht]
        exact hfresh
    · exact ⟨rfl, hkept⟩
  | stop =>
    rw [Deployment.step]
    unfold stepStop
    dsimp only
    split
    · exact ⟨rfl, hkept⟩
    · split_ifs <;> exact ⟨rfl, hkept⟩
    · split_ifs <;> exact ⟨rfl, hkept⟩
    · exact ⟨rfl, hkept⟩

/-- RUN: a session at work has read another frame, is idle, or has come closer to its end with every
    step of its thread. -/
theorem pending_run (id : ℕ) {d : Deployment} {s : Session} (hs : d.sessions[id]? = some s)
    (acts : List Act) : ∃ s' more, (Runs.run step d acts).sessions[id]? = some s' ∧
      s'.trace = s.trace ++ more ∧ (s'.phase.idle = true ∨ (∃ e ∈ more, e.isReceived = true) ∨
        s'.phase.pending + acts.countP (Act.isOf id) ≤ s.phase.pending) := by
  induction acts using List.reverseRecOn with
  | nil => exact ⟨s, [], hs, by simp, Or.inr (Or.inr (Nat.le_refl _))⟩
  | append_singleton acts act ih =>
    obtain ⟨s₁, more, hget, htrace, hnear⟩ := ih
    rw [Runs.run_concat, List.countP_append]
    generalize Runs.run step d acts = d₁ at *
    rcases d₁.session_step act hget with ⟨hother, hsame⟩ | ⟨answer, rfl, hnext, -⟩
    · refine ⟨s₁, more, hsame, htrace, ?_⟩
      rw [List.countP_singleton, hother]
      exact hnear
    · have hown : (Act.session id answer).isOf id = true := by simp [Act.isOf]
      rw [List.countP_singleton, if_pos hown]
      have hemits := Session.emits_step d₁.coordinator id s₁ answer
      have hpending := s₁.pending_step d₁.coordinator id answer
      generalize s₁.step d₁.coordinator id answer = next at *
      obtain ⟨c, s₂⟩ := next
      dsimp only at hemits hpending hnext
      have hgrows : ∃ new, s₂.trace = s₁.trace ++ new := by
        cases hemits with
        | silent _ heq => exact ⟨[], by rw [heq, List.append_nil]⟩
        | event e _ heq => exact ⟨[e], heq⟩
        | call sample ok _ _ heq => exact ⟨[.ingested sample ok], heq⟩
      obtain ⟨new, hnew⟩ := hgrows
      refine ⟨s₂, more ++ new, hnext, ?_, ?_⟩
      · rw [hnew, htrace, List.append_assoc]
      · rcases hpending with hidle | ⟨f, hread⟩ | ⟨hbusy, hless⟩
        · exact Or.inl hidle
        · have hlast : new = [.received f] := List.append_cancel_left (hnew.symm.trans hread)
          exact Or.inr (Or.inl ⟨.received f, by simp [hlast], rfl⟩)
        · rcases hnear with hidle | ⟨e, he, hreceived⟩ | hle
          · rw [hidle] at hbusy
            cases hbusy
          · exact Or.inr (Or.inl ⟨e, List.mem_append_left _ he, hreceived⟩)
          · exact Or.inr (Or.inr (by omega))

/-- RUN: the law is kept in every interleaving. -/
theorem Admits.run {a : AuthorityState} {d : Deployment} (h : d.Admits a) (acts : List Act) :
    (Runs.run Deployment.step d acts).Admits a := by
  have hmeets : Runs.Meets Deployment.step (fun _ _ => True) d acts :=
    Runs.meets_of_forall_mem fun _ _ => trivial
  exact Runs.run_invariant (I := fun d => d.Admits a) (fun d act h _ => Admits.step h act) h hmeets

theorem Admits.law {a : AuthorityState} {d : Deployment} (h : d.Admits a) : d.AdmissionLaw a where
  authority := h.authority
  lawful s hs := (h.kept s hs).lawful
  calls act := by
    have hkept := (h.step act).kept
    cases act with
    | session id answer =>
      cases hs : d.sessions[id]? with
      | none =>
        left
        rw [Deployment.step, stepSession, hs]
      | some s =>
        rcases d.session_step (.session id answer) hs with ⟨hother, -⟩ | ⟨answer', heq, hnext, hcoordinator⟩
        · simp [Act.isOf] at hother
        · cases heq
          rw [hcoordinator]
          have hmem := List.mem_of_getElem? hnext
          have hemits := Session.emits_step d.coordinator id s answer
          generalize s.step d.coordinator id answer = next at *
          obtain ⟨c, s'⟩ := next
          cases hemits with
          | silent hgovernor _ => exact Or.inl hgovernor
          | event _ hgovernor _ => exact Or.inl hgovernor
          | call sample ok hgovernor hok htrace =>
            exact Or.inr ⟨id, answer, s, s', sample, ok, rfl, hs, hnext, htrace,
              (hkept s' hmem).lawful, hgovernor, hok⟩
    | accept connection =>
      left
      rw [Deployment.step]
      unfold stepAccept
      dsimp only
      split <;> try rfl
      · split_ifs <;> rfl
      · split_ifs <;> rfl
    | stop =>
      left
      rw [Deployment.step]
      unfold stepStop
      dsimp only
      split <;> try rfl
      · split_ifs <;> rfl
      · split_ifs <;> rfl
  answers id s before f batch after hs htrace hbefore hcarries := by
    refine ⟨s.phase.pending + 1, fun acts hcount => ?_⟩
    obtain ⟨s', more, hget, hmore, hnear⟩ := pending_run id hs acts
    have hadmits : (Runs.run Deployment.step d acts).Admits a := h.run acts
    have hlaw := (hadmits.kept s' (List.mem_of_getElem? hget)).lawful
    have hwhole : s'.trace = before ++ .received (some f) :: (after ++ more) := by
      rw [hmore, htrace, List.append_assoc, List.cons_append]
    refine ⟨s', after ++ more, hget, hwhole, ?_⟩
    rcases hnear with hidle | ⟨e, he, hreceived⟩ | hle
    · exact hlaw.settled hidle before _ _ hwhole rfl f batch rfl hbefore hcarries
    · -- another frame was read, and before it was the batch was answered
      obtain ⟨mid, last, rfl⟩ := List.append_of_mem he
      cases e with
      | received frame =>
        have hsettled : Settled a (before ++ .received (some f) :: (after ++ mid)) := by
          refine hlaw.answered _ frame last ?_
          rw [hwhole]
          simp only [List.append_assoc, List.cons_append]
        have hanswer := hsettled before _ _ rfl rfl f batch rfl hbefore hcarries
        rw [← List.append_assoc, Log.takeWhile_append_cons rfl]
        exact hanswer
      | sent => cases hreceived
      | ingested => cases hreceived
      | retired => cases hreceived
    · omega

/-- SESSION ADMISSION: whatever the peers send and however the threads interleave, the governor is
    handed only samples of evidence under the authority in force, after an accepted handshake and
    before the first frame that offends, and every batch is answered before the next frame is read. -/
theorem session_admission (maxWorkers : ℕ) (authority : AuthorityState) (governor : Governor)
    (acts : List Act) :
    (Runs.run step (start maxWorkers authority governor) acts).AdmissionLaw authority := by
  have hstart : (start maxWorkers authority governor).Admits authority :=
    ⟨rfl, fun s hs => by cases hs⟩
  exact (hstart.run acts).law

end Deployment

end Mbg
