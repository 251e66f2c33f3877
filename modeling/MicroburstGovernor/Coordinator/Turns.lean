import MicroburstGovernor.Coordinator.Worker
import Mathlib.Algebra.GroupWithZero.Nat

/-! A session and its peer take turns.

    What a session does to its place and its trace at one step is said once; what it hands over, what
    it tells its peer and whose turn it is are read off its cases.

        frames read    =  frames taken off the queue      replies sent  =  frames put on the other
        samples handed =  samples of the frames read, less what is left of the last one -/

namespace Mbg

open ByteReader

/-! ### What a trace says -/

namespace SessionEvent

/-- The frame that was read. -/
def frame? : SessionEvent → Option Frame
  | received frame => frame
  | _ => none

/-- The reply that was sent. -/
def reply? : SessionEvent → Option Reply
  | sent reply ok => if ok then some reply else none
  | _ => none

/-- The sample that was handed to the governor. -/
def sample? : SessionEvent → Option Sample
  | ingested sample _ => some sample
  | _ => none

end SessionEvent

def reads (t : List SessionEvent) : List Frame := t.filterMap SessionEvent.frame?

def replies (t : List SessionEvent) : List Reply := t.filterMap SessionEvent.reply?

def handed (t : List SessionEvent) : List Sample := t.filterMap SessionEvent.sample?

/-- The samples that a frame offers. -/
def Frame.samples (f : Frame) : List Sample :=
  if f.header.type = MessageType.evidence then batchOf f else []

theorem samples_of_ne {f : Frame} (h : f.header.type ≠ MessageType.evidence) : f.samples = [] :=
  if_neg h

theorem Carries.samples_eq {a : AuthorityState} {f : Frame} {batch : EvidenceBatch}
    (h : Carries a f batch) : f.samples = batch.samples := by
  rw [Frame.samples, if_pos h.1, batchOf_eq h.2.1]

/-- A frame that claims an epoch other than the one in force. -/
def Stale (a : AuthorityState) (f : Frame) : Prop :=
  (f.header.type = MessageType.hello ∧
      ∃ hello, (decodeHello (.of f.payload)).1 = .ok hello ∧ hello.epoch ≠ a.epoch) ∨
    (f.header.type = MessageType.heartbeat ∧
      ∃ heartbeat, (decodeHeartbeat (.of f.payload)).1 = .ok heartbeat ∧ heartbeat.epoch ≠ a.epoch) ∨
    (f.header.type = MessageType.evidence ∧
      ∃ batch, (decodeBatch (.of f.payload)).1 = .ok batch ∧ batch.epoch ≠ a.epoch)

/-- A reply that tells the worker that it is fenced. -/
def Reply.fences : Reply → Bool
  | helloAck response => response.status = .staleEpoch || response.status = .fenced
  | fence _ _ => true
  | _ => false

/-- A reply that ends the session. -/
def Reply.terminal : Reply → Bool
  | fence _ _ | error _ _ => true
  | _ => false

namespace Session

/-! ### One step -/

/-- What a step makes of the place a session stands at and of its trace, under this authority and at
    this sequence. -/
inductive Turned (a : AuthorityState) (seq : FrameSeq) (answer : Answer) :
    SessionPhase × List SessionEvent → SessionPhase × List SessionEvent → Prop
  | greeted {t : List SessionEvent} {f : Frame} {hello : HelloRequest}
    (hframe : answer.frame = some f) (htype : f.header.type = MessageType.hello)
    (hdecode : (decodeHello (.of f.payload)).1 = .ok hello) :
    Turned a seq answer (.awaitingHello, t) (.handshaking hello, t ++ [.received (some f)])
  | unwelcome {t : List SessionEvent} {frame : Option Frame} (hframe : answer.frame = frame) :
    Turned a seq answer (.awaitingHello, t) (.finishing false, t ++ [.received frame])
  | judged {t : List SessionEvent} {hello : HelloRequest} {response : HelloResponse}
    (hstale : (Reply.helloAck response).fences = true → hello.epoch ≠ a.epoch) :
    Turned a seq answer (.handshaking hello, t) (.acknowledging response, t)
  | acknowledged {t : List SessionEvent} {response : HelloResponse} {phase : SessionPhase}
    (hphase : phase = .finishing false ∨ phase = .looping ∧ answer.sent = true) :
    Turned a seq answer (.acknowledging response, t)
      (phase, t ++ [.sent (.helloAck response) answer.sent])
  | looped {t : List SessionEvent} {phase : SessionPhase}
    (hphase : phase = .finishing false ∨ phase = .receiving) :
    Turned a seq answer (.looping, t) (phase, t)
  | read {t : List SessionEvent} {f : Frame} (hframe : answer.frame = some f) :
    Turned a seq answer (.receiving, t) (.counting f, t ++ [.received (some f)])
  | gone {t : List SessionEvent} (hframe : answer.frame = none) :
    Turned a seq answer (.receiving, t) (.finishing false, t ++ [.received none])
  | counted {t : List SessionEvent} {f : Frame} :
    Turned a seq answer (.counting f, t) (.handling f, t)
  | refusing {t : List SessionEvent} {f : Frame} {reply : Reply} (hterminal : reply.terminal = true)
    (hstale : reply.fences = true → Stale a f) :
    Turned a seq answer (.handling f, t) (.refusing reply, t)
  | noting {t : List SessionEvent} {f : Frame} (htype : f.header.type = MessageType.heartbeat)
    {tick : Tick} : Turned a seq answer (.handling f, t) (.noting tick, t)
  | ingesting {t : List SessionEvent} {f : Frame} {batch : EvidenceBatch}
    (hcarries : Carries a f batch) {ack : EvidenceAck} (hepoch : ack.epoch = a.epoch) :
    Turned a seq answer (.handling f, t) (.ingesting batch.samples ack, t)
  | left {t : List SessionEvent} {f : Frame} (hsamples : f.samples = [])
    (htype : f.header.type ≠ MessageType.hello) {phase : SessionPhase}
    (hphase : phase = .finishing true ∨ phase = .looping ∧ isValidMessageType f.header.type.raw = false) :
    Turned a seq answer (.handling f, t) (phase, t)
  | noted {t : List SessionEvent} {tick : Tick} : Turned a seq answer (.noting tick, t) (.looping, t)
  | ingested {t : List SessionEvent} {sample : Sample} {rest : List Sample} {ack ack' : EvidenceAck}
    {ok : Bool} {phase : SessionPhase}
    (hphase : phase = .ingesting rest ack' ∨ ∃ tick, phase = .crediting tick rest ack')
    (hepoch : ack'.epoch = ack.epoch) :
    Turned a seq answer (.ingesting (sample :: rest) ack, t) (phase, t ++ [.ingested sample ok])
  | credited {t : List SessionEvent} {tick : Tick} {rest : List Sample} {ack : EvidenceAck} :
    Turned a seq answer (.crediting tick rest ack, t) (.ingesting rest ack, t)
  | served {t : List SessionEvent} {ack : EvidenceAck} :
    Turned a seq answer (.ingesting [] ack, t) (.answering ack, t)
  | answered {t : List SessionEvent} {ack : EvidenceAck} {phase : SessionPhase}
    (hphase : phase = .finishing false ∨ phase = .looping ∧ answer.sent = true) :
    Turned a seq answer (.answering ack, t) (phase, t ++ [.sent (.evidenceAck seq ack) answer.sent])
  | refused {t : List SessionEvent} {reply : Reply} :
    Turned a seq answer (.refusing reply, t) (.finishing false, t ++ [.sent reply answer.sent])
  | finished {t : List SessionEvent} {graceful : Bool} :
    Turned a seq answer (.finishing graceful, t) (.retiring graceful, t)
  | retired {t : List SessionEvent} {graceful : Bool} :
    Turned a seq answer (.retiring graceful, t) (.ended graceful, t ++ [.retired])
  | ended {t : List SessionEvent} {graceful : Bool} :
    Turned a seq answer (.ended graceful, t) (.ended graceful, t)

section

variable {c : Coordinator} {s : Session} {answer : Answer}

theorem turned_receiveHello {frame : Option Frame} (hframe : answer.frame = frame) :
    Turned c.authority s.sequence answer (.awaitingHello, s.trace)
      ((receiveHello c s frame).2.phase, (receiveHello c s frame).2.trace) := by
  unfold receiveHello
  cases frame with
  | none => exact .unwelcome hframe
  | some f =>
    dsimp only
    split_ifs with htype
    · exact .unwelcome hframe
    · cases hdecode : (decodeHello (.of f.payload)).1 with
      | error e => exact .unwelcome hframe
      | ok hello => exact .greeted hframe (Classical.not_not.mp htype) hdecode

theorem turned_handshake (hello : HelloRequest) :
    Turned c.authority s.sequence answer (.handshaking hello, s.trace)
      ((handshake c s hello).2.phase, (handshake c s hello).2.trace) := by
  have hepoch : validateClaim c.authority ⟨hello.epoch, hello.incarnation, hello.boot⟩ hello.protocol
      wireProtocolVersion = .epochMismatch → hello.epoch ≠ c.authority.epoch := by
    unfold validateClaim
    split_ifs with _ _ _ hstale <;> intro h
    all_goals first
      | exact hstale
      | cases h
  rw [handshake]
  dsimp only
  split
  case h_2 hverdict => exact .judged fun _ => hepoch hverdict
  case h_4 =>
    split_ifs
    · exact .judged fun h => by cases h
    · exact .judged fun h => by cases h
  all_goals exact .judged fun h => by cases h

theorem turned_acknowledge (response : HelloResponse) :
    Turned c.authority s.sequence answer (.acknowledging response, s.trace)
      ((s.acknowledge response answer.sent).phase, (s.acknowledge response answer.sent).trace) := by
  unfold acknowledge
  dsimp only
  split_ifs with hsent
  · exact .acknowledged (Or.inl rfl)
  · exact .acknowledged (Or.inl rfl)
  · exact .acknowledged (Or.inr ⟨rfl, by simpa using hsent⟩)

theorem turned_handleFrame (f : Frame) :
    Turned c.authority s.sequence answer (.handling f, s.trace)
      ((handleFrame c s f).2.phase, (handleFrame c s f).2.trace) := by
  unfold handleFrame
  split_ifs with hheartbeat hevidence hgoodbye hvalid
  · cases hdecode : (decodeHeartbeat (.of f.payload)).1 with
    | error e => exact .refusing rfl fun h => by cases h
    | ok heartbeat =>
      dsimp only
      split_ifs with hepoch
      · exact .refusing rfl fun _ => Or.inr (Or.inl ⟨hheartbeat, heartbeat, hdecode, hepoch⟩)
      · exact .noting hheartbeat
  · cases hdecode : (decodeBatch (.of f.payload)).1 with
    | error e => exact .refusing rfl fun h => by cases h
    | ok batch =>
      dsimp only
      split_ifs with hepoch
      · exact .refusing rfl fun _ => Or.inr (Or.inr ⟨hevidence, batch, hdecode, hepoch⟩)
      · exact .ingesting ⟨hevidence, hdecode, Classical.not_not.mp hepoch⟩ rfl
  · refine .left (samples_of_ne hevidence) (fun h => ?_) (Or.inl rfl)
    rw [h] at hgoodbye
    exact absurd hgoodbye (by decide)
  · exact .refusing rfl fun h => by cases h
  · refine .left (samples_of_ne hevidence) (fun h => ?_) (Or.inr ⟨rfl, by simpa using hvalid⟩)
    rw [h] at hvalid
    exact hvalid rfl

theorem turned_ingestSample (sample : Sample) (rest : List Sample) (ack : EvidenceAck) :
    Turned c.authority s.sequence answer (.ingesting (sample :: rest) ack, s.trace)
      ((ingestSample c s sample rest ack).2.phase, (ingestSample c s sample rest ack).2.trace) := by
  unfold ingestSample
  generalize c.governor.ingest sample = result
  obtain ⟨outcome, governor⟩ := result
  dsimp only
  split
  · split_ifs
    · exact .ingested (Or.inr ⟨_, rfl⟩) rfl
    · exact .ingested (Or.inl rfl) rfl
  · exact .ingested (Or.inl rfl) rfl

/-- STEP: what a session's step does to its place and its trace. -/
theorem turned_step (c : Coordinator) (id : ℕ) (s : Session) (answer : Answer) :
    Turned c.authority s.sequence answer (s.phase, s.trace)
      ((s.step c id answer).2.phase, (s.step c id answer).2.trace) := by
  unfold step
  split
  case h_1 hphase => exact hphase ▸ turned_receiveHello rfl
  case h_2 hello hphase => exact hphase ▸ turned_handshake hello
  case h_3 response hphase => exact hphase ▸ turned_acknowledge response
  case h_4 hphase =>
    rw [hphase]
    refine .looped ?_
    rw [goto]
    dsimp only
    split_ifs
    · exact Or.inr rfl
    · exact Or.inl rfl
  case h_5 hphase =>
    rw [hphase]
    unfold receiveFrame
    cases hframe : answer.frame with
    | none => exact .gone hframe
    | some f => exact .read hframe
  case h_6 f hphase => exact hphase ▸ .counted
  case h_7 f hphase => exact hphase ▸ turned_handleFrame f
  case h_8 tick hphase => exact hphase ▸ .noted
  case h_9 ack hphase => exact hphase ▸ .served
  case h_10 sample rest ack hphase => exact hphase ▸ turned_ingestSample sample rest ack
  case h_11 tick rest ack hphase => exact hphase ▸ .credited
  case h_12 ack hphase =>
    rw [hphase]
    refine .answered ?_
    rw [goto]
    dsimp only
    split_ifs with hsent
    · exact Or.inr ⟨rfl, hsent⟩
    · exact Or.inl rfl
  case h_13 reply hphase => exact hphase ▸ .refused
  case h_14 graceful hphase => exact hphase ▸ .finished
  case h_15 graceful hphase => exact hphase ▸ .retired
  case h_16 graceful hphase =>
    rw [hphase]
    exact .ended

end

/-! ### What a step reads, sends and hands over -/

section

variable {a : AuthorityState} {seq : FrameSeq} {answer : Answer} {p p' : SessionPhase}
  {t t' : List SessionEvent}

theorem Turned.reads_eq (h : Turned a seq answer (p, t) (p', t')) :
    reads t' = reads t ++ (if p.reads then answer.frame.toList else []) := by
  cases h with
  | greeted hframe => simp [reads, SessionPhase.reads, SessionEvent.frame?, hframe]
  | unwelcome hframe =>
    rw [hframe]
    rename_i frame
    cases frame <;> simp [reads, SessionPhase.reads, SessionEvent.frame?]
  | read hframe => simp [reads, SessionPhase.reads, SessionEvent.frame?, hframe]
  | gone hframe => simp [reads, SessionPhase.reads, SessionEvent.frame?, hframe]
  | _ => simp [reads, SessionPhase.reads, SessionEvent.frame?]

theorem Turned.replies_eq (h : Turned a seq answer (p, t) (p', t')) :
    replies t' = replies t ++ (if answer.sent then (p.reply seq).toList else []) := by
  cases h with
  | acknowledged =>
    cases hsent : answer.sent <;> simp [replies, SessionPhase.reply, SessionEvent.reply?]
  | answered => cases hsent : answer.sent <;> simp [replies, SessionPhase.reply, SessionEvent.reply?]
  | refused => cases hsent : answer.sent <;> simp [replies, SessionPhase.reply, SessionEvent.reply?]
  | _ => simp [replies, SessionPhase.reply, SessionEvent.reply?]

/-- A trace only grows. -/
theorem Turned.grows (h : Turned a seq answer (p, t) (p', t')) : t <+: t' := by
  cases h with
  | _ => first | exact List.prefix_rfl | exact List.prefix_append _ _

/-- What is handed over is what was read, less what is left of the last frame. -/
def Handing (p : SessionPhase) (t : List SessionEvent) : Prop :=
  match p with
  | .counting f | .handling f => handed t ++ f.samples = (reads t).flatMap Frame.samples
  | .ingesting rest _ | .crediting _ rest _ => handed t ++ rest = (reads t).flatMap Frame.samples
  | .refusing _ | .finishing _ | .retiring _ | .ended _ =>
    handed t <+: (reads t).flatMap Frame.samples
  | _ => handed t = (reads t).flatMap Frame.samples

theorem Handing.le (h : Handing p t) : handed t <+: (reads t).flatMap Frame.samples := by
  cases p with
  | counting f => exact ⟨_, h⟩
  | handling f => exact ⟨_, h⟩
  | ingesting rest ack => exact ⟨_, h⟩
  | crediting tick rest ack => exact ⟨_, h⟩
  | refusing reply => exact h
  | finishing graceful => exact h
  | retiring graceful => exact h
  | ended graceful => exact h
  | _ => exact h ▸ List.prefix_rfl

@[simp] theorem reads_concat (event : SessionEvent) :
    reads (t ++ [event]) = reads t ++ event.frame?.toList := by
  simp [reads, List.filterMap_cons]
  cases event.frame? <;> rfl

@[simp] theorem replies_concat (event : SessionEvent) :
    replies (t ++ [event]) = replies t ++ event.reply?.toList := by
  simp [replies, List.filterMap_cons]
  cases event.reply? <;> rfl

@[simp] theorem handed_concat (event : SessionEvent) :
    handed (t ++ [event]) = handed t ++ event.sample?.toList := by
  simp [handed, List.filterMap_cons]
  cases event.sample? <;> rfl

/-- STEP: no sample is handed over twice, out of order or from anywhere but a frame. -/
theorem Handing.turned (h : Handing p t) (hturned : Turned a seq answer (p, t) (p', t')) :
    Handing p' t' := by
  cases hturned with
  | @greeted _ f hello hframe htype hdecode =>
    have hnone : f.samples = [] := samples_of_ne (by rw [htype]; decide)
    simpa [Handing, SessionEvent.frame?, SessionEvent.sample?, hnone] using h
  | unwelcome hframe =>
    simp only [Handing, reads_concat, handed_concat, List.flatMap_append] at h ⊢
    rw [h]
    simp [SessionEvent.sample?]
  | acknowledged hphase =>
    rcases hphase with rfl | ⟨rfl, -⟩
    · simpa [Handing, SessionEvent.frame?, SessionEvent.sample?] using h.le
    · simpa [Handing, SessionEvent.frame?, SessionEvent.sample?] using h
  | looped hphase =>
    rcases hphase with rfl | rfl
    · exact h.le
    · exact h
  | @read _ f hframe =>
    simp only [Handing] at h
    simp [Handing, SessionEvent.frame?, SessionEvent.sample?, h]
  | gone hframe => simpa [Handing, SessionEvent.frame?, SessionEvent.sample?] using h.le
  | refusing => exact h.le
  | @noting _ f htype _ =>
    have hnone : f.samples = [] := samples_of_ne (by rw [htype]; decide)
    simpa [Handing, hnone] using h
  | ingesting hcarries =>
    simp only [Handing] at h ⊢
    rw [← h, hcarries.samples_eq]
  | left hsamples _ hphase =>
    rcases hphase with rfl | ⟨rfl, -⟩
    · exact h.le
    · simpa [Handing, hsamples] using h
  | ingested hphase _ =>
    rcases hphase with rfl | ⟨tick, rfl⟩
    · simpa [Handing, SessionEvent.frame?, SessionEvent.sample?] using h
    · simpa [Handing, SessionEvent.frame?, SessionEvent.sample?] using h
  | served => simpa [Handing] using h
  | answered hphase =>
    rcases hphase with rfl | ⟨rfl, -⟩
    · simpa [Handing, SessionEvent.frame?, SessionEvent.sample?] using h.le
    · simpa [Handing, SessionEvent.frame?, SessionEvent.sample?] using h
  | refused => simpa [Handing, SessionEvent.frame?, SessionEvent.sample?] using h
  | retired => simpa [Handing, SessionEvent.frame?, SessionEvent.sample?] using h
  | judged | counted | noted | credited | finished | ended => exact h

/-! ### Who is told that it is fenced -/

/-- A frame was read that claims another epoch. -/
def Told (a : AuthorityState) (t : List SessionEvent) : Prop := ∃ f ∈ reads t, Stale a f

/-- What the reply that a session is to send next rests on. -/
def Grounds (a : AuthorityState) (p : SessionPhase) (t : List SessionEvent) : Prop :=
  match p with
  | .handshaking hello => ∃ f ∈ reads t, f.header.type = MessageType.hello ∧
      (decodeHello (.of f.payload)).1 = .ok hello
  | .acknowledging response => (Reply.helloAck response).fences = true → Told a t
  | .counting f | .handling f => f ∈ reads t
  | .refusing reply => reply.fences = true → Told a t
  | _ => True

/-- A worker is told that it is fenced only behind a frame of its own that claims another epoch. -/
structure Telling (a : AuthorityState) (p : SessionPhase) (t : List SessionEvent) : Prop where
  told : ∀ r ∈ replies t, r.fences = true → Told a t
  grounds : Grounds a p t

theorem Told.turned (h : Told a t) (hturned : Turned a seq answer (p, t) (p', t')) : Told a t' := by
  obtain ⟨f, hf, hstale⟩ := h
  refine ⟨f, ?_, hstale⟩
  rw [hturned.reads_eq]
  exact List.mem_append_left _ hf

/-- A reply that fences, with what it rests on. -/
theorem Grounds.told {r : Reply} (h : Grounds a p t) (hreply : p.reply seq = some r)
    (hfences : r.fences = true) : Told a t := by
  cases p with
  | acknowledging response =>
    cases hreply
    exact h hfences
  | answering ack =>
    cases hreply
    cases hfences
  | refusing reply =>
    cases hreply
    exact h hfences
  | _ => cases hreply

theorem Grounds.turned (h : Grounds a p t) (hturned : Turned a seq answer (p, t) (p', t')) :
    Grounds a p' t' := by
  cases hturned with
  | @greeted _ f hello _ htype hdecode => exact ⟨f, by simp [SessionEvent.frame?], htype, hdecode⟩
  | @judged _ hello response hstale =>
    obtain ⟨f, hf, htype, hdecode⟩ := h
    exact fun hfences => ⟨f, hf, Or.inl ⟨htype, hello, hdecode, hstale hfences⟩⟩
  | acknowledged hphase => rcases hphase with rfl | ⟨rfl, -⟩ <;> exact trivial
  | looped hphase => rcases hphase with rfl | rfl <;> exact trivial
  | read => simp [Grounds, SessionEvent.frame?]
  | counted => exact h
  | @refusing _ f _ _ hstale => exact fun hfences => ⟨f, h, hstale hfences⟩
  | left _ _ hphase => rcases hphase with rfl | ⟨rfl, -⟩ <;> exact trivial
  | ingested hphase _ => rcases hphase with rfl | ⟨tick, rfl⟩ <;> exact trivial
  | answered hphase => rcases hphase with rfl | ⟨rfl, -⟩ <;> exact trivial
  | _ => exact trivial

/-- STEP: whatever is told has its cause. -/
theorem Telling.turned (h : Telling a p t) (hturned : Turned a seq answer (p, t) (p', t')) :
    Telling a p' t' := by
  refine ⟨fun r hr hfences => ?_, h.grounds.turned hturned⟩
  rw [hturned.replies_eq] at hr
  rcases List.mem_append.mp hr with hr | hr
  · exact (h.told r hr hfences).turned hturned
  · have hnext : p.reply seq = some r := by
      split_ifs at hr
      · simpa using hr
      · cases hr
    exact (h.grounds.told hnext hfences).turned hturned

end

end Session

/-! ### Whose turn it is -/

/-- A frame that is not answered. -/
def Frame.Quiet (f : Frame) : Prop :=
  f.header.type = MessageType.heartbeat ∨ f.header.type = MessageType.goodbye

/-- A frame that is answered. -/
def Frame.Asks (f : Frame) : Prop :=
  f.header.type = MessageType.hello ∨ f.header.type = MessageType.evidence

/-- Nothing is asked of a session at this place. -/
def SessionPhase.Unasked : SessionPhase → Prop
  | .awaitingHello | .looping | .receiving | .noting _ => True
  | .counting f | .handling f => f.Quiet
  | .refusing reply => reply.terminal = true
  | _ => False

/-- Nothing is asked of the session: it has only frames before it that are not answered, or it ends
    and has said no more than why. -/
inductive Resting (p : SessionPhase) (up down : List Frame) : Prop
  | listening (hp : p.Unasked) (hup : ∀ f ∈ up, f.Quiet) (hdown : down = [])
  | closing (hp : p.closing = true)
    (hdown : ∀ g ∈ down, ∃ r : Reply, r.terminal = true ∧ g = r.frame.stamped)

/-- An acknowledgement of this frame: the samples of all frames before it were handed over, in their
    order, then its own, and the governor accepted and rejected as many of them as it counts. -/
def Acked (a : AuthorityState) (t : List SessionEvent) (f : Frame) (ack : EvidenceAck) : Prop :=
  ∃ before batch verdicts after,
    t = before ++ .received (some f) :: (calls batch.samples verdicts ++ after) ∧
    handed before = (reads before).flatMap Frame.samples ∧ Carries a f batch ∧
    verdicts.length = batch.samples.length ∧ ack.seq = f.header.seq ∧ ack.epoch = a.epoch ∧
    ack.accepted.toNat = verdicts.count true ∧ ack.rejected.toNat = verdicts.count false

/-- A reply to this frame: an acknowledgement is one of it. -/
def Given (a : AuthorityState) (t : List SessionEvent) (f : Frame) : Reply → Prop
  | .evidenceAck _ ack => Acked a t f ack
  | _ => True

section

variable {a : AuthorityState} {t t' : List SessionEvent} {f : Frame}

theorem Acked.grows {ack : EvidenceAck} (h : Acked a t f ack) (hgrows : t <+: t') :
    Acked a t' f ack := by
  obtain ⟨before, batch, verdicts, after, rfl, hrest⟩ := h
  obtain ⟨more, rfl⟩ := hgrows
  exact ⟨before, batch, verdicts, after ++ more, by simp, hrest⟩

theorem Given.grows {r : Reply} (h : Given a t f r) (hgrows : t <+: t') : Given a t' f r := by
  cases r with
  | evidenceAck => exact Acked.grows h hgrows
  | _ => trivial

theorem given_of_terminal {r : Reply} (h : r.terminal = true) : Given a t f r := by
  cases r with
  | evidenceAck => cases h
  | _ => trivial

end

/-- What is on its way to the worker while the session works on this frame, and behind it. -/
def Answering (a : AuthorityState) (f : Frame) (t : List SessionEvent) (down : List Frame) :
    SessionPhase → Prop
  | .awaitingHello | .noting _ => False
  | .handshaking _ | .acknowledging _ => down = []
  | .refusing reply => reply.terminal = true ∧ down = []
  | .counting f' | .handling f' => f' = f ∧ down = []
  | .ingesting _ ack | .crediting _ _ ack | .answering ack => ack.epoch = a.epoch ∧ down = []
  | .looping | .receiving => ∃ r, down = [r.frame.stamped] ∧ Given a t f r
  | .finishing _ | .retiring _ | .ended _ =>
    down = [] ∨ ∃ r, down = [r.frame.stamped] ∧ Given a t f r

/-- The session has read this frame, and no other one since. -/
structure Served (a : AuthorityState) (f : Frame) (p : SessionPhase) (t : List SessionEvent)
    (down : List Frame) : Prop where
  last : (reads t).getLast? = some f
  answering : Answering a f t down p

/-- Whose turn it is: the worker's, or, while it blocks for an answer, the session's; then the frame
    to be answered is the last of those on their way, or the last that was read. -/
def Turn (a : AuthorityState) (p : SessionPhase) (t : List SessionEvent) (up down : List Frame) :
    Option Frame → Prop
  | none => Resting p up down
  | some f => f.Asks ∧ ((∃ earlier, up = earlier ++ [f] ∧ Resting p earlier down) ∨
      (up = [] ∧ Served a f p t down))

namespace Session

section

variable {a : AuthorityState} {seq : FrameSeq} {answer : Answer} {p p' : SessionPhase}
  {t t' : List SessionEvent} {up down : List Frame}

/-- The frame that a step takes off the queue, and the one it puts on the other. -/
def taken (p : SessionPhase) (answer : Answer) : List Frame :=
  if p.reads then answer.frame.toList else []

def given (p : SessionPhase) (seq : FrameSeq) (answer : Answer) : List Frame :=
  if answer.sent then ((p.reply seq).map fun r => r.frame.stamped).toList else []

/-- STEP: a session that is asked nothing comes to rest again. -/
theorem resting_turned (h : Resting p (taken p answer ++ up) down)
    (hturned : Turned a seq answer (p, t) (p', t')) :
    Resting p' up (down ++ given p seq answer) := by
  have hclosed : ∀ {p' : SessionPhase}, p'.closing = true → p.reply seq = none →
      (∀ g ∈ down, ∃ r : Reply, r.terminal = true ∧ g = r.frame.stamped) →
      Resting p' up (down ++ given p seq answer) := by
    intro p' hp hreply hdown
    refine .closing hp ?_
    simpa [given, hreply] using hdown
  cases h with
  | closing hp hdown =>
    cases hturned with
    | finished => exact hclosed rfl rfl hdown
    | retired => exact hclosed rfl rfl hdown
    | ended => exact hclosed rfl rfl hdown
    | _ => cases hp
  | listening hp hup hdown =>
    subst hdown
    have hquiet : ∀ f ∈ up, f.Quiet := fun f hf => hup f (List.mem_append_right _ hf)
    have hnone : p.reply seq = none → ([] : List Frame) ++ given p seq answer = [] := by
      intro hreply
      simp [given, hreply]
    cases hturned with
    | @greeted _ f hello hframe htype _ =>
      have hf := hup f (by simp [taken, SessionPhase.reads, hframe])
      rcases hf with hf | hf
      · exact absurd (htype.symm.trans hf) (by decide)
      · exact absurd (htype.symm.trans hf) (by decide)
    | unwelcome => exact hclosed rfl rfl (by simp)
    | looped hphase =>
      rcases hphase with rfl | rfl
      · exact hclosed rfl rfl (by simp)
      · exact .listening trivial hquiet (hnone rfl)
    | @read _ f hframe =>
      have hf := hup f (by simp [taken, SessionPhase.reads, hframe])
      exact .listening hf hquiet (hnone rfl)
    | gone => exact hclosed rfl rfl (by simp)
    | counted => exact .listening hp hquiet (hnone rfl)
    | refusing hterminal _ => exact .listening hterminal hquiet (hnone rfl)
    | noting => exact .listening trivial hquiet (hnone rfl)
    | ingesting hcarries _ =>
      rcases hp with hp | hp
      · exact absurd (hcarries.1.symm.trans hp) (by decide)
      · exact absurd (hcarries.1.symm.trans hp) (by decide)
    | left _ _ hphase =>
      rcases hphase with rfl | ⟨rfl, -⟩
      · exact hclosed rfl rfl (by simp)
      · exact .listening trivial hquiet (hnone rfl)
    | noted => exact .listening trivial hquiet (hnone rfl)
    | @refused _ reply =>
      refine .closing rfl fun g hg => ⟨reply, hp, ?_⟩
      cases hsent : answer.sent
      · simp [given, hsent] at hg
      · simpa [given, hsent, SessionPhase.reply] using hg
    | _ => cases hp

theorem reply_of_reads (seq : FrameSeq) (h : p.reads = true) : p.reply seq = none ∧ p.closing = false := by
  cases p with
  | awaitingHello => exact ⟨rfl, rfl⟩
  | receiving => exact ⟨rfl, rfl⟩
  | _ => cases h

/-- STEP: the frame to be answered is read. -/
theorem served_of_taken {f : Frame} (h : Resting p [] down) (hread : taken p answer = [f])
    (hturned : Turned a seq answer (p, t) (p', t')) :
    Served a f p' t' (down ++ given p seq answer) := by
  have hreads : p.reads = true := by
    by_contra hreads
    rw [taken, if_neg hreads] at hread
    cases hread
  have hframe : answer.frame = some f := by simpa [taken, hreads] using hread
  have hdown : down ++ given p seq answer = [] := by
    obtain ⟨hreply, hclosing⟩ := reply_of_reads seq hreads
    cases h with
    | closing hp _ =>
      rw [hclosing] at hp
      cases hp
    | listening _ _ hdown => simp [given, hreply, hdown]
  refine ⟨?_, ?_⟩
  · rw [hturned.reads_eq, if_pos hreads, hframe]
    simp
  · rw [hdown]
    cases hturned with
    | greeted => exact rfl
    | unwelcome => exact Or.inl rfl
    | @read _ f' hframe' =>
      rw [hframe'] at hframe
      exact ⟨Option.some.inj hframe, rfl⟩
    | gone hframe' =>
      rw [hframe'] at hframe
      cases hframe
    | _ => cases hreads

theorem reads_calls (samples : List Sample) (verdicts : List Bool) :
    reads (calls samples verdicts) = [] := by
  refine List.filterMap_eq_nil_iff.mpr fun e he => ?_
  have hreceived := not_received_of_mem_calls he
  cases e <;> first | rfl | cases hreceived

theorem handed_calls : ∀ {samples : List Sample} {verdicts : List Bool},
    verdicts.length = samples.length → handed (calls samples verdicts) = samples
  | [], _, _ => rfl
  | sample :: samples, [], h => by cases h
  | sample :: samples, verdict :: verdicts, h => by
    have hrest : handed (calls samples verdicts) = samples := handed_calls (by simpa using h)
    exact congrArg (sample :: ·) hrest

/-- What a session that has answered its batch owes is what it says. -/
theorem Serving.acked {f : Frame} {ack : EvidenceAck} (h : Serving a t [] ack)
    (hlast : (reads t).getLast? = some f) (hepoch : ack.epoch = a.epoch)
    (hhanded : handed t = (reads t).flatMap Frame.samples) : Acked a t f ack := by
  obtain ⟨before, f', batch, verdicts, rfl, -, hcarries, hle, hdrop, hseq, htrue, hfalse⟩ := h
  have hlength : verdicts.length = batch.samples.length := by
    have hle' := List.drop_eq_nil_iff.mp hdrop
    omega
  have hreads : reads (before ++ .received (some f') :: calls batch.samples verdicts) =
      reads before ++ [f'] := by
    have hnone := reads_calls batch.samples verdicts
    rw [reads] at hnone
    simp [reads, hnone, SessionEvent.frame?]
  have hown : handed (before ++ .received (some f') :: calls batch.samples verdicts) =
      handed before ++ batch.samples := by
    have hall := handed_calls hlength
    rw [handed] at hall
    simp [handed, List.filterMap_cons, hall, SessionEvent.sample?]
  rw [hreads, List.getLast?_concat] at hlast
  obtain rfl := Option.some.inj hlast
  refine ⟨before, batch, verdicts, [], by simp, ?_, hcarries, hlength, hseq, hepoch, htrue, hfalse⟩
  rw [hown, hreads, List.flatMap_append, List.flatMap_singleton, hcarries.samples_eq] at hhanded
  exact List.append_cancel_right hhanded

/-- STEP: until it is answered, the frame is worked on. -/
theorem served_turned {f : Frame} (h : Served a f p t down) (hasks : f.Asks)
    (hserving : ∀ ack, p = .answering ack → Serving a t [] ack) (hhanding : Handing p t)
    (htaken : taken p answer = []) (hturned : Turned a seq answer (p, t) (p', t')) :
    Served a f p' t' (down ++ given p seq answer) := by
  have hlast : (reads t').getLast? = some f := by
    have hnone := hturned.reads_eq
    rw [← taken, htaken, List.append_nil] at hnone
    rw [hnone]
    exact h.last
  refine ⟨hlast, ?_⟩
  have hanswering := h.answering
  have hgrows := hturned.grows
  have hkept : ∀ {down : List Frame}, p.reply seq = none → down ++ given p seq answer = down := by
    intro down hreply
    simp [given, hreply]
  -- the reply goes out, and the worker may hear it, or the connection is gone
  have hsent : ∀ {r : Reply}, p.reply seq = some r → down = [] → Given a t' f r →
      p' = .finishing false ∨ p' = .looping ∧ answer.sent = true →
      Answering a f t' (down ++ given p seq answer) p' := by
    intro r hreply hdown hgiven hphase
    subst hdown
    cases hok : answer.sent with
    | true =>
      have hone : [] ++ given p seq answer = [r.frame.stamped] := by simp [given, hok, hreply]
      rw [hone]
      rcases hphase with rfl | ⟨rfl, -⟩
      · exact Or.inr ⟨r, rfl, hgiven⟩
      · exact ⟨r, rfl, hgiven⟩
    | false =>
      rcases hphase with rfl | ⟨-, htrue⟩
      · exact Or.inl (by simp [given, hok])
      · rw [hok] at htrue
        cases htrue
  have hclosing : p.reply seq = none →
      (down = [] ∨ ∃ r, down = [r.frame.stamped] ∧ Given a t f r) →
      (down ++ given p seq answer = [] ∨
        ∃ r, down ++ given p seq answer = [r.frame.stamped] ∧ Given a t' f r) := by
    rintro hreply (hdown | ⟨r, hdown, hgiven⟩)
    · exact Or.inl ((hkept hreply).trans hdown)
    · exact Or.inr ⟨r, (hkept hreply).trans hdown, hgiven.grows hgrows⟩
  cases hturned with
  | greeted => exact hanswering.elim
  | unwelcome => exact hanswering.elim
  | judged => exact (hkept rfl).trans hanswering
  | acknowledged hphase => exact hsent rfl hanswering trivial hphase
  | looped hphase =>
    rcases hphase with rfl | rfl
    · exact hclosing rfl (Or.inr hanswering)
    · obtain ⟨r, hdown, hgiven⟩ := hanswering
      exact ⟨r, (hkept rfl).trans hdown, hgiven⟩
  | read hframe =>
    have hnone : answer.frame.toList = [] := htaken
    rw [hframe] at hnone
    cases hnone
  | gone => exact hclosing rfl (Or.inr hanswering)
  | counted => exact ⟨hanswering.1, (hkept rfl).trans hanswering.2⟩
  | refusing hterminal _ => exact ⟨hterminal, (hkept rfl).trans hanswering.2⟩
  | noting htype =>
    rw [hanswering.1] at htype
    rcases hasks with hf | hf
    · exact absurd (htype.symm.trans hf) (by decide)
    · exact absurd (htype.symm.trans hf) (by decide)
  | ingesting _ hepoch => exact ⟨hepoch, (hkept rfl).trans hanswering.2⟩
  | left _ _ hphase =>
    rcases hphase with rfl | ⟨-, hvalid⟩
    · exact hclosing rfl (Or.inl hanswering.2)
    · rw [hanswering.1] at hvalid
      rcases hasks with hf | hf
      · rw [hf] at hvalid
        cases hvalid
      · rw [hf] at hvalid
        cases hvalid
  | noted => exact hanswering.elim
  | ingested hphase hepoch =>
    obtain ⟨hack, hdown⟩ := hanswering
    rcases hphase with rfl | ⟨tick, rfl⟩
    · exact ⟨hepoch.trans hack, (hkept rfl).trans hdown⟩
    · exact ⟨hepoch.trans hack, (hkept rfl).trans hdown⟩
  | credited => exact ⟨hanswering.1, (hkept rfl).trans hanswering.2⟩
  | served => exact ⟨hanswering.1, (hkept rfl).trans hanswering.2⟩
  | @answered _ ack phase hphase =>
    have hacked : Acked a t f ack :=
      (hserving ack rfl).acked h.last hanswering.1 (by simpa [Handing] using hhanding)
    exact hsent rfl hanswering.2 (Acked.grows hacked hgrows) hphase
  | refused =>
    exact hsent rfl hanswering.2 (given_of_terminal hanswering.1) (Or.inl rfl)
  | finished => exact hclosing rfl hanswering
  | retired => exact hclosing rfl hanswering
  | ended => exact hclosing rfl hanswering

theorem taken_cases (p : SessionPhase) (answer : Answer) :
    taken p answer = [] ∨ ∃ f, taken p answer = [f] := by
  unfold taken
  split_ifs
  · cases answer.frame with
    | none => exact Or.inl rfl
    | some f => exact Or.inr ⟨f, rfl⟩
  · exact Or.inl rfl

/-- STEP: a block of the session's thread leaves the turn where it is. -/
theorem turn_turned {waiting : Option Frame} (h : Turn a p t (taken p answer ++ up) down waiting)
    (hserving : ∀ ack, p = .answering ack → Serving a t [] ack) (hhanding : Handing p t)
    (hturned : Turned a seq answer (p, t) (p', t')) :
    Turn a p' t' up (down ++ given p seq answer) waiting := by
  cases waiting with
  | none => exact resting_turned h hturned
  | some f =>
    obtain ⟨hasks, ⟨earlier, hup, hresting⟩ | ⟨hup, hserved⟩⟩ := h
    · refine ⟨hasks, ?_⟩
      rcases taken_cases p answer with hnone | ⟨first, hone⟩
      · rw [hnone] at hup
        refine Or.inl ⟨earlier, hup, resting_turned ?_ hturned⟩
        rw [hnone]
        exact hresting
      · rw [hone] at hup
        cases earlier with
        | nil =>
          obtain ⟨rfl, rfl⟩ := List.cons.inj hup
          exact Or.inr ⟨rfl, served_of_taken hresting hone hturned⟩
        | cons e earlier =>
          obtain ⟨rfl, rfl⟩ := List.cons.inj hup
          refine Or.inl ⟨earlier, rfl, resting_turned ?_ hturned⟩
          rw [hone]
          exact hresting
    · obtain ⟨htaken, rfl⟩ := List.append_eq_nil_iff.mp hup
      exact ⟨hasks, Or.inr ⟨rfl, served_turned hserved hasks hserving hhanding htaken hturned⟩⟩

end

end Session

/-! ### How far a session is from its end -/

/-- How many blocks a session has before it at most, once it has read what is on its way. -/
def SessionPhase.rank : SessionPhase → ℕ
  | .awaitingHello | .receiving | .refusing _ => 3
  | .handshaking _ => 8
  | .acknowledging _ => 7
  | .looping => 4
  | .counting f => 2 * f.samples.length + 8
  | .handling f => 2 * f.samples.length + 7
  | .noting _ | .answering _ => 5
  | .ingesting rest _ => 2 * rest.length + 6
  | .crediting _ rest _ => 2 * rest.length + 7
  | .finishing _ => 2
  | .retiring _ => 1
  | .ended _ => 0

/-- How many blocks these frames and this place take at most. -/
def effort (p : SessionPhase) (up : List Frame) : ℕ :=
  p.rank + (up.map fun f => 2 * f.samples.length + 6).sum

namespace Session

section

variable {a : AuthorityState} {seq : FrameSeq} {answer : Answer} {p p' : SessionPhase}
  {t t' : List SessionEvent}

/-- A block that reads no frame brings the session closer to its end. -/
theorem Turned.rank_lt (h : Turned a seq answer (p, t) (p', t')) (hopen : p.closed = false)
    (htaken : taken p answer = []) : p'.rank < p.rank := by
  cases h with
  | greeted hframe =>
    have hnone : answer.frame.toList = [] := htaken
    rw [hframe] at hnone
    cases hnone
  | read hframe =>
    have hnone : answer.frame.toList = [] := htaken
    rw [hframe] at hnone
    cases hnone
  | acknowledged hphase =>
    rcases hphase with rfl | ⟨rfl, -⟩ <;> dsimp only [SessionPhase.rank] <;> omega
  | looped hphase => rcases hphase with rfl | rfl <;> dsimp only [SessionPhase.rank] <;> omega
  | ingesting hcarries _ =>
    dsimp only [SessionPhase.rank]
    rw [hcarries.samples_eq]
    omega
  | left _ _ hphase =>
    rcases hphase with rfl | ⟨rfl, -⟩ <;> dsimp only [SessionPhase.rank] <;> omega
  | ingested hphase _ =>
    rcases hphase with rfl | ⟨tick, rfl⟩ <;>
      dsimp only [SessionPhase.rank, List.length_cons] <;> omega
  | answered hphase =>
    rcases hphase with rfl | ⟨rfl, -⟩ <;> dsimp only [SessionPhase.rank] <;> omega
  | retired => cases hopen
  | ended => cases hopen
  | _ =>
    dsimp only [SessionPhase.rank]
    omega

/-- The place behind a frame that is read. -/
theorem Turned.rank_lt_of_taken {f : Frame} (h : Turned a seq answer (p, t) (p', t'))
    (htaken : taken p answer = [f]) : p'.rank < p.rank + (2 * f.samples.length + 6) := by
  have hframe : ∀ {f'}, answer.frame.toList = [f] → answer.frame = some f' → f' = f := by
    intro f' hlist hsome
    rw [hsome] at hlist
    exact (List.cons.inj hlist).1
  cases h with
  | greeted =>
    dsimp only [SessionPhase.rank]
    omega
  | unwelcome =>
    dsimp only [SessionPhase.rank]
    omega
  | gone =>
    dsimp only [SessionPhase.rank]
    omega
  | read hread =>
    rw [hframe htaken hread]
    dsimp only [SessionPhase.rank]
    omega
  | _ => cases htaken

/-- A channel that is closed stays closed. -/
theorem Turned.closed (h : Turned a seq answer (p, t) (p', t')) (hclosed : p.closed = true) :
    p'.closed = true := by
  cases h with
  | retired => rfl
  | ended => rfl
  | _ => cases hclosed

/-- STEP: every block of a session that has not closed its channel counts. -/
theorem Turned.effort_lt (up : List Frame) (h : Turned a seq answer (p, t) (p', t'))
    (hopen : p.closed = false) : effort p' up < effort p (taken p answer ++ up) := by
  rcases taken_cases p answer with hnone | ⟨f, hone⟩
  · have hless := h.rank_lt hopen hnone
    rw [hnone, List.nil_append, effort, effort]
    omega
  · have hless := h.rank_lt_of_taken hone
    rw [hone, List.singleton_append, effort, effort, List.map_cons, List.sum_cons]
    omega

end

end Session

end Mbg
