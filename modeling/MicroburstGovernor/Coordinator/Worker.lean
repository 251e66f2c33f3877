import MicroburstGovernor.Coordinator.Admission
import MicroburstGovernor.Transport.Messages

/-! The worker, and its conversation with one session of a coordinator.

    A worker speaks and, where an answer is due, blocks until it has heard it; heartbeats are not
    answered. The two directions of its connection are queues of frames, which either end may find
    gone at any time.

        worker   ── up ──▶   session     hello, heartbeat, evidence, goodbye
        worker  ◀── down ──  session     helloAck, evidenceAck, fence, error -/

namespace Mbg

/-! ### Replies on the wire -/

namespace StatusCode

def raw : StatusCode → UInt8
  | ok => 0 | invalidArgument => 1 | outOfRange => 2 | stale => 3 | unauthorized => 4 | corrupt => 5
  | truncated => 6 | oversized => 7 | unsupported => 8 | notFound => 9 | conflict => 10
  | capacityExceeded => 11 | protocol => 12 | io => 13 | overflow => 14 | cancelled => 15
  | internal => 16

end StatusCode

def ByteWriter.text (value : String) : Bytes :=
  ByteWriter.u32 value.toUTF8.size.toUInt32 ++ value.toUTF8.data.toList

open ByteWriter in
def encodeError (code : StatusCode) (detail : String) : Bytes := u16 code.raw.toUInt16 ++ text detail

/-- The frame that carries a reply. -/
def Reply.frame : Reply → Frame
  | helloAck response =>
    { header := { type := MessageType.helloAck, seq := ⟨1⟩ }, payload := encodeHelloResponse response }
  | evidenceAck seq ack =>
    { header := { type := MessageType.evidenceAck, seq }, payload := encodeEvidenceAck ack }
  | fence seq notice =>
    { header := { type := MessageType.fence, seq }, payload := encodeFenceNotice notice }
  | error code detail =>
    { header := { type := MessageType.error, seq := ⟨1⟩ }, payload := encodeError code detail }

/-! ### The worker -/

structure WorkerConfig where
  id : WorkerId := default
  incarnation : IncarnationId := default
  boot : BootId := default
  epoch : Epoch := default
  firstTick : Tick := {}
  deriving DecidableEq, Repr, Inhabited

/-- A worker process that submits evidence; it holds no authority of its own. -/
structure Worker where
  config : WorkerConfig := {}
  /-- Its channel is there and not closed. -/
  connected : Bool := false
  /-- The frames its channel has sent. -/
  framesSent : UInt64 := 0
  sequence : FrameSeq := ⟨1⟩
  grantedEpoch : Epoch := default
  handshakeStatus : HandshakeStatus := .malformed
  fenced : Bool := false
  deriving DecidableEq, Repr, Inhabited

/-- What a worker may be asked to say. -/
inductive WorkerCall where
  | handshake
  | heartbeat (tick : Tick)
  | evidence (batch : EvidenceBatch)
  | goodbye
  deriving DecidableEq

namespace Worker

/-- Connects; `network` is what the transport answers. -/
def connect (w : Worker) (config : WorkerConfig) (network : Status) : Status × Worker :=
  if !config.id.valid then (Status.failure .invalidArgument "worker identity is required", w)
  else match network with
  | .error e => (.error e, { w with config })
  | .ok () => (.ok (), { w with config, connected := true, framesSent := 0, sequence := ⟨1⟩ })

/-- The sequence of the next frame; the hello goes out under the first one. -/
def bump (w : Worker) : Worker := { w with sequence := ⟨w.sequence.raw + 1⟩ }

def helloRequest (w : Worker) : HelloRequest :=
  { protocol := wireProtocolVersion, worker := w.config.id, incarnation := w.config.incarnation,
    boot := w.config.boot, epoch := w.config.epoch, firstTick := w.config.firstTick }

def heartbeat (w : Worker) (tick : Tick) : Heartbeat :=
  { worker := w.config.id, tick, framesSent := w.framesSent
    epoch := if w.grantedEpoch.valid then w.grantedEpoch else w.config.epoch }

/-- The frame that a call puts on the channel, and the worker behind it. -/
def speak (w : Worker) : WorkerCall → Frame × Worker
  | .handshake =>
    ({ header := { type := MessageType.hello, seq := w.sequence }
       payload := encodeHello w.helloRequest }, w)
  | .heartbeat tick =>
    ({ header := { type := MessageType.heartbeat, seq := w.bump.sequence }
       payload := encodeHeartbeat (w.heartbeat tick) }, w.bump)
  | .evidence batch =>
    ({ header := { type := MessageType.evidence, seq := w.bump.sequence }
       payload := encodeBatch batch }, w.bump)
  | .goodbye =>
    ({ header := { type := MessageType.goodbye, seq := w.bump.sequence }
       payload := ByteWriter.u64 w.config.id.raw }, w.bump)

/-- The rest of `handshake`, on the frame that was received. -/
def takeHelloAck (w : Worker) (reply : Frame) : Except Failure HelloResponse × Worker :=
  if reply.header.type = MessageType.fence then
    (Status.failure .stale "coordinator fenced this worker",
      { w with fenced := true, handshakeStatus := .fenced })
  else if reply.header.type ≠ MessageType.helloAck then
    (Status.failure .protocol "coordinator did not answer the handshake", w)
  else match (decodeHelloResponse (.of reply.payload)).1 with
  | .error e => (.error e, w)
  | .ok response =>
    let w := { w with handshakeStatus := response.status, grantedEpoch := response.epoch }
    if response.status ≠ .accepted then
      (Status.failure .stale "coordinator refused the handshake",
        { w with fenced := response.status = .staleEpoch || response.status = .fenced })
    else (.ok response, w)

/-- The rest of `send_evidence`, on the frame that was received. -/
def takeEvidenceAck (w : Worker) (reply : Frame) : Except Failure EvidenceAck × Worker :=
  if reply.header.type = MessageType.fence then
    (Status.failure .stale "coordinator fenced this worker mid stream", { w with fenced := true })
  else if reply.header.type ≠ MessageType.evidenceAck then
    (Status.failure .protocol "coordinator did not acknowledge evidence", w)
  else ((decodeEvidenceAck (.of reply.payload)).1, w)

end Worker

/-! ### The conversation -/

/-- The reply that a session sends next, under its sequence. -/
def SessionPhase.reply (seq : FrameSeq) : SessionPhase → Option Reply
  | .acknowledging response => some (.helloAck response)
  | .answering ack => some (.evidenceAck seq ack)
  | .refusing reply => some reply
  | _ => none

/-- The session stands in front of a receive. -/
def SessionPhase.reads : SessionPhase → Bool
  | .awaitingHello | .receiving => true
  | _ => false

/-- The session has closed its channel, or is about to. -/
def SessionPhase.closing : SessionPhase → Bool
  | .finishing _ | .retiring _ | .ended _ => true
  | _ => false

/-- The session has closed its channel. -/
def SessionPhase.closed : SessionPhase → Bool
  | .retiring _ | .ended _ => true
  | _ => false

/-- A worker whose connection is this channel of the deployment. -/
structure Conversation where
  deployment : Deployment
  channel : ℕ
  worker : Worker
  /-- The frame whose answer the worker blocks for. -/
  waiting : Option Frame := none
  /-- A send, or a receive, of the worker has failed: its connection is gone in that direction. -/
  mute : Bool := false
  deaf : Bool := false
  up : List Frame := []
  down : List Frame := []
  /-- What the worker has put on the channel and taken off it, and the acknowledgements its calls
      returned, with the frames they were returned for. Nothing reads them. -/
  said : List Frame := []
  heard : List Frame := []
  acks : List (Frame × EvidenceAck) := []

namespace Conversation

/-- The session on the channel; one that was not accepted yet has done nothing. -/
def session (k : Conversation) : Session := (k.deployment.sessions[k.channel]?).getD {}

/-- A call of the worker up to its send. A frame that does not encode is refused; `sent` is what the
    system answers to the send of one that does. -/
def call (k : Conversation) (c : WorkerCall) (sent : Bool) : Conversation :=
  if k.waiting.isSome || !k.worker.connected then k
  else
    let (frame, worker) := k.worker.speak c
    -- the channel is closed behind a goodbye, whatever became of it
    let closing (w : Worker) : Worker := if c = .goodbye then { w with connected := false } else w
    match encodeFrame frame with
    | .error _ => { k with worker := closing worker }
    | .ok _ =>
      if k.mute || !sent then { k with worker := closing worker, mute := true }
      else
        { k with
          worker := closing { worker with framesSent := worker.framesSent + 1 }
          up := k.up ++ [frame.stamped]
          said := k.said ++ [frame.stamped]
          waiting :=
            match c with
            | .handshake | .evidence _ => some frame.stamped
            | .heartbeat _ | .goodbye => none }

/-- What the worker makes of the reply it blocked for. -/
def take (k : Conversation) (request reply : Frame) : Conversation :=
  if request.header.type = MessageType.hello then
    { k with worker := (k.worker.takeHelloAck reply).2 }
  else match k.worker.takeEvidenceAck reply with
  | (.ok ack, worker) => { k with worker, acks := k.acks ++ [(request, ack)] }
  | (.error _, worker) => { k with worker }

/-- The receive of a call; it blocks while there is nothing to receive and the channel is open. -/
def hear (k : Conversation) (lost : Bool) : Conversation :=
  match k.waiting with
  | none => k
  | some request =>
    if k.deaf || lost then { k with waiting := none, deaf := true }
    else match k.down with
    | reply :: down => { k with waiting := none, down, heard := k.heard ++ [reply] }.take request reply
    | [] => if k.session.phase.closed then { k with waiting := none, deaf := true } else k

/-- The session's thread takes its next block with this answer of the network. -/
def advance (k : Conversation) (answer : Answer) : Conversation :=
  { k with deployment := k.deployment.step (.session k.channel answer) }

/-- The next block of the session: a receive takes the first frame off the queue and blocks while
    there is none and the worker's end is open; a send that succeeds queues its reply. A connection
    that was not accepted yet is served by nobody. -/
def serve (k : Conversation) (lost : Bool) : Conversation :=
  match k.deployment.sessions[k.channel]? with
  | none => k
  | some s =>
    if s.phase.reads then
      if lost then k.advance {}
      else match k.up with
      | frame :: up => { k with up }.advance { frame := some frame }
      | [] => if k.worker.connected then k else k.advance {}
    else match s.phase.reply s.sequence with
    | some reply =>
      if lost then k.advance { sent := false }
      else { k with down := k.down ++ [reply.frame.stamped] }.advance { sent := true }
    | none => k.advance {}

/-- A step of the worker, of its session's thread, or of any other thread of the deployment. -/
inductive Act where
  | call (c : WorkerCall) (sent : Bool)
  | hear (lost : Bool)
  /-- The worker closes its channel without a goodbye. -/
  | close
  | serve (lost : Bool)
  | elsewhere (act : Mbg.Act)

def step (k : Conversation) : Act → Conversation
  | .call c sent => k.call c sent
  | .hear lost => k.hear lost
  | .close =>
    if k.waiting.isSome then k else { k with worker := { k.worker with connected := false } }
  | .serve lost => k.serve lost
  | .elsewhere act =>
    if act.isOf k.channel then k else { k with deployment := k.deployment.step act }

/-- A worker that has just connected to a coordinator that was just started; the other connections
    are the deployment's own. -/
def start (maxWorkers : ℕ) (authority : AuthorityState) (governor : Governor) (channel : ℕ)
    (config : WorkerConfig) : Conversation :=
  { deployment := Deployment.start maxWorkers authority governor
    channel
    worker := (({} : Worker).connect config (.ok ())).2 }

end Conversation

end Mbg
