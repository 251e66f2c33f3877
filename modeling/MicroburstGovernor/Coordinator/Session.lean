import MicroburstGovernor.Coordinator.Authority
import MicroburstGovernor.Transport.Payloads

/-! The coordinator: its accept loop and its sessions, one mutex-protected block a step.

    Every connection has a thread of its own that runs `run_session`. A thread stands in front of its
    next block: a critical section, a call into the governor, a receive or a send. What the network
    answers is the environment's choice.

        awaitingHello ─▶ handshaking ─▶ acknowledging ─▶ looping ─▶ receiving ─▶ counting ─▶ handling
              │                              │             ▲  │         │                      │
              │                              │             └──┼─────────┼── noting, ingesting ─┤
              └──────────────────────────────┴────────────────┴─────────┴─▶ finishing ─▶ retiring ─▶ ended -/

namespace Mbg

/-! ### Claims -/

/-- Why a claim was refused. -/
inductive ClaimVerdict where
  | accepted | versionMismatch | epochMismatch | bootMismatch | notBound | malformed
  deriving DecidableEq, Repr

/-- Validates a claim against the authority in force; the incarnation is not compared. -/
def validateClaim (current claim : AuthorityState) (claimed expected : UInt16) : ClaimVerdict :=
  if !current.valid then .notBound
  else if claimed ≠ expected then .versionMismatch
  else if !claim.epoch.valid ∨ claim.epoch.raw = 0 then .malformed
  else if claim.epoch ≠ current.epoch then .epochMismatch
  else if claim.boot ≠ current.boot then .bootMismatch
  else .accepted

/-! ### The coordinator object -/

/-- What the coordinator knows about one worker. -/
structure WorkerRecord where
  id : WorkerId := default
  incarnation : IncarnationId := default
  boot : BootId := default
  epoch : Epoch := default
  firstTick : Tick := {}
  lastTick : Tick := {}
  frames : UInt64 := 0
  samples : UInt64 := 0
  connected : Bool := false
  fenced : Bool := false
  handshake : HandshakeStatus := .accepted
  fenceAttempt : AttemptId := default
  deriving DecidableEq, Repr, Inhabited

structure CoordinatorStats where
  connectionsAccepted : UInt64 := 0
  handshakesAccepted : UInt64 := 0
  handshakesRejected : UInt64 := 0
  staleEpochRejections : UInt64 := 0
  staleBootRejections : UInt64 := 0
  versionRejections : UInt64 := 0
  capacityRejections : UInt64 := 0
  protocolErrors : UInt64 := 0
  framesReceived : UInt64 := 0
  framesRejected : UInt64 := 0
  samplesIngested : UInt64 := 0
  samplesRejected : UInt64 := 0
  workersFenced : UInt64 := 0
  workerDisconnects : UInt64 := 0
  deriving DecidableEq, Repr, Inhabited

/-- The coordinator between `start` and `stop`: what its threads share. A channel is known by the
    number of its connection. -/
structure Coordinator where
  maxWorkers : ℕ := Limits.maxConnections
  epoch : Epoch := default
  incarnation : IncarnationId := default
  boot : BootId := default
  running : Bool := false
  started : Bool := false
  activeSessions : ℕ := 0
  sessionChannels : List ℕ := []
  workers : UnorderedMap WorkerId WorkerRecord := UnorderedMap.empty
  counters : CoordinatorStats := {}
  governor : Governor := {}

namespace Coordinator

def authority (c : Coordinator) : AuthorityState := ⟨c.epoch, c.incarnation, c.boot⟩

/-- Changes the record of a worker that has one. -/
def touch (c : Coordinator) (worker : WorkerId) (change : WorkerRecord → WorkerRecord) :
    Coordinator :=
  match c.workers.find? worker with
  | none => c
  | some record => { c with workers := c.workers.update worker (change record) }

def registerSession (c : Coordinator) (channel : ℕ) : Coordinator :=
  { c with
    activeSessions := c.activeSessions + 1
    sessionChannels := c.sessionChannels ++ [channel] }

def retireSession (c : Coordinator) (channel : ℕ) : Coordinator :=
  { c with
    activeSessions := if c.activeSessions > 0 then c.activeSessions - 1 else c.activeSessions
    sessionChannels := c.sessionChannels.erase channel }

/-- The record of a worker that is admitted. -/
def admittedRecord (hello : HelloRequest) : WorkerRecord :=
  { id := hello.worker, incarnation := hello.incarnation, boot := hello.boot, epoch := hello.epoch,
    firstTick := hello.firstTick, lastTick := hello.firstTick, connected := true, fenced := false,
    handshake := .accepted }

/-- There is no room for this worker: the registry is full and does not know it. -/
def registryFull (c : Coordinator) (worker : WorkerId) : Bool :=
  c.workers.size ≥ c.maxWorkers && !c.workers.contains worker

def acceptWorker (c : Coordinator) (hello : HelloRequest) : Coordinator :=
  { c with
    workers := c.workers.assign (.back _) hello.worker (admittedRecord hello)
    counters :=
      { c.counters with handshakesAccepted := c.counters.handshakesAccepted + 1 } }

/-- The first block of `finish`: the worker's record is marked, whoever it belongs to. -/
def finishSession (c : Coordinator) (registered : Bool) (worker : WorkerId) (graceful : Bool) :
    Coordinator :=
  if !registered then c
  else
    let fence (record : WorkerRecord) : WorkerRecord :=
      { record with
        connected := false
        fenced := !graceful
        fenceAttempt :=
          if graceful then record.fenceAttempt
          else ⟨hashCombine worker.raw (record.frames + 1)⟩ }
    let fencing := !graceful && c.workers.contains worker
    let c := c.touch worker fence
    { c with
      counters :=
        { c.counters with
          workersFenced :=
            if fencing then c.counters.workersFenced + 1 else c.counters.workersFenced
          workerDisconnects := c.counters.workerDisconnects + 1 } }

def countRejected (c : Coordinator) : Coordinator :=
  { c with
    counters := { c.counters with handshakesRejected := c.counters.handshakesRejected + 1 } }

end Coordinator

/-! ### Sessions -/

/-- The block a session's thread executes next. -/
inductive SessionPhase where
  | awaitingHello
  | handshaking (hello : HelloRequest)
  | acknowledging (response : HelloResponse)
  | looping
  | receiving
  | counting (frame : Frame)
  | handling (frame : Frame)
  | noting (tick : Tick)
  | ingesting (samples : List Sample) (ack : EvidenceAck)
  | crediting (tick : Tick) (samples : List Sample) (ack : EvidenceAck)
  | answering (ack : EvidenceAck)
  | refusing (reply : Reply)
  | finishing (graceful : Bool)
  | retiring (graceful : Bool)
  | ended (graceful : Bool)
  deriving DecidableEq

/-- What a session does that the outside sees. Nothing reads it: it is what a property about a whole
    session speaks about. -/
inductive SessionEvent where
  | received (frame : Option Frame)
  | sent (reply : Reply) (ok : Bool)
  | ingested (sample : Sample) (accepted : Bool)
  | retired
  deriving DecidableEq

/-- The local variables of `run_session`, its place in it, and what it did so far. -/
structure Session where
  phase : SessionPhase := .awaitingHello
  worker : WorkerId := default
  registered : Bool := false
  sequence : FrameSeq := ⟨1⟩
  trace : List SessionEvent := []
  deriving DecidableEq

/-- What the network answers to a receive and to a send. -/
structure Answer where
  frame : Option Frame := none
  sent : Bool := true

namespace Session

/-- The thread moves on to its next block. -/
def goto (s : Session) (phase : SessionPhase) : Session := { s with phase }

def record (s : Session) (event : SessionEvent) : Session := { s with trace := s.trace ++ [event] }

/-- The first receive: a frame that is not a well-formed hello ends the session. -/
def receiveHello (c : Coordinator) (s : Session) (frame : Option Frame) : Coordinator × Session :=
  let s := s.record (.received frame)
  match frame with
  | none => (c.countRejected, s.goto (.finishing false))
  | some frame =>
    if frame.header.type ≠ MessageType.hello then (c.countRejected, s.goto (.finishing false))
    else match (decodeHello (.of frame.payload)).1 with
    | .error _ => (c.countRejected, s.goto (.finishing false))
    | .ok hello => (c, s.goto (.handshaking hello))

/-- Validates the claim of a hello and, if it is accepted, admits the worker. -/
def handshake (c : Coordinator) (s : Session) (hello : HelloRequest) : Coordinator × Session :=
  let response (status : HandshakeStatus) : HelloResponse :=
    { status, epoch := c.epoch, coordinator := c.incarnation, boot := c.boot,
      maxPayloadBytes := Limits.maxFramePayloadBytes }
  let counters := c.counters
  match validateClaim c.authority ⟨hello.epoch, hello.incarnation, hello.boot⟩ hello.protocol
      wireProtocolVersion with
  | .versionMismatch =>
    ({ c with
        counters := { counters with versionRejections := counters.versionRejections + 1 } }.countRejected,
      s.goto (.acknowledging (response .versionMismatch)))
  | .epochMismatch =>
    ({ c with
        counters :=
          { counters with staleEpochRejections := counters.staleEpochRejections + 1 } }.countRejected,
      s.goto (.acknowledging (response .staleEpoch)))
  | .bootMismatch =>
    ({ c with
        counters :=
          { counters with staleBootRejections := counters.staleBootRejections + 1 } }.countRejected,
      s.goto (.acknowledging (response .staleBoot)))
  | .accepted =>
    if c.registryFull hello.worker then
      ({ c with
          counters :=
            { counters with capacityRejections := counters.capacityRejections + 1 } }.countRejected,
        s.goto (.acknowledging (response .capacityExceeded)))
    else
      (c.acceptWorker hello,
        { s with
          worker := hello.worker, registered := true
          phase := .acknowledging (response .accepted) })
  | .notBound | .malformed => (c.countRejected, s.goto (.acknowledging (response .malformed)))

/-- The handshake is answered; only an admitted session goes on. -/
def acknowledge (s : Session) (response : HelloResponse) (ok : Bool) : Session :=
  let s := s.record (.sent (.helloAck response) ok)
  if !ok then s.goto (.finishing false)
  else if response.status ≠ .accepted then s.goto (.finishing false)
  else { s with sequence := ⟨1⟩, phase := .looping }

/-- A frame of the receive loop, or the end of the connection. -/
def receiveFrame (c : Coordinator) (s : Session) (frame : Option Frame) : Coordinator × Session :=
  let s := s.record (.received frame)
  match frame with
  | none => (c, s.goto (.finishing false))
  | some frame =>
    ({ c with
        counters := { c.counters with framesReceived := c.counters.framesReceived + 1 } },
      { s with sequence := ⟨s.sequence.raw + 1⟩, phase := .counting frame })

/-- An error is answered, and the session ends. -/
def refuse (c : Coordinator) (s : Session) (code : StatusCode) (detail : String) :
    Coordinator × Session :=
  ({ c with
      counters :=
        { c.counters with
          framesRejected := c.counters.framesRejected + 1
          protocolErrors := c.counters.protocolErrors + 1 } },
    s.goto (.refusing (.error code detail)))

/-- A stale epoch is answered by a fence, and the session ends. -/
def fenceStale (c : Coordinator) (s : Session) : Coordinator × Session :=
  ({ c with
      counters :=
        { c.counters with staleEpochRejections := c.counters.staleEpochRejections + 1 } },
    s.goto (.refusing (.fence s.sequence
      { epoch := c.epoch, coordinator := c.incarnation
        attempt := ⟨hashCombine s.worker.raw s.sequence.raw⟩ })))

/-- The switch over the type of a received frame. -/
def handleFrame (c : Coordinator) (s : Session) (frame : Frame) : Coordinator × Session :=
  if frame.header.type = MessageType.heartbeat then
    match (decodeHeartbeat (.of frame.payload)).1 with
    | .error _ => refuse c s .corrupt "heartbeat payload invalid"
    | .ok heartbeat =>
      if heartbeat.epoch ≠ c.epoch then fenceStale c s else (c, s.goto (.noting heartbeat.tick))
  else if frame.header.type = MessageType.evidence then
    match (decodeBatch (.of frame.payload)).1 with
    | .error e => refuse c s e.code e.detail
    | .ok batch =>
      if batch.epoch ≠ c.epoch then fenceStale c s
      else (c, s.goto (.ingesting batch.samples { seq := frame.header.seq, epoch := c.epoch }))
  else if frame.header.type = MessageType.goodbye then (c, s.goto (.finishing true))
  else if isValidMessageType frame.header.type.raw then
    refuse c s .protocol "unexpected message type"
  else (c, s.goto .looping)

/-- One sample of a batch goes to the governor. -/
def ingestSample (c : Coordinator) (s : Session) (sample : Sample) (rest : List Sample)
    (ack : EvidenceAck) : Coordinator × Session :=
  let (outcome, governor) := c.governor.ingest sample
  match outcome.status with
  | .ok () =>
    let ack :=
      { ack with accepted := ack.accepted + 1, classification := outcome.classification.raw }
    ({ c with
        governor
        counters := { c.counters with samplesIngested := c.counters.samplesIngested + 1 } },
      (s.record (.ingested sample true)).goto
        (if sample.tick.value > 0 then .crediting sample.tick rest ack else .ingesting rest ack))
  | .error _ =>
    ({ c with
        governor
        counters := { c.counters with samplesRejected := c.counters.samplesRejected + 1 } },
      (s.record (.ingested sample false)).goto
        (.ingesting rest { ack with rejected := ack.rejected + 1 }))

/-- The next block of the session on channel `id`. -/
def step (c : Coordinator) (id : ℕ) (s : Session) (answer : Answer) : Coordinator × Session :=
  match s.phase with
  | .awaitingHello => receiveHello c s answer.frame
  | .handshaking hello => handshake c s hello
  | .acknowledging response => (c, s.acknowledge response answer.sent)
  | .looping => (c, s.goto (if c.running then .receiving else .finishing false))
  | .receiving => receiveFrame c s answer.frame
  | .counting frame =>
    (c.touch s.worker fun r => { r with frames := r.frames + 1 }, s.goto (.handling frame))
  | .handling frame => handleFrame c s frame
  | .noting tick => (c.touch s.worker fun r => { r with lastTick := tick }, s.goto .looping)
  | .ingesting [] ack => (c, s.goto (.answering ack))
  | .ingesting (sample :: rest) ack => ingestSample c s sample rest ack
  | .crediting tick rest ack =>
    (c.touch s.worker fun r => { r with lastTick := tick, samples := r.samples + 1 },
      s.goto (.ingesting rest ack))
  | .answering ack =>
    (c, (s.record (.sent (.evidenceAck s.sequence ack) answer.sent)).goto
      (if answer.sent then .looping else .finishing false))
  | .refusing reply => (c, (s.record (.sent reply answer.sent)).goto (.finishing false))
  | .finishing graceful =>
    (c.finishSession s.registered s.worker graceful, s.goto (.retiring graceful))
  | .retiring graceful => (c.retireSession id, (s.record .retired).goto (.ended graceful))
  | .ended _ => (c, s)

end Session

/-! ### The threads together -/

/-- Where the accept loop stands. -/
inductive AcceptPhase where
  | looping | accepting | connected | checking | registering | exited
  deriving DecidableEq, Repr

/-- Where the thread that stops the coordinator stands. -/
inductive StopPhase where
  | notCalled | joining | draining | stopped
  deriving DecidableEq, Repr

/-- The coordinator with its threads; session `i` runs on channel `i`, which is `sessions[i]`. -/
structure Deployment where
  coordinator : Coordinator := {}
  acceptLoop : AcceptPhase := .looping
  stopping : StopPhase := .notCalled
  sessions : List Session := []
  /-- The workers admitted and their sessions, in that order. Nothing reads it. -/
  admissions : List (WorkerId × ℕ) := []

/-- A step of one of the threads. -/
inductive Act where
  | session (id : ℕ) (answer : Answer)
  /-- The accept loop; `connection` is what the listener answers. -/
  | accept (connection : Bool)
  | stop

namespace Deployment

/-- A coordinator that has just been started, with this configuration and this authority. -/
def start (maxWorkers : ℕ) (authority : AuthorityState) (governor : Governor) : Deployment :=
  { coordinator :=
      { maxWorkers, epoch := authority.epoch, incarnation := authority.incarnation
        boot := authority.boot, running := true, started := true, governor } }

def stepSession (d : Deployment) (id : ℕ) (answer : Answer) : Deployment :=
  match d.sessions[id]? with
  | none => d
  | some s =>
    let (coordinator, s') := s.step d.coordinator id answer
    { d with
      coordinator
      sessions := d.sessions.set id s'
      admissions :=
        if s'.registered && !s.registered then d.admissions ++ [(s'.worker, id)]
        else d.admissions }

/-- The next block of `run_accept_loop`. -/
def stepAccept (d : Deployment) (connection : Bool) : Deployment :=
  let c := d.coordinator
  match d.acceptLoop with
  | .looping => { d with acceptLoop := if c.running then .accepting else .exited }
  | .accepting => { d with acceptLoop := if connection then .connected else .exited }
  | .connected =>
    if !c.running then { d with acceptLoop := .exited }
    else
      { d with
        coordinator :=
          { c with
            counters :=
              { c.counters with connectionsAccepted := c.counters.connectionsAccepted + 1 } }
        acceptLoop := .checking }
  | .checking =>
    if c.activeSessions ≥ c.maxWorkers then
      { d with
        coordinator :=
          { c with
            counters :=
              { c.counters with capacityRejections := c.counters.capacityRejections + 1 } }
        acceptLoop := .looping }
    else { d with acceptLoop := .registering }
  | .registering =>
    -- the thread is spawned behind the block; until it is scheduled it awaits its hello
    { d with
      coordinator := c.registerSession d.sessions.length
      sessions := d.sessions ++ [{}]
      acceptLoop := .looping }
  | .exited => d

/-- The next block of `stop`, which waits where its condition does not hold yet. -/
def stepStop (d : Deployment) : Deployment :=
  let c := d.coordinator
  match d.stopping with
  | .notCalled =>
    { d with coordinator := { c with running := false }, stopping := .joining }
  | .joining => if d.acceptLoop = .exited then { d with stopping := .draining } else d
  | .draining =>
    if c.activeSessions = 0 then
      { d with
        coordinator := { c with sessionChannels := [], started := false }
        stopping := .stopped }
    else d
  | .stopped => d

def step (d : Deployment) : Act → Deployment
  | .session id answer => d.stepSession id answer
  | .accept connection => d.stepAccept connection
  | .stop => d.stepStop

/-- `wait_for_sessions` returns in this state. -/
def waitReturns (d : Deployment) : Prop :=
  d.coordinator.started = false ∨ d.coordinator.activeSessions = 0

end Deployment

end Mbg
