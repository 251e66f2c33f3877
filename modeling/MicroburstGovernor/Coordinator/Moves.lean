import MicroburstGovernor.Coordinator.Session

/-! What a step of a session can do: nothing to the registry, an admission, a finish or a retirement. -/

namespace Mbg

namespace Session

/-- The session's `finish` has marked the worker. -/
def finished (s : Session) : Bool :=
  match s.phase with
  | .retiring _ | .ended _ => true
  | _ => false

/-- The session's thread has returned. -/
def hasEnded (s : Session) : Bool :=
  match s.phase with
  | .ended _ => true
  | _ => false

/-- The session finished without a goodbye. -/
def endedUngracefully (s : Session) : Bool :=
  match s.phase with
  | .retiring graceful | .ended graceful => !graceful
  | _ => false

/-- The session has not presented its hello to the registry yet. -/
def opening (s : Session) : Bool :=
  match s.phase with
  | .awaitingHello | .handshaking _ => true
  | _ => false

end Session

namespace Coordinator

/-- What a worker's record says about its connection. -/
def marks (c : Coordinator) (w : WorkerId) : Option (Bool × Bool) :=
  (c.workers.find? w).map fun r => (r.connected, r.fenced)

/-- Nothing that the accounts or the marks depend on has changed. -/
structure Quiet (c c' : Coordinator) : Prop where
  maxWorkers : c'.maxWorkers = c.maxWorkers
  authority : c'.authority = c.authority
  running : c'.running = c.running
  started : c'.started = c.started
  activeSessions : c'.activeSessions = c.activeSessions
  sessionChannels : c'.sessionChannels = c.sessionChannels
  accepted : c'.counters.handshakesAccepted = c.counters.handshakesAccepted
  disconnects : c'.counters.workerDisconnects = c.counters.workerDisconnects
  marks : ∀ w, c'.marks w = c.marks w

theorem Quiet.refl (c : Coordinator) : Quiet c c :=
  ⟨rfl, rfl, rfl, rfl, rfl, rfl, rfl, rfl, fun _ => rfl⟩

/-- Counting anything but handshakes and disconnects, or running the governor. -/
theorem quiet_count (c : Coordinator) (governor : Governor) {counters : CoordinatorStats}
    (haccepted : counters.handshakesAccepted = c.counters.handshakesAccepted)
    (hdisconnects : counters.workerDisconnects = c.counters.workerDisconnects) :
    Quiet c { c with counters, governor } :=
  ⟨rfl, rfl, rfl, rfl, rfl, rfl, haccepted, hdisconnects, fun _ => rfl⟩

section

variable (c : Coordinator) (worker : WorkerId) (change : WorkerRecord → WorkerRecord)

/-- A record that is changed is all that changes. -/
theorem touch_eq : ∃ workers, c.touch worker change = { c with workers } := by
  unfold touch
  cases c.workers.find? worker with
  | none => exact ⟨c.workers, rfl⟩
  | some record => exact ⟨_, rfl⟩

/-- A finish changes records and counters only, and counts a disconnect of an admitted session. -/
theorem finishSession_eq (registered graceful : Bool) : ∃ workers counters,
    c.finishSession registered worker graceful = { c with workers, counters } ∧
      counters.handshakesAccepted = c.counters.handshakesAccepted ∧
      counters.workerDisconnects =
        if registered then c.counters.workerDisconnects + 1 else c.counters.workerDisconnects := by
  unfold finishSession
  cases registered with
  | false => exact ⟨c.workers, c.counters, rfl, rfl, rfl⟩
  | true =>
    dsimp only
    obtain ⟨workers, hworkers⟩ := c.touch_eq worker fun record =>
      { record with
        connected := false
        fenced := !graceful
        fenceAttempt :=
          if graceful then record.fenceAttempt
          else ⟨hashCombine worker.raw (record.frames + 1)⟩ }
    rw [hworkers]
    exact ⟨workers, _, rfl, rfl, rfl⟩

end

theorem marks_touch (c : Coordinator) (worker : WorkerId) {change : WorkerRecord → WorkerRecord}
    (hconnected : ∀ r, (change r).connected = r.connected) (hfenced : ∀ r, (change r).fenced = r.fenced)
    (w : WorkerId) : (c.touch worker change).marks w = c.marks w := by
  rw [touch]
  cases hfind : c.workers.find? worker with
  | none => rfl
  | some record =>
    have hmem : worker ∈ c.workers.keys :=
      UnorderedMap.mem_keys_of_mem (UnorderedMap.find?_eq_some.mp hfind)
    simp only [marks, UnorderedMap.find?_update _ hmem]
    split_ifs with hw
    · rw [hw, hfind, Option.map_some, Option.map_some, hconnected, hfenced]
    · rfl

/-- Changing anything but the marks of a record. -/
theorem quiet_touch (c : Coordinator) (worker : WorkerId) {change : WorkerRecord → WorkerRecord}
    (hconnected : ∀ r, (change r).connected = r.connected)
    (hfenced : ∀ r, (change r).fenced = r.fenced) : Quiet c (c.touch worker change) := by
  have hmarks := c.marks_touch worker hconnected hfenced
  rw [touch] at hmarks ⊢
  cases hfind : c.workers.find? worker with
  | none => exact .refl c
  | some record =>
    rw [hfind] at hmarks
    exact ⟨rfl, rfl, rfl, rfl, rfl, rfl, rfl, rfl, hmarks⟩

end Coordinator

namespace Session

/-- A session that neither opens, finishes nor retires by a step. -/
structure Steady (s s' : Session) : Prop where
  registered : s'.registered = s.registered
  worker : s'.worker = s.worker
  finished : s.finished = false ∧ s'.finished = false ∨ s' = s
  retired : s'.trace.count .retired = s.trace.count .retired
  opening : s'.opening = true → s.opening = true

/-- What a step of a session does to the coordinator and to the session. -/
inductive Move (c : Coordinator) (id : ℕ) (s : Session) : Coordinator → Session → Prop where
  | quiet {c' : Coordinator} {s' : Session} (hc : c.Quiet c') (hs : s.Steady s') : Move c id s c' s'
  | admitted {s' : Session} {hello : HelloRequest} {response : HelloResponse}
      (hphase : s.phase = .handshaking hello) (hregistered : s'.registered = true)
      (hworker : s'.worker = hello.worker) (htrace : s'.trace = s.trace)
      (hnext : s'.phase = .acknowledging response) : Move c id s (c.acceptWorker hello) s'
  | finished {graceful : Bool} (hphase : s.phase = .finishing graceful) :
      Move c id s (c.finishSession s.registered s.worker graceful) (s.goto (.retiring graceful))
  | retired {graceful : Bool} (hphase : s.phase = .retiring graceful) :
      Move c id s (c.retireSession id) ((s.record .retired).goto (.ended graceful))

section

variable {c : Coordinator} {id : ℕ} {s : Session}

/-- Moving on between blocks that are neither the last two nor the first two. -/
theorem steady_goto {phase : SessionPhase} (hs : s.finished = false)
    (hfinished : (s.goto phase).finished = false)
    (hopening : (s.goto phase).opening = true → s.opening = true) : s.Steady (s.goto phase) :=
  ⟨rfl, rfl, Or.inl ⟨hs, hfinished⟩, rfl, hopening⟩

theorem steady_record {phase : SessionPhase} {event : SessionEvent} (hs : s.finished = false)
    (hevent : event ≠ .retired) (hfinished : (s.goto phase).finished = false)
    (hopening : (s.goto phase).opening = true → s.opening = true) :
    s.Steady ((s.record event).goto phase) := by
  refine ⟨rfl, rfl, Or.inl ⟨hs, hfinished⟩, ?_, hopening⟩
  simp [record, goto, List.count_append, hevent]

theorem move_receiveHello (hphase : s.phase = .awaitingHello) (frame : Option Frame) :
    Move c id s (receiveHello c s frame).1 (receiveHello c s frame).2 := by
  have hfinished : s.finished = false := by rw [finished, hphase]
  have hopening : s.opening = true := by rw [opening, hphase]
  have hrejected : c.Quiet c.countRejected := c.quiet_count c.governor rfl rfl
  have hstop : s.Steady ((s.record (.received frame)).goto (.finishing false)) :=
    steady_record hfinished (by simp) rfl (fun _ => hopening)
  unfold receiveHello
  cases frame with
  | none => exact .quiet hrejected hstop
  | some frame =>
    dsimp only
    split_ifs
    · exact .quiet hrejected hstop
    · split
      · exact .quiet hrejected hstop
      · exact .quiet (.refl c) (steady_record hfinished (by simp) rfl (fun _ => hopening))

theorem move_handshake {hello : HelloRequest} (hphase : s.phase = .handshaking hello) :
    Move c id s (handshake c s hello).1 (handshake c s hello).2 := by
  have hfinished : s.finished = false := by rw [finished, hphase]
  have hopening : s.opening = true := by rw [opening, hphase]
  have hstop : ∀ response, s.Steady (s.goto (.acknowledging response)) := fun response =>
    steady_goto hfinished rfl (fun _ => hopening)
  rw [handshake]
  dsimp only
  split
  · exact .quiet (c.quiet_count c.governor rfl rfl) (hstop _)
  · exact .quiet (c.quiet_count c.governor rfl rfl) (hstop _)
  · exact .quiet (c.quiet_count c.governor rfl rfl) (hstop _)
  · split_ifs
    · exact .quiet (c.quiet_count c.governor rfl rfl) (hstop _)
    · exact .admitted hphase rfl rfl rfl rfl
  · exact .quiet (c.quiet_count c.governor rfl rfl) (hstop _)
  · exact .quiet (c.quiet_count c.governor rfl rfl) (hstop _)

theorem move_acknowledging {response : HelloResponse} (hphase : s.phase = .acknowledging response)
    (ok : Bool) : Move c id s c (s.acknowledge response ok) := by
  have hfinished : s.finished = false := by rw [finished, hphase]
  have hretired : (s.record (.sent (.helloAck response) ok)).trace.count .retired =
      s.trace.count .retired := by simp [record, List.count_append]
  unfold acknowledge
  dsimp only
  split_ifs
  · exact .quiet (.refl c) ⟨rfl, rfl, Or.inl ⟨hfinished, rfl⟩, hretired, fun h => by cases h⟩
  · exact .quiet (.refl c) ⟨rfl, rfl, Or.inl ⟨hfinished, rfl⟩, hretired, fun h => by cases h⟩
  · exact .quiet (.refl c) ⟨rfl, rfl, Or.inl ⟨hfinished, rfl⟩, hretired, fun h => by cases h⟩

theorem move_receiveFrame (hphase : s.phase = .receiving) (frame : Option Frame) :
    Move c id s (receiveFrame c s frame).1 (receiveFrame c s frame).2 := by
  have hfinished : s.finished = false := by rw [finished, hphase]
  have hretired : (s.record (.received frame)).trace.count .retired = s.trace.count .retired := by
    simp [record, List.count_append]
  unfold receiveFrame
  cases frame with
  | none =>
    exact .quiet (.refl c) ⟨rfl, rfl, Or.inl ⟨hfinished, rfl⟩, hretired, fun h => by cases h⟩
  | some frame =>
    exact .quiet (c.quiet_count c.governor rfl rfl)
      ⟨rfl, rfl, Or.inl ⟨hfinished, rfl⟩, hretired, fun h => by cases h⟩

theorem move_refuse (hs : s.finished = false) (code : StatusCode) (detail : String) :
    Move c id s (refuse c s code detail).1 (refuse c s code detail).2 :=
  .quiet (c.quiet_count c.governor rfl rfl) (steady_goto hs rfl (fun h => by cases h))

theorem move_fenceStale (hs : s.finished = false) :
    Move c id s (fenceStale c s).1 (fenceStale c s).2 :=
  .quiet (c.quiet_count c.governor rfl rfl) (steady_goto hs rfl (fun h => by cases h))

theorem move_handleFrame {frame : Frame} (hphase : s.phase = .handling frame) :
    Move c id s (handleFrame c s frame).1 (handleFrame c s frame).2 := by
  have hfinished : s.finished = false := by rw [finished, hphase]
  have hon : ∀ {phase}, (s.goto phase).finished = false → (s.goto phase).opening = false →
      Move c id s c (s.goto phase) := fun h hopen =>
    .quiet (.refl c) (steady_goto hfinished h (fun h' => by rw [hopen] at h'; cases h'))
  unfold handleFrame
  split_ifs
  · split
    · exact move_refuse hfinished _ _
    · split_ifs
      · exact move_fenceStale hfinished
      · exact hon rfl rfl
  · split
    · exact move_refuse hfinished _ _
    · split_ifs
      · exact move_fenceStale hfinished
      · exact hon rfl rfl
  · exact hon rfl rfl
  · exact move_refuse hfinished _ _
  · exact hon rfl rfl

theorem move_ingestSample {sample : Sample} {rest : List Sample} {ack : EvidenceAck}
    (hphase : s.phase = .ingesting (sample :: rest) ack) :
    Move c id s (ingestSample c s sample rest ack).1 (ingestSample c s sample rest ack).2 := by
  have hfinished : s.finished = false := by rw [finished, hphase]
  unfold ingestSample
  generalize c.governor.ingest sample = ingested
  obtain ⟨outcome, governor⟩ := ingested
  dsimp only
  split
  · refine .quiet (c.quiet_count governor rfl rfl) (steady_record hfinished (by simp) ?_ ?_)
    · split_ifs <;> rfl
    · split_ifs <;> intro h <;> cases h
  · exact .quiet (c.quiet_count governor rfl rfl)
      (steady_record hfinished (by simp) rfl (fun h => by cases h))

/-- STEP: what a block of `run_session` can do. -/
theorem move_step (c : Coordinator) (id : ℕ) (s : Session) (answer : Answer) :
    Move c id s (s.step c id answer).1 (s.step c id answer).2 := by
  have hcontinue : ∀ {phase}, s.finished = false → (s.goto phase).finished = false →
      (s.goto phase).opening = false → s.Steady (s.goto phase) := fun hs h hopen =>
    steady_goto hs h (fun h' => by rw [hopen] at h'; cases h')
  unfold step
  split
  case h_1 hphase => exact move_receiveHello hphase answer.frame
  case h_2 hello hphase => exact move_handshake hphase
  case h_3 response hphase => exact move_acknowledging hphase answer.sent
  case h_4 hphase =>
    have hfinished : s.finished = false := by rw [finished, hphase]
    refine .quiet (.refl c) (hcontinue hfinished ?_ ?_)
    · split_ifs <;> rfl
    · split_ifs <;> rfl
  case h_5 hphase => exact move_receiveFrame hphase answer.frame
  case h_6 frame hphase =>
    have hfinished : s.finished = false := by rw [finished, hphase]
    exact .quiet (c.quiet_touch s.worker (fun _ => rfl) (fun _ => rfl)) (hcontinue hfinished rfl rfl)
  case h_7 frame hphase => exact move_handleFrame hphase
  case h_8 tick hphase =>
    have hfinished : s.finished = false := by rw [finished, hphase]
    exact .quiet (c.quiet_touch s.worker (fun _ => rfl) (fun _ => rfl)) (hcontinue hfinished rfl rfl)
  case h_9 ack hphase =>
    have hfinished : s.finished = false := by rw [finished, hphase]
    exact .quiet (.refl c) (hcontinue hfinished rfl rfl)
  case h_10 sample rest ack hphase => exact move_ingestSample hphase
  case h_11 tick rest ack hphase =>
    have hfinished : s.finished = false := by rw [finished, hphase]
    exact .quiet (c.quiet_touch s.worker (fun _ => rfl) (fun _ => rfl)) (hcontinue hfinished rfl rfl)
  case h_12 ack hphase =>
    have hfinished : s.finished = false := by rw [finished, hphase]
    refine .quiet (.refl c) (steady_record hfinished (by simp) ?_ ?_)
    · split_ifs <;> rfl
    · split_ifs <;> intro h <;> cases h
  case h_13 reply hphase =>
    have hfinished : s.finished = false := by rw [finished, hphase]
    exact .quiet (.refl c) (steady_record hfinished (by simp) rfl (fun h => by cases h))
  case h_14 graceful hphase => exact .finished hphase
  case h_15 graceful hphase => exact .retired hphase
  case h_16 graceful hphase =>
    exact .quiet (.refl c) ⟨rfl, rfl, Or.inr rfl, rfl, fun h => h⟩

end

end Session

end Mbg
