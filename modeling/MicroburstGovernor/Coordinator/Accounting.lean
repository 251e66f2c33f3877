import MicroburstGovernor.Coordinator.Moves
import MicroburstGovernor.Lib.Runs

/-! Session accounting: what the coordinator's counters say about its threads, at every step. -/

namespace Mbg

/-! ### Counting in a list that is overwritten in one place -/

/-- One element of a list is exchanged: a count changes by what the two elements count for. -/
theorem countP_exchange {α : Type*} (p : α → Bool) {l : List α} {i : ℕ} {a b : α}
    (h : l[i]? = some a) :
    (l.set i b).countP p + (if p a then 1 else 0) = l.countP p + (if p b then 1 else 0) := by
  obtain ⟨hi, rfl⟩ := List.getElem?_eq_some_iff.mp h
  have hle := List.boole_getElem_le_countP (p := p) hi
  rw [List.countP_set hi]
  omega

theorem toUInt64_succ (n : ℕ) : (n + 1).toUInt64 = n.toUInt64 + 1 := UInt64.ofNat_add n 1

namespace Deployment

/-- The thread of this session is running. -/
def Running (d : Deployment) (id : ℕ) : Prop := ∃ s, d.sessions[id]? = some s ∧ s.hasEnded = false

/-- An admitted session whose `finish` has not been counted yet. -/
def admittedRunning (s : Session) : Bool := s.registered && !s.finished

/-- THE INVARIANT: the counters and the channel list against the threads. -/
structure Balanced (d : Deployment) : Prop where
  nodup : d.coordinator.sessionChannels.Nodup
  channels : ∀ id, id ∈ d.coordinator.sessionChannels ↔ d.Running id
  active : d.coordinator.activeSessions = d.coordinator.sessionChannels.length
  counted : d.coordinator.activeSessions = d.sessions.countP fun s => !s.hasEnded
  bounded : d.coordinator.activeSessions ≤ d.coordinator.maxWorkers
  registering : d.acceptLoop = .registering →
    d.coordinator.activeSessions < d.coordinator.maxWorkers
  retired : ∀ s ∈ d.sessions, s.trace.count .retired = if s.hasEnded then 1 else 0
  opening : ∀ s ∈ d.sessions, s.opening = true → s.registered = false
  balance : d.coordinator.counters.handshakesAccepted =
    d.coordinator.counters.workerDisconnects + (d.sessions.countP admittedRunning).toUInt64
  exited : d.stopping = .draining ∨ d.stopping = .stopped → d.acceptLoop = .exited
  stopped : d.stopping = .stopped → d.coordinator.activeSessions = 0
  started : d.coordinator.started = false → d.stopping = .stopped

theorem balanced_start (maxWorkers : ℕ) (authority : AuthorityState) (governor : Governor) :
    (start maxWorkers authority governor).Balanced where
  nodup := List.nodup_nil
  channels id := by simp [start, Running]
  active := rfl
  counted := rfl
  bounded := Nat.zero_le _
  registering h := by cases h
  retired := by simp [start]
  opening := by simp [start]
  balance := rfl
  exited h := by rcases h with h | h <;> cases h
  stopped h := by cases h
  started h := by cases h

section

variable {d : Deployment} {id : ℕ} {s s' : Session} {c' : Coordinator}

theorem hasEnded_of_not_finished (h : s.finished = false) : s.hasEnded = false := by
  unfold Session.finished at h
  unfold Session.hasEnded
  split at h
  · cases h
  · cases h
  · rename_i hno
    split
    · rename_i graceful hphase
      exact absurd hphase (hno graceful)
    · rfl

/-- The sessions after one of them moved on. -/
theorem mem_set_sessions {t : Session} (ht : t ∈ d.sessions.set id s') :
    t = s' ∨ t ∈ d.sessions := by
  rcases List.mem_or_eq_of_mem_set ht with h | h
  · exact Or.inr h
  · exact Or.inl h

theorem running_set (hs : d.sessions[id]? = some s) {d' : Deployment}
    (hd' : d'.sessions = d.sessions.set id s') (hended : s'.hasEnded = s.hasEnded) (i : ℕ) :
    d'.Running i ↔ d.Running i := by
  obtain ⟨hid, -⟩ := List.getElem?_eq_some_iff.mp hs
  rw [Running, Running, hd']
  by_cases hi : id = i
  · subst hi
    simp [List.getElem?_set_self hid, hs, hended]
  · rw [List.getElem?_set_ne hi]

/-- A session that goes on, or has gone, changes no account of the running ones. -/
theorem Balanced.keep (h : d.Balanced) (hs : d.sessions[id]? = some s)
    (hmax : c'.maxWorkers = d.coordinator.maxWorkers)
    (hstarted : c'.started = d.coordinator.started)
    (hactive : c'.activeSessions = d.coordinator.activeSessions)
    (hchannels : c'.sessionChannels = d.coordinator.sessionChannels)
    (hended : s'.hasEnded = s.hasEnded)
    (hretired : s'.trace.count .retired = s.trace.count .retired)
    (hopening : s'.opening = true → s'.registered = false)
    (hbalance : c'.counters.handshakesAccepted = c'.counters.workerDisconnects +
      ((d.sessions.set id s').countP admittedRunning).toUInt64)
    (admissions : List (WorkerId × ℕ)) :
    Balanced { d with coordinator := c', sessions := d.sessions.set id s', admissions } := by
  have hmem : s ∈ d.sessions := List.mem_of_getElem? hs
  have hcount := countP_exchange (b := s') (fun s => !s.hasEnded) hs
  rw [hended] at hcount
  refine ⟨?_, fun i => ?_, ?_, ?_, ?_, fun hreg => ?_, fun t ht => ?_, fun t ht hopen => ?_,
    hbalance, h.exited, fun hstop => ?_, fun hstart => ?_⟩
  · rw [hchannels]
    exact h.nodup
  · rw [running_set hs rfl hended, hchannels]
    exact h.channels i
  · rw [hactive, hchannels]
    exact h.active
  · rw [hactive, h.counted]
    dsimp only
    omega
  · rw [hactive, hmax]
    exact h.bounded
  · rw [hactive, hmax]
    exact h.registering hreg
  · rcases mem_set_sessions ht with rfl | ht
    · rw [hretired, hended]
      exact h.retired s hmem
    · exact h.retired t ht
  · rcases mem_set_sessions ht with rfl | ht
    · exact hopening hopen
    · exact h.opening t ht hopen
  · rw [hactive]
    exact h.stopped hstop
  · rw [hstarted] at hstart
    exact h.started hstart

/-- A session that retires gives its place back. -/
theorem Balanced.retire (h : d.Balanced) (hs : d.sessions[id]? = some s) {graceful : Bool}
    (hphase : s.phase = .retiring graceful) (admissions : List (WorkerId × ℕ)) :
    Balanced { d with
      coordinator := d.coordinator.retireSession id
      sessions := d.sessions.set id ((s.record .retired).goto (.ended graceful)), admissions } := by
  have hmem : s ∈ d.sessions := List.mem_of_getElem? hs
  have hrunning : s.hasEnded = false := by rw [Session.hasEnded, hphase]
  obtain ⟨hid, -⟩ := List.getElem?_eq_some_iff.mp hs
  have hchannel : id ∈ d.coordinator.sessionChannels := (h.channels id).mpr ⟨s, hs, hrunning⟩
  have hlen := List.length_pos_of_mem hchannel
  have hactive := h.active
  have hcount := countP_exchange (b := (s.record .retired).goto (.ended graceful))
    (fun s => !s.hasEnded) hs
  have hadmitted := countP_exchange (b := (s.record .retired).goto (.ended graceful))
    admittedRunning hs
  have hgone : ((s.record .retired).goto (.ended graceful)).hasEnded = true := rfl
  have hdone : s.finished = true := by rw [Session.finished, hphase]
  have hdone' : ((s.record .retired).goto (.ended graceful)).finished = true := rfl
  simp only [hrunning, hgone, Bool.not_false, Bool.not_true, if_true, Bool.false_eq_true,
    if_false] at hcount
  simp only [admittedRunning, hdone, hdone', Bool.not_true, Bool.and_false, Bool.false_eq_true,
    if_false] at hadmitted
  have hleft : (d.coordinator.retireSession id).activeSessions =
      d.coordinator.activeSessions - 1 := by
    rw [Coordinator.retireSession]
    dsimp only
    rw [if_pos (by omega)]
  refine ⟨h.nodup.erase id, fun i => ?_, ?_, ?_, ?_, fun hreg => ?_, fun t ht => ?_,
    fun t ht hopen => ?_, ?_, h.exited, fun hstop => ?_, h.started⟩
  · rw [Coordinator.retireSession]
    dsimp only
    rw [h.nodup.mem_erase_iff, h.channels, Running, Running]
    by_cases hi : i = id
    · subst hi
      simp [List.getElem?_set_self hid, hgone]
    · rw [List.getElem?_set_ne (fun h => hi h.symm)]
      simp [hi]
  · rw [hleft, Coordinator.retireSession]
    dsimp only
    rw [List.length_erase_of_mem hchannel, hactive]
  · rw [hleft, h.counted]
    dsimp only
    omega
  · have := h.bounded
    rw [hleft]
    exact Nat.le_trans (Nat.sub_le _ _) this
  · have := h.registering hreg
    rw [hleft]
    exact Nat.lt_of_le_of_lt (Nat.sub_le _ _) this
  · rcases mem_set_sessions ht with rfl | ht
    · have hnone := h.retired s hmem
      have honce : ((s.record .retired).goto (.ended graceful)).trace.count .retired =
          s.trace.count .retired + 1 := by
        simp [Session.record, Session.goto]
      rw [honce, hnone, hrunning, hgone]
      rfl
    · exact h.retired t ht
  · rcases mem_set_sessions ht with rfl | ht
    · cases hopen
    · exact h.opening t ht hopen
  · have hkept : (d.sessions.set id ((s.record .retired).goto (.ended graceful))).countP
        admittedRunning = d.sessions.countP admittedRunning := by omega
    dsimp only
    rw [hkept]
    exact h.balance
  · rw [hleft, h.stopped hstop]

/-- A step of a session keeps the accounts. -/
theorem Balanced.stepSession (h : d.Balanced) (id : ℕ) (answer : Answer) :
    (d.stepSession id answer).Balanced := by
  unfold Deployment.stepSession
  cases hs : d.sessions[id]? with
  | none => exact h
  | some s =>
    have hmem : s ∈ d.sessions := List.mem_of_getElem? hs
    have hmove := Session.move_step d.coordinator id s answer
    dsimp only
    generalize s.step d.coordinator id answer = next at *
    obtain ⟨c', s'⟩ := next
    have hcount := countP_exchange (b := s') admittedRunning hs
    dsimp only at hmove ⊢
    generalize (if (s'.registered && !s.registered) = true then d.admissions ++ [(s'.worker, id)]
      else d.admissions) = admissions
    cases hmove with
    | quiet hc hsteady =>
      have hsame : s'.finished = s.finished ∧ s'.hasEnded = s.hasEnded := by
        rcases hsteady.finished with ⟨hbefore, hafter⟩ | rfl
        · rw [hasEnded_of_not_finished hbefore, hasEnded_of_not_finished hafter]
          exact ⟨hafter.trans hbefore.symm, rfl⟩
        · exact ⟨rfl, rfl⟩
      have hadmitted : admittedRunning s' = admittedRunning s := by
        rw [admittedRunning, admittedRunning, hsteady.registered, hsame.1]
      rw [hadmitted] at hcount
      refine h.keep hs hc.maxWorkers hc.started hc.activeSessions hc.sessionChannels hsame.2
        hsteady.retired (fun hopen => ?_) ?_ admissions
      · rw [hsteady.registered]
        exact h.opening s hmem (hsteady.opening hopen)
      · have hkept : (d.sessions.set id s').countP admittedRunning =
            d.sessions.countP admittedRunning := by omega
        rw [hc.accepted, hc.disconnects, hkept]
        exact h.balance
    | @admitted s' hello response hphase hregistered hworker htrace hnext =>
      have hopen : s.opening = true := by rw [Session.opening, hphase]
      have hnot : admittedRunning s = false := by
        rw [admittedRunning, h.opening s hmem hopen, Bool.false_and]
      have hfinished : s'.finished = false := by rw [Session.finished, hnext]
      have hnow : admittedRunning s' = true := by rw [admittedRunning, hregistered, hfinished]; rfl
      have hrunning : s.hasEnded = false := by rw [Session.hasEnded, hphase]
      rw [hnot, hnow] at hcount
      refine @Balanced.keep d id s s' (d.coordinator.acceptWorker hello) h hs rfl rfl rfl rfl ?_ ?_
        (fun hopen => ?_) ?_ admissions
      · rw [hasEnded_of_not_finished hfinished, hrunning]
      · rw [htrace]
      · rw [Session.opening, hnext] at hopen
        cases hopen
      · have hone : (d.sessions.set id s').countP admittedRunning =
            d.sessions.countP admittedRunning + 1 := by simpa using hcount
        rw [hone, Coordinator.acceptWorker]
        dsimp only
        rw [h.balance, toUInt64_succ, UInt64.add_assoc]
    | @finished graceful hphase =>
      have hrunning : s.hasEnded = false := by rw [Session.hasEnded, hphase]
      have hfinished : s.finished = false := by rw [Session.finished, hphase]
      have hnot : admittedRunning (s.goto (.retiring graceful)) = false := by
        rw [admittedRunning, Session.finished, Session.goto, Bool.not_true, Bool.and_false]
      have hbefore : admittedRunning s = s.registered := by
        rw [admittedRunning, hfinished, Bool.not_false, Bool.and_true]
      rw [hnot, hbefore] at hcount
      obtain ⟨workers, counters, hfinish, haccepted, hdisconnects⟩ :=
        d.coordinator.finishSession_eq s.worker s.registered graceful
      rw [hfinish]
      refine @Balanced.keep d id s (s.goto (.retiring graceful))
        { d.coordinator with workers, counters } h hs rfl rfl rfl rfl ?_ rfl
        (fun hopen => (Bool.false_ne_true hopen).elim) ?_ admissions
      · rw [hrunning]
        rfl
      · dsimp only
        rw [haccepted, hdisconnects, h.balance]
        cases hreg : s.registered with
        | false =>
          rw [hreg] at hcount
          simp only [Bool.false_eq_true, if_false, Nat.add_zero] at hcount ⊢
          rw [hcount]
        | true =>
          rw [hreg] at hcount
          simp only [Bool.false_eq_true, if_false, if_true, Nat.add_zero] at hcount ⊢
          rw [← hcount, toUInt64_succ]
          ac_rfl
    | @retired graceful hphase => exact h.retire hs hphase admissions

end

/-! ### The accept loop and the stopping thread -/

variable {d : Deployment}

/-- The threads and the accounts stay, the accept loop moves on. -/
theorem Balanced.of_counters (h : d.Balanced) {counters : CoordinatorStats} {phase : AcceptPhase}
    (haccepted : counters.handshakesAccepted = d.coordinator.counters.handshakesAccepted)
    (hdisconnects : counters.workerDisconnects = d.coordinator.counters.workerDisconnects)
    (hregistering : phase = .registering →
      d.coordinator.activeSessions < d.coordinator.maxWorkers)
    (hexited : d.acceptLoop = .exited → phase = .exited) :
    Balanced { d with coordinator := { d.coordinator with counters }, acceptLoop := phase } where
  nodup := h.nodup
  channels := h.channels
  active := h.active
  counted := h.counted
  bounded := h.bounded
  registering := hregistering
  retired := h.retired
  opening := h.opening
  balance := by
    dsimp only
    rw [haccepted, hdisconnects]
    exact h.balance
  exited hstop := hexited (h.exited hstop)
  stopped := h.stopped
  started := h.started

/-- A connection gets the next channel, and a thread that awaits its hello. -/
theorem Balanced.register (h : d.Balanced) (hloop : d.acceptLoop = .registering) :
    Balanced { d with
      coordinator := d.coordinator.registerSession d.sessions.length
      sessions := d.sessions ++ [{}]
      acceptLoop := .looping } := by
  have hroom := h.registering hloop
  have hfresh : ({} : Session).hasEnded = false := rfl
  have hunadmitted : admittedRunning {} = false := rfl
  have hnew : ¬ d.Running d.sessions.length := by
    rintro ⟨s, hs, -⟩
    rw [List.getElem?_eq_none (Nat.le_refl _)] at hs
    cases hs
  refine ⟨?_, fun i => ?_, ?_, ?_, ?_, fun hreg => (by cases hreg), fun t ht => ?_,
    fun t ht hopen => ?_, ?_, fun hstop => ?_, fun hstop => ?_, h.started⟩
  · rw [Coordinator.registerSession]
    refine List.nodup_append.mpr ⟨h.nodup, List.nodup_singleton _, ?_⟩
    intro a ha b hb hab
    rw [List.mem_singleton] at hb
    subst hb
    rw [hab] at ha
    exact hnew ((h.channels _).mp ha)
  · rw [Coordinator.registerSession]
    dsimp only
    rw [List.mem_append, List.mem_singleton, h.channels, Running, Running]
    rcases Nat.lt_trichotomy i d.sessions.length with hi | rfl | hi
    · rw [List.getElem?_append_left hi]
      have : i ≠ d.sessions.length := Nat.ne_of_lt hi
      simp [this]
    · simp [hfresh]
    · have hbeyond : (d.sessions ++ [({} : Session)])[i]? = none := by
        rw [List.getElem?_eq_none]
        rw [List.length_append, List.length_singleton]
        omega
      have hne : i ≠ d.sessions.length := Nat.ne_of_gt hi
      rw [List.getElem?_eq_none (Nat.le_of_lt hi)]
      dsimp only
      rw [hbeyond]
      simp [hne]
  · rw [Coordinator.registerSession]
    dsimp only
    rw [List.length_append, List.length_singleton, h.active]
  · rw [Coordinator.registerSession]
    dsimp only
    rw [List.countP_append, h.counted]
    simp [hfresh]
  · exact hroom
  · rcases List.mem_append.mp ht with ht | ht
    · exact h.retired t ht
    · rw [List.mem_singleton.mp ht]
      rfl
  · rcases List.mem_append.mp ht with ht | ht
    · exact h.opening t ht hopen
    · rw [List.mem_singleton.mp ht]
  · rw [Coordinator.registerSession]
    dsimp only
    rw [List.countP_append, h.balance]
    simp [hunadmitted]
  · rw [h.exited hstop] at hloop
    cases hloop
  · rw [h.exited (Or.inr hstop)] at hloop
    cases hloop

theorem Balanced.stepAccept (h : d.Balanced) (connection : Bool) :
    (d.stepAccept connection).Balanced := by
  have hon : ∀ phase : AcceptPhase, phase ≠ .registering →
      (d.acceptLoop = .exited → phase = .exited) → Balanced { d with acceptLoop := phase } :=
    fun phase hphase hexited =>
      @Balanced.of_counters d h d.coordinator.counters phase rfl rfl
        (fun hreg => absurd hreg hphase) hexited
  unfold Deployment.stepAccept
  dsimp only
  split
  case h_1 hloop =>
    refine hon _ ?_ (fun hexit => ?_)
    · split_ifs <;> decide
    · rw [hexit] at hloop
      cases hloop
  case h_2 hloop =>
    refine hon _ ?_ (fun hexit => ?_)
    · split_ifs <;> decide
    · rw [hexit] at hloop
      cases hloop
  case h_3 hloop =>
    split_ifs
    · exact hon _ (by decide) (fun _ => rfl)
    · refine h.of_counters rfl rfl (fun hreg => by cases hreg) (fun hexit => ?_)
      rw [hexit] at hloop
      cases hloop
  case h_4 hloop =>
    split_ifs with hfull
    · refine h.of_counters rfl rfl (fun hreg => by cases hreg) (fun hexit => ?_)
      rw [hexit] at hloop
      cases hloop
    · refine @Balanced.of_counters d h d.coordinator.counters _ rfl rfl
        (fun _ => Nat.lt_of_not_le hfull) (fun hexit => ?_)
      rw [hexit] at hloop
      cases hloop
  case h_5 hloop => exact h.register hloop
  case h_6 hloop => exact h

theorem Balanced.stepStop (h : d.Balanced) : d.stepStop.Balanced := by
  unfold Deployment.stepStop
  dsimp only
  split
  case h_1 hstop =>
    refine { h with exited := fun hs => ?_, stopped := fun hs => ?_, started := fun hs => ?_ }
    · rcases hs with hs | hs <;> cases hs
    · cases hs
    · rw [h.started hs] at hstop
      cases hstop
  case h_2 hstop =>
    split_ifs with hexit
    · refine { h with exited := fun _ => hexit, stopped := fun hs => ?_, started := fun hs => ?_ }
      · cases hs
      · rw [h.started hs] at hstop
        cases hstop
    · exact h
  case h_3 hstop =>
    split_ifs with hzero
    · have hnil : d.coordinator.sessionChannels = [] :=
        List.length_eq_zero_iff.mp (h.active.symm.trans hzero)
      refine { h with
        nodup := List.nodup_nil, channels := fun i => ?_, active := hzero
        exited := fun _ => h.exited (Or.inl hstop), stopped := fun _ => hzero
        started := fun _ => rfl }
      have hchannels := h.channels i
      rw [hnil] at hchannels
      exact hchannels
    · exact h
  case h_4 hstop => exact h

theorem Balanced.step (h : d.Balanced) (act : Act) : (d.step act).Balanced := by
  cases act with
  | session id answer => exact h.stepSession id answer
  | accept connection => exact h.stepAccept connection
  | stop => exact h.stepStop

/-! ### The law -/

/-- What the coordinator's counters say about its sessions. -/
structure Accounts (d : Deployment) : Prop where
  /-- `active_sessions_` counts the sessions registered and not yet retired. -/
  active : d.coordinator.activeSessions = d.sessions.countP fun s => !s.hasEnded
  channels : d.coordinator.activeSessions = d.coordinator.sessionChannels.length
  bounded : d.coordinator.activeSessions ≤ d.coordinator.maxWorkers
  /-- A session whose thread has returned has retired once, any other not yet. -/
  retired : ∀ s ∈ d.sessions, s.trace.count .retired = if s.hasEnded then 1 else 0
  /-- Counters wrap at 64 bits: the accepted handshakes are the disconnects and the admitted
      sessions still running. -/
  balance : d.coordinator.counters.handshakesAccepted =
    d.coordinator.counters.workerDisconnects + (d.sessions.countP admittedRunning).toUInt64
  waited : d.waitReturns → ∀ s ∈ d.sessions, s.hasEnded = true
  stopped : d.stopping = .stopped → ∀ s ∈ d.sessions, s.hasEnded = true

theorem Balanced.accounts (h : d.Balanced) : d.Accounts := by
  have hidle : d.coordinator.activeSessions = 0 → ∀ s ∈ d.sessions, s.hasEnded = true := by
    intro hzero s hs
    rw [h.counted, List.countP_eq_zero] at hzero
    simpa using hzero s hs
  refine ⟨h.counted, h.active, h.bounded, h.retired, h.balance, fun hwait => ?_, fun hstop => ?_⟩
  · rcases hwait with hnot | hzero
    · exact hidle (h.stopped (h.started hnot))
    · exact hidle hzero
  · exact hidle (h.stopped hstop)

end Deployment

end Mbg
