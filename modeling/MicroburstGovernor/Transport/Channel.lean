import MicroburstGovernor.Transport.Frame

/-! Frames over a socket: the loops that send and receive whole blocks, and the channel of frames
    on top of them.

    The system moves as many bytes a call as it likes, and it may end the connection anywhere. A frame
    is written as one block and read as two, its header and the payload the header declares:

        send_all    ████████████████ → ███ ██████ ███████      what each call took
        recv_all    ████ ████████████ ← ██ ██ │ █████ ███████  what each call gave -/

namespace Mbg

/-! ### Sockets -/

/-- One end of a connection. What each call of `send` or `recv` is answered, in the order of the
    calls: how many bytes the system is ready to move, or an error. -/
structure Socket where
  isOpen : Bool := true
  /-- What the peer has written and this end has not read. -/
  incoming : Bytes := []
  /-- What this end has written. -/
  outgoing : Bytes := []
  answers : List (Option ℕ) := []
  deriving DecidableEq, Repr, Inhabited

namespace Socket

/-- The most bytes one call asks for. -/
def maxRequest : ℕ := 1048576

/-- The bytes that a call moves of so many that are left; a call asks for so many at most. -/
def request (answer : Option ℕ) (left : ℕ) : Option ℕ := answer.map fun n => min n (min left maxRequest)

/-- The loop of `send_all`; the connection is gone when the system answers no more. -/
def sendLoop : List (Option ℕ) → Bytes → Bytes → Status × Bytes × List (Option ℕ)
  | answers, [], outgoing => (.ok (), outgoing, answers)
  | [], _ :: _, outgoing => (Status.failure .io "socket send failed", outgoing, [])
  | answer :: answers, byte :: bytes, outgoing =>
    match request answer (byte :: bytes).length with
    | none | some 0 => (Status.failure .io "socket send failed", outgoing, answers)
    | some n => sendLoop answers ((byte :: bytes).drop n) (outgoing ++ (byte :: bytes).take n)

def sendAll (s : Socket) (bytes : Bytes) : Status × Socket :=
  if !s.isOpen then (Status.failure .io "socket is not open", s)
  else
    let (status, outgoing, answers) := sendLoop s.answers bytes s.outgoing
    (status, { s with outgoing, answers })

/-- The loop of `recv_all`: a call that gives nothing says that the peer has closed. -/
def recvLoop : List (Option ℕ) → ℕ → Bytes → Bytes → Except Failure Bytes × Bytes × List (Option ℕ)
  | answers, 0, received, incoming => (.ok received, incoming, answers)
  | [], _ + 1, _, incoming => (Status.failure .io "socket receive failed", incoming, [])
  | answer :: answers, left + 1, received, incoming =>
    match request answer (min (left + 1) incoming.length) with
    | none => (Status.failure .io "socket receive failed", incoming, answers)
    | some 0 => (Status.failure .io "peer closed the connection", incoming, answers)
    | some n => recvLoop answers (left + 1 - n) (received ++ incoming.take n) (incoming.drop n)

def recvAll (s : Socket) (count : ℕ) : Except Failure Bytes × Socket :=
  if !s.isOpen then (Status.failure .io "socket is not open", s)
  else
    let (result, incoming, answers) := recvLoop s.answers count [] s.incoming
    (result, { s with incoming, answers })

end Socket

/-! ### Channels -/

/-- A length framed channel over a socket. -/
structure FramedChannel where
  socket : Socket := {}
  framesSent : UInt64 := 0
  framesReceived : UInt64 := 0
  deriving DecidableEq, Repr, Inhabited

namespace FramedChannel

def send (c : FramedChannel) (frame : Frame) : Status × FramedChannel :=
  match encodeFrame frame with
  | .error e => (.error e, c)
  | .ok image =>
    match c.socket.sendAll image with
    | (.error e, socket) => (.error e, { c with socket })
    | (.ok (), socket) => (.ok (), { c with socket, framesSent := c.framesSent + 1 })

/-- The payload that a header declares; one of no bytes is not asked for. -/
def receiveBody (s : Socket) (header : FrameHeader) : Except Failure Bytes × Socket :=
  if header.payloadLength ≠ 0 then s.recvAll header.payloadLength.toNat else (.ok [], s)

def receive (c : FramedChannel) : Except Failure Frame × FramedChannel :=
  match c.socket.recvAll frameHeaderBytes with
  | (.error e, socket) => (.error e, { c with socket })
  | (.ok headerBytes, socket) =>
    match decodeHeader headerBytes with
    | .error e => (.error e, { c with socket })
    | .ok header =>
      match receiveBody socket header with
      | (.error e, socket) => (.error e, { c with socket })
      | (.ok body, socket) =>
        match decodeFrame (headerBytes ++ body) with
        | .error e => (.error e, { c with socket })
        | .ok frame => (.ok frame, { c with socket, framesReceived := c.framesReceived + 1 })

/-- Sends one frame after another until the connection fails; the frames whose send succeeded, as the
    encoder stamps them. A frame that does not encode is refused before a byte is written. -/
def sendEach : List Frame → FramedChannel → List Frame × FramedChannel
  | [], c => ([], c)
  | frame :: frames, c =>
    match c.send frame with
    | (.ok (), c') => ((sendEach frames c').1.cons frame.stamped, (sendEach frames c').2)
    | (.error _, c') => if (encodeFrame frame).isOk then ([], c') else sendEach frames c'

/-- Receives up to so many frames, until a receive fails: the frames, and the failure. -/
def receiveEach : ℕ → FramedChannel → List Frame × Option Failure × FramedChannel
  | 0, c => ([], none, c)
  | n + 1, c =>
    match c.receive with
    | (.error e, c') => ([], some e, c')
    | (.ok frame, c') => ((receiveEach n c').1.cons frame, (receiveEach n c').2)

end FramedChannel

/-! ### The loops -/

namespace Socket

/-- What the loop of `send_all` writes is all of the block, or less of it and the send fails. -/
theorem sendLoop_cases : ∀ (answers : List (Option ℕ)) (bytes outgoing : Bytes),
    ((sendLoop answers bytes outgoing).1 = .ok () ∧
      (sendLoop answers bytes outgoing).2.1 = outgoing ++ bytes) ∨
    ∃ e part, (sendLoop answers bytes outgoing).1 = .error e ∧
      (sendLoop answers bytes outgoing).2.1 = outgoing ++ part ∧ part <+: bytes ∧
      part.length < bytes.length
  | answers, [], outgoing => by
    cases answers <;> exact Or.inl ⟨rfl, (List.append_nil _).symm⟩
  | [], byte :: bytes, outgoing =>
    Or.inr ⟨_, [], rfl, (List.append_nil _).symm, List.nil_prefix, Nat.succ_pos _⟩
  | answer :: answers, byte :: bytes, outgoing => by
    have hstop : ∃ e part, (.error ⟨.io, "socket send failed"⟩ : Status) = .error e ∧
        outgoing = outgoing ++ part ∧ part <+: byte :: bytes ∧
        part.length < (byte :: bytes).length :=
      ⟨_, [], rfl, (List.append_nil _).symm, List.nil_prefix, Nat.succ_pos _⟩
    rw [sendLoop]
    split
    · exact Or.inr hstop
    · exact Or.inr hstop
    · rename_i n hn _
      rcases sendLoop_cases answers ((byte :: bytes).drop n) (outgoing ++ (byte :: bytes).take n) with
        ⟨hok, hout⟩ | ⟨e, part, herror, hout, hbegins, hless⟩
      · refine Or.inl ⟨hok, ?_⟩
        rw [hout, List.append_assoc, List.take_append_drop]
      · have hsplit := List.take_append_drop n (byte :: bytes)
        refine Or.inr ⟨e, (byte :: bytes).take n ++ part, herror, ?_, ?_, ?_⟩
        · rw [hout, List.append_assoc]
        · conv_rhs => rw [← hsplit]
          exact (List.prefix_append_right_inj _).mpr hbegins
        · have hlen := congrArg List.length hsplit
          rw [List.length_append] at hlen ⊢
          omega

/-- The system goes on answering: it moves something at every call, for more calls than there are
    bytes to read. -/
structure Lively (answers : List (Option ℕ)) (count : ℕ) : Prop where
  moves : ∀ answer ∈ answers, ∃ n, 0 < n ∧ answer = some n
  enough : count < answers.length

/-- What the loop of `recv_all` reads is the block in front, or the connection has failed; over a
    lively connection it fails at the end of the stream only. -/
theorem recvLoop_cases : ∀ (answers : List (Option ℕ)) (left : ℕ) (received incoming : Bytes),
    (left ≤ incoming.length ∧ ∃ answers', recvLoop answers left received incoming =
        (.ok (received ++ incoming.take left), incoming.drop left, answers') ∧
      (Lively answers incoming.length → Lively answers' (incoming.drop left).length)) ∨
    ∃ detail, (recvLoop answers left received incoming).1 = .error ⟨.io, detail⟩ ∧
      (Lively answers incoming.length →
        incoming.length < left ∧ detail = "peer closed the connection")
  | answers, 0, received, incoming => by
    refine Or.inl ⟨Nat.zero_le _, answers, ?_, id⟩
    cases answers <;> rw [recvLoop, List.take_zero, List.append_nil, List.drop_zero]
  | [], left + 1, received, incoming =>
    Or.inr ⟨_, rfl, fun h => absurd h.enough (Nat.not_lt_zero _)⟩
  | answer :: answers, left + 1, received, incoming => by
    cases answer with
    | none =>
      refine Or.inr ⟨_, rfl, fun h => ?_⟩
      obtain ⟨n, -, hn⟩ := h.moves none List.mem_cons_self
      cases hn
    | some m =>
      have hcap : 0 < maxRequest := by decide
      have hrequest : request (some m) (min (left + 1) incoming.length) =
          some (min m (min (min (left + 1) incoming.length) maxRequest)) := rfl
      rw [recvLoop, hrequest]
      generalize hn : min m (min (min (left + 1) incoming.length) maxRequest) = n
      cases n with
      | zero =>
        refine Or.inr ⟨_, rfl, fun h => ⟨?_, rfl⟩⟩
        obtain ⟨m', hpositive, hm⟩ := h.moves (some m) List.mem_cons_self
        obtain rfl := Option.some.inj hm
        omega
      | succ n =>
        have hsplit : left + 1 = n + 1 + (left + 1 - (n + 1)) := by omega
        have hlively : Lively (some m :: answers) incoming.length →
            Lively answers (incoming.drop (n + 1)).length := by
          intro h
          have henough := h.enough
          rw [List.length_cons] at henough
          exact ⟨fun answer hmem => h.moves answer (List.mem_cons_of_mem _ hmem),
            by rw [List.length_drop]; omega⟩
        rcases recvLoop_cases answers (left + 1 - (n + 1)) (received ++ incoming.take (n + 1))
          (incoming.drop (n + 1)) with ⟨hle, answers', heq, hkeep⟩ | ⟨detail, herror, hend⟩
        · rw [List.length_drop] at hle
          rw [List.drop_drop, ← hsplit] at hkeep heq
          rw [List.append_assoc, ← List.take_add, ← hsplit] at heq
          exact Or.inl ⟨by omega, answers', heq, fun h => hkeep (hlively h)⟩
        · refine Or.inr ⟨detail, herror, fun h => ?_⟩
          obtain ⟨hless, hdetail⟩ := hend (hlively h)
          rw [List.length_drop] at hless
          exact ⟨by omega, hdetail⟩

/-! ### Blocks -/

theorem sendAll_cases (s : Socket) (bytes : Bytes) :
    ((s.sendAll bytes).1 = .ok () ∧ (s.sendAll bytes).2.outgoing = s.outgoing ++ bytes) ∨
    ∃ e part, (s.sendAll bytes).1 = .error e ∧ (s.sendAll bytes).2.outgoing = s.outgoing ++ part ∧
      part <+: bytes ∧ (part.length < bytes.length ∨ bytes = []) := by
  rw [sendAll]
  split
  · refine Or.inr ⟨_, [], rfl, (List.append_nil _).symm, List.nil_prefix, ?_⟩
    cases bytes with
    | nil => exact Or.inr rfl
    | cons byte bytes => exact Or.inl (Nat.succ_pos _)
  · rcases sendLoop_cases s.answers bytes s.outgoing with h | ⟨e, part, herror, hout, hbegins, hless⟩
    · exact Or.inl h
    · exact Or.inr ⟨e, part, herror, hout, hbegins, Or.inl hless⟩

/-- An open socket over a connection that goes on until all that was written is read. -/
structure Live (s : Socket) : Prop where
  isOpen : s.isOpen = true
  answers : Lively s.answers s.incoming.length

theorem recvAll_cases (s : Socket) (count : ℕ) :
    (count ≤ s.incoming.length ∧ ∃ s', s.recvAll count = (.ok (s.incoming.take count), s') ∧
      s'.incoming = s.incoming.drop count ∧ (s.Live → s'.Live)) ∨
    ∃ detail s', s.recvAll count = (.error ⟨.io, detail⟩, s') ∧
      (s.Live → s.incoming.length < count ∧ detail = "peer closed the connection") := by
  rw [recvAll]
  split
  · rename_i hclosed
    refine Or.inr ⟨_, _, rfl, fun h => ?_⟩
    rw [h.isOpen] at hclosed
    cases hclosed
  · dsimp only
    rcases recvLoop_cases s.answers count [] s.incoming with
      ⟨hle, answers, heq, hkeep⟩ | ⟨detail, herror, hend⟩
    · rw [heq]
      exact Or.inl ⟨hle, _, rfl, rfl, fun h => ⟨h.isOpen, hkeep h.answers⟩⟩
    · exact Or.inr ⟨detail, _, Prod.ext herror rfl, fun h => hend h.answers⟩

end Socket

/-! ### Frames -/

namespace FramedChannel

open Socket

/-- What a send writes: the whole image of the frame, or less than the image and it fails. -/
theorem send_cases (c : FramedChannel) (frame : Frame) :
    (∃ e, encodeFrame frame = .error e ∧ c.send frame = (.error e, c)) ∨
    frame.stamped.WellFormed ∧ (encodeFrame frame).isOk = true ∧
    ((∃ c', c.send frame = (.ok (), c') ∧
        c'.socket.outgoing = c.socket.outgoing ++ frame.stamped.image ∧
        c'.framesSent = c.framesSent + 1) ∨
      ∃ e c' part, c.send frame = (.error e, c') ∧
        c'.socket.outgoing = c.socket.outgoing ++ part ∧ c'.framesSent = c.framesSent ∧
        part <+: frame.stamped.image ∧ part.length < frame.stamped.image.length) := by
  rw [send]
  cases hencode : encodeFrame frame with
  | error e => exact Or.inl ⟨e, rfl, rfl⟩
  | ok image =>
    obtain ⟨hwell, rfl⟩ := encodeFrame_eq_ok.mp hencode
    have hpositive : 0 < frame.stamped.image.length := by
      rw [length_image]
      exact Nat.add_pos_left (by decide) _
    refine Or.inr ⟨hwell, rfl, ?_⟩
    have hsent := sendAll_cases c.socket frame.stamped.image
    dsimp only
    generalize c.socket.sendAll frame.stamped.image = result at *
    obtain ⟨status, socket⟩ := result
    rcases hsent with ⟨hok, hout⟩ | ⟨e, part, herror, hout, hbegins, hless⟩
    · obtain rfl : status = .ok () := hok
      exact Or.inl ⟨_, rfl, hout, rfl⟩
    · obtain rfl : status = .error e := herror
      refine Or.inr ⟨e, _, part, rfl, hout, rfl, hbegins, hless.resolve_right fun hnil => ?_⟩
      rw [hnil] at hpositive
      exact Nat.lt_irrefl _ hpositive

/-! The two blocks of a frame, its header and what follows. -/

theorem decodeHeader_image {frame : Frame} (h : frame.WellFormed) :
    decodeHeader (frame.image.take frameHeaderBytes) = .ok frame.header :=
  decodeHeader_eq_ok.mpr ⟨h.header, _, take_image frame⟩

/-- The bytes that follow the header of a frame on a stream, and what is behind the frame. -/
theorem drop_header (frame : Frame) (rest : Bytes) :
    (frame.image ++ rest).drop frameHeaderBytes = frame.payload ++ rest := by
  have hle : frameHeaderBytes ≤ frame.image.length := by
    rw [length_image]
    exact Nat.le_add_right _ _
  rw [List.drop_append_of_le_length hle, drop_image]

theorem take_header (frame : Frame) (rest : Bytes) :
    (frame.image ++ rest).take frameHeaderBytes = frame.image.take frameHeaderBytes := by
  have hle : frameHeaderBytes ≤ frame.image.length := by
    rw [length_image]
    exact Nat.le_add_right _ _
  exact List.take_append_of_le_length hle

/-- The body of a frame that is on the stream is its payload, whether it is asked for or not. -/
theorem receiveBody_cases {s : Socket} {frame : Frame} (h : frame.WellFormed) {rest : Bytes}
    (hin : s.incoming = frame.payload ++ rest) :
    (∃ s', receiveBody s frame.header = (.ok frame.payload, s') ∧ s'.incoming = rest ∧
      (s.Live → s'.Live)) ∨
    ∃ detail s', receiveBody s frame.header = (.error ⟨.io, detail⟩, s') ∧ ¬ s.Live := by
  rw [receiveBody]
  split
  · rcases recvAll_cases s frame.header.payloadLength.toNat with
      ⟨-, s', hok, hrest, hlive⟩ | ⟨detail, s', herror, hend⟩
    · rw [hin, h.length, List.take_left' rfl] at hok
      rw [hin, h.length, List.drop_left' rfl] at hrest
      rw [h.length]
      exact Or.inl ⟨s', hok, hrest, hlive⟩
    · refine Or.inr ⟨detail, s', herror, fun hlive => ?_⟩
      have hless := (hend hlive).1
      rw [hin, h.length, List.length_append] at hless
      omega
  · rename_i hzero
    have hnil : frame.payload = [] := by
      have hlength := h.length
      rw [Classical.not_not.mp hzero] at hlength
      exact List.eq_nil_of_length_eq_zero hlength.symm
    rw [hnil] at hin ⊢
    exact Or.inl ⟨s, rfl, hin, id⟩

/-- A frame in front of the stream is received as it is, or the connection has failed. -/
theorem receive_cases {c : FramedChannel} {frame : Frame} (h : frame.WellFormed) {rest : Bytes}
    (hin : c.socket.incoming = frame.image ++ rest) :
    (∃ c', c.receive = (.ok frame, c') ∧ c'.socket.incoming = rest ∧
      c'.framesReceived = c.framesReceived + 1 ∧ (c.socket.Live → c'.socket.Live)) ∨
    ∃ detail c', c.receive = (.error ⟨.io, detail⟩, c') ∧ c'.framesReceived = c.framesReceived ∧
      ¬ c.socket.Live := by
  rw [receive]
  rcases recvAll_cases c.socket frameHeaderBytes with
    ⟨-, s, hok, hrest, hlive⟩ | ⟨detail, s, herror, hend⟩
  · rw [hin, take_header] at hok
    rw [hin, drop_header] at hrest
    rw [hok]
    dsimp only
    rw [decodeHeader_image h]
    dsimp only
    rcases receiveBody_cases h hrest with ⟨s', hbody, hrest', hlive'⟩ | ⟨detail, s', herror, hdead⟩
    · rw [hbody]
      dsimp only
      have himage : frame.image.take frameHeaderBytes ++ frame.payload = frame.image := by
        rw [← drop_image, List.take_append_drop]
      rw [himage, decodeFrame_eq_ok.mpr ⟨h, rfl⟩]
      exact Or.inl ⟨_, rfl, hrest', rfl, fun h => hlive' (hlive h)⟩
    · rw [herror]
      exact Or.inr ⟨detail, _, rfl, rfl, fun h => hdead (hlive h)⟩
  · rw [herror]
    refine Or.inr ⟨detail, _, rfl, rfl, fun hlive => ?_⟩
    have hless := (hend hlive).1
    rw [hin, List.length_append, length_image] at hless
    omega

/-- A frame that is not on the stream as a whole is not received. -/
theorem receive_torn {c : FramedChannel} {frame : Frame} (h : frame.WellFormed)
    (hbegins : c.socket.incoming <+: frame.image)
    (hless : c.socket.incoming.length < frame.image.length) :
    ∃ detail c', c.receive = (.error ⟨.io, detail⟩, c') ∧ c'.framesReceived = c.framesReceived ∧
      (c.socket.Live → detail = "peer closed the connection") := by
  rw [receive]
  rcases recvAll_cases c.socket frameHeaderBytes with
    ⟨hle, s, hok, hrest, hlive⟩ | ⟨detail, s, herror, hend⟩
  · have hheader : c.socket.incoming.take frameHeaderBytes = frame.image.take frameHeaderBytes := by
      obtain ⟨tail, htail⟩ := hbegins
      rw [← htail, List.take_append_of_le_length hle]
    rw [hok, hheader]
    dsimp only
    rw [decodeHeader_image h]
    dsimp only
    have hmissing : s.incoming.length < frame.header.payloadLength.toNat := by
      rw [hrest, List.length_drop, h.length]
      rw [length_image] at hless
      omega
    have hbody : receiveBody s frame.header = s.recvAll frame.header.payloadLength.toNat := by
      refine if_pos fun hzero => ?_
      rw [hzero] at hmissing
      exact Nat.not_lt_zero _ hmissing
    rw [hbody]
    rcases recvAll_cases s frame.header.payloadLength.toNat with
      ⟨hle', -⟩ | ⟨detail, s', herror, hend⟩
    · omega
    · rw [herror]
      exact ⟨detail, _, rfl, rfl, fun h => (hend (hlive h)).2⟩
  · rw [herror]
    exact ⟨detail, _, rfl, rfl, fun h => (hend h).2⟩

/-! ### First in, first out -/

/-- What is on the stream: the frames that were sent, and maybe the front of one that was not. -/
inductive Stream : List Frame → Bytes → Prop
  | ended : Stream [] []
  | torn {frame : Frame} (hwell : frame.WellFormed) {part : Bytes} (hbegins : part <+: frame.image)
    (hless : part.length < frame.image.length) : Stream [] part
  | sent {frame : Frame} (hwell : frame.WellFormed) {frames : List Frame} {bytes : Bytes}
    (hmore : Stream frames bytes) : Stream (frame :: frames) (frame.image ++ bytes)

/-- A sender puts nothing on the stream but the frames it is told that it sent. -/
theorem sendEach_stream : ∀ (frames : List Frame) (c : FramedChannel),
    ∃ bytes, (sendEach frames c).2.socket.outgoing = c.socket.outgoing ++ bytes ∧
      Stream (sendEach frames c).1 bytes ∧
      (sendEach frames c).2.framesSent = c.framesSent + UInt64.ofNat (sendEach frames c).1.length
  | [], c => ⟨[], (List.append_nil _).symm, .ended, by simp [sendEach]⟩
  | frame :: frames, c => by
    rw [sendEach]
    rcases send_cases c frame with ⟨e, hrefused, hsend⟩ | ⟨hwell, hencodes, hsent⟩
    · rw [hsend, hrefused]
      exact sendEach_stream frames c
    rcases hsent with ⟨c', hsend, hout, hcount⟩ | ⟨e, c', part, hsend, hout, hcount, hbegins, hless⟩
    · rw [hsend]
      obtain ⟨bytes, hbytes, hstream, hcount'⟩ := sendEach_stream frames c'
      refine ⟨frame.stamped.image ++ bytes, ?_, .sent hwell hstream, ?_⟩
      · rw [hbytes, hout, List.append_assoc]
      · rw [hcount', hcount, List.length_cons, UInt64.ofNat_add, UInt64.add_assoc, UInt64.add_comm 1]
        rfl
    · rw [hsend]
      dsimp only
      rw [if_pos hencodes]
      exact ⟨part, hout, .torn hwell hbegins hless, by simp [hcount]⟩

/-- What a receiver gets of a stream of frames in up to so many receives. -/
structure Received (sent : List Frame) (n : ℕ) (c : FramedChannel)
    (got : List Frame × Option Failure × FramedChannel) : Prop where
  inOrder : got.1 <+: sent
  counted : got.2.2.framesReceived = c.framesReceived + UInt64.ofNat got.1.length
  /-- No frame is ever found damaged: it is the connection that fails. -/
  onlyLost : ∀ e, got.2.1 = some e → e.code = .io
  complete : c.socket.Live → got.1 = sent.take n ∧
    got.2.1 = if n ≤ sent.length then none else some ⟨.io, "peer closed the connection"⟩

/-- Nothing is left but the end of the stream or the front of a frame. -/
theorem receive_end {c : FramedChannel} (h : Stream [] c.socket.incoming) :
    ∃ detail c', c.receive = (.error ⟨.io, detail⟩, c') ∧ c'.framesReceived = c.framesReceived ∧
      (c.socket.Live → detail = "peer closed the connection") := by
  generalize hin : c.socket.incoming = bytes at h
  cases h with
  | ended =>
    have hwell : ({} : Frame).WellFormed := ⟨⟨rfl, rfl, by decide⟩, rfl⟩
    exact receive_torn hwell (hin ▸ List.nil_prefix) (by rw [hin]; exact Nat.succ_pos _)
  | torn hwell hbegins hless => exact receive_torn hwell (hin ▸ hbegins) (hin ▸ hless)

theorem receiveEach_stream : ∀ (n : ℕ) (sent : List Frame) (c : FramedChannel),
    Stream sent c.socket.incoming → Received sent n c (receiveEach n c)
  | 0, sent, c, _ => ⟨List.nil_prefix, by simp [receiveEach], fun e h => (by cases h), fun _ => by
      rw [if_pos (Nat.zero_le _)]
      exact ⟨rfl, rfl⟩⟩
  | n + 1, [], c, hstream => by
    obtain ⟨detail, c', hreceive, hcount, hend⟩ := receive_end hstream
    rw [receiveEach, hreceive]
    refine ⟨List.nil_prefix, by simp [hcount], fun e h => ?_, fun hlive => ?_⟩
    · rw [← Option.some.inj h]
    · have hnone : ¬ n + 1 ≤ ([] : List Frame).length := Nat.not_succ_le_zero n
      rw [hend hlive, if_neg hnone]
      exact ⟨rfl, rfl⟩
  | n + 1, frame :: sent, c, hstream => by
    generalize hin : c.socket.incoming = bytes at hstream
    cases hstream with
    | sent hwell hmore =>
      rw [receiveEach]
      rcases receive_cases hwell hin with
        ⟨c', hreceive, hrest, hcount, hlive⟩ | ⟨detail, c', hreceive, hcount, hdead⟩
      · rw [hreceive]
        have hgot := receiveEach_stream n sent c' (hrest ▸ hmore)
        refine ⟨List.prefix_cons_inj frame |>.mpr hgot.inOrder, ?_, hgot.onlyLost, fun h => ?_⟩
        · dsimp only
          rw [hgot.counted, hcount, List.length_cons, UInt64.ofNat_add, UInt64.add_assoc,
            UInt64.add_comm 1]
          rfl
        · obtain ⟨hall, hfailure⟩ := hgot.complete (hlive h)
          refine ⟨congrArg (List.cons frame) hall, hfailure.trans ?_⟩
          rw [List.length_cons]
          simp only [Nat.add_le_add_iff_right]
      · rw [hreceive]
        refine ⟨List.nil_prefix, by simp [hcount], fun e h => ?_, fun h => absurd h hdead⟩
        rw [← Option.some.inj h]

/-- The other end of a connection, over which all that this end has written will come. -/
def peer (c : FramedChannel) (isOpen : Bool) (answers : List (Option ℕ)) : FramedChannel :=
  { socket := { isOpen, incoming := c.socket.outgoing, answers } }

/-- A channel whose socket has just been connected. -/
def connected (answers : List (Option ℕ)) : FramedChannel := { socket := { answers } }

/-- FIRST IN, FIRST OUT: however the system cuts the two streams of bytes, and wherever the connection
    fails, the receiver gets the frames whose send succeeded, from the first one on, each once and as
    it was sent; it gets all of them over a connection that goes on to its end. -/
theorem frames_in_order (frames : List Frame) (isOpen : Bool) (answers answers' : List (Option ℕ))
    (n : ℕ) :
    let sent := sendEach frames (connected answers)
    sent.2.framesSent = UInt64.ofNat sent.1.length ∧
      Received sent.1 n (sent.2.peer isOpen answers')
        (receiveEach n (sent.2.peer isOpen answers')) := by
  obtain ⟨bytes, hout, hstream, hcount⟩ := sendEach_stream frames (connected answers)
  refine ⟨hcount.trans (UInt64.zero_add _), receiveEach_stream n _ _ ?_⟩
  rw [peer, hout]
  exact hstream

end FramedChannel

end Mbg
