import RabbitDigger.Foundation.Polling
import RabbitDigger.Foundation.Pipe
import RabbitDigger.Interface.Address

/-!
# The UDP relay

`rd-std/src/context/connect_udp.rs`: `CopyBidirectional` joins a channel `a` and a
socket `b`.  In each direction packets wait in a queue of buffers; buffers that are
not in the queue are in a pool, and the pool grows as the queue does, up to a
maximum.  `poll_send_to` and `poll_recv_from` are one algorithm (`relayPass`) with
different calls at its two ends (`Dir.receive` and `Dir.send`).

What can go wrong is in the model: `grow` subtracts without a check, and
`poll_recv_from` calls `unreachable!()` for a packet whose address is not a socket
address.  Both are panics here.

**The representation invariant** (`WellFormed`): only the last buffer of the queue
may be empty, those in the pool all are, and there are at most `max_buffer_size`
of them.  It keeps the subtraction safe; and with it each direction is a pipe of
packets, of which the filled buffers of the queue are the packets in flight.
-/

namespace RabbitDigger

open Polling

/-! ## The channel and the socket -/

/-- What the relay asks of the channel `a` and of the socket `b`. -/
inductive PacketCall where
  /-- `a.poll_send_to` into a buffer with room for so many bytes. -/
  | channelSendTo (room : ℕ)
  /-- `b.poll_send_to`. -/
  | socketSendTo (data : Bytes) (addr : Address)
  /-- `b.poll_recv_from` into a buffer with room for so many bytes. -/
  | socketRecvFrom (room : ℕ)
  /-- `a.poll_recv_from`. -/
  | channelRecvFrom (data : Bytes) (addr : SocketAddr)
deriving Repr, DecidableEq

/-- The calls of the relay with their answers. -/
def packetInterface : Interface where
  Call := PacketCall
  Answer
    | .channelSendTo room => Poll (IoResult ({ b : Bytes // b.length ≤ room } × Address))
    | .socketSendTo _ _ => Poll (IoResult ℕ)
    | .socketRecvFrom room =>
        Poll (IoResult ({ b : Bytes // b.length ≤ room } × SocketAddr))
    | .channelRecvFrom _ _ => Poll (IoResult ℕ)

namespace UdpRelay

/-- A payload and the address it goes to or comes from. -/
abbrev Packet := Bytes × Address

/-- The two directions: from the channel to the socket, and back. -/
inductive Dir where
  | sendTo
  | recvFrom
deriving Repr, DecidableEq

/-- The opposite direction. -/
def Dir.other : Dir → Dir
  | .sendTo => .recvFrom
  | .recvFrom => .sendTo

/-- The call at the receiving end of a direction. -/
def Dir.receive (env : Environment packetInterface) (log : Log packetInterface)
    (room : ℕ) : Dir → Log packetInterface × Poll (IoResult Packet)
  | .sendTo =>
      (env.record log (PacketCall.channelSendTo room),
        match env log (PacketCall.channelSendTo room) with
        | .pending => .pending
        | .ready (.error e) => .ready (.error e)
        | .ready (.ok (bytes, addr)) => .ready (.ok (bytes.val, addr)))
  | .recvFrom =>
      (env.record log (PacketCall.socketRecvFrom room),
        match env log (PacketCall.socketRecvFrom room) with
        | .pending => .pending
        | .ready (.error e) => .ready (.error e)
        | .ready (.ok (bytes, addr)) => .ready (.ok (bytes.val, .socketAddr addr)))

/-- The call at the sending end of a direction; `none` is `unreachable!()`. -/
def Dir.send (env : Environment packetInterface) (log : Log packetInterface)
    (data : Bytes) (addr : Address) : Dir → Option (Log packetInterface × Poll (IoResult ℕ))
  | .sendTo =>
      some (env.record log (PacketCall.socketSendTo data addr),
        env log (PacketCall.socketSendTo data addr))
  | .recvFrom =>
      match addr with
      | .socketAddr s =>
          some (env.record log (PacketCall.channelRecvFrom data s),
            env log (PacketCall.channelRecvFrom data s))
      | .domain _ _ => none

/-! ## Buffers -/

/-- `UDP_BUFFER_SIZE`. -/
def udpBufferSize : ℕ := 2 * 1024

/-- `PacketBuffer`. -/
structure PacketBuffer where
  buf : Bytes
  filled : Option (ℕ × Address)
deriving Repr, DecidableEq

namespace PacketBuffer

/-- `PacketBuffer::new`. -/
def new : PacketBuffer where
  buf := List.replicate udpBufferSize 0
  filled := none

/-- `borrow`. -/
def borrow (packet : PacketBuffer) : Option Packet :=
  packet.filled.map fun (len, addr) => (packet.buf.take len, addr)

/-- The buffer once a packet has been received into it. -/
def fill (packet : PacketBuffer) (bytes : Bytes) (addr : Address) : PacketBuffer where
  buf := bytes ++ packet.buf.drop bytes.length
  filled := some (bytes.length, addr)

@[simp] theorem borrow_fill (packet : PacketBuffer) (bytes : Bytes) (addr : Address) :
    (packet.fill bytes addr).borrow = some (bytes, addr) := by
  simp [fill, borrow]

theorem borrow_eq_none {packet : PacketBuffer} : packet.borrow = none ↔ packet.filled = none := by
  simp [borrow]

end PacketBuffer

/-- `CopyBuffer`. -/
structure CopyBuffer where
  pool : List PacketBuffer
  queue : List PacketBuffer
  maxBufferSize : ℕ
deriving Repr, DecidableEq

namespace CopyBuffer

/-- `CopyBuffer::new`. -/
def new (bufferSize maxBufferSize : ℕ) : CopyBuffer where
  pool := List.replicate bufferSize .new
  queue := []
  maxBufferSize := maxBufferSize

/-- `borrow_front`. -/
def borrowFront (c : CopyBuffer) : Option PacketBuffer :=
  c.queue.head?

/-- `pop_front`. -/
def popFront (c : CopyBuffer) : CopyBuffer :=
  match c.queue with
  | [] => c
  | packet :: rest =>
      { c with
        queue := rest
        pool := c.pool ++ [{ packet with filled := none }] }

/-- `grow`; `none` if the subtraction underflows. -/
def grow (c : CopyBuffer) : Option CopyBuffer :=
  if c.pool = [] then
    let goal := min c.maxBufferSize (c.queue.length * 2)
    if c.queue.length ≤ goal then
      some { c with pool := c.pool ++ List.replicate (goal - c.queue.length) .new }
    else none
  else some c

/-- A buffer of the pool, put at the end of the queue. -/
def takeFromPool (c : CopyBuffer) : CopyBuffer × Option PacketBuffer :=
  match c.pool.getLast? with
  | none => (c, none)
  | some packet =>
      ({ c with
          pool := c.pool.dropLast
          queue := c.queue ++ [packet] }, some packet)

/-- `borrow_back`: the last buffer of the queue, which is then empty; `none` if
`grow` underflows. -/
def borrowBack (c : CopyBuffer) : Option (CopyBuffer × Option PacketBuffer) :=
  match c.queue.getLast? with
  | none => c.grow.map takeFromPool
  | some last =>
      if last.filled.isSome then c.grow.map takeFromPool
      else some (c, some last)

/-- Write back through the reference that `borrow_back` returned. -/
def setBack (c : CopyBuffer) (packet : PacketBuffer) : CopyBuffer :=
  { c with queue := c.queue.dropLast ++ [packet] }

/-- The packets in the queue. -/
def packets (c : CopyBuffer) : List Packet :=
  c.queue.filterMap PacketBuffer.borrow

/-- The representation invariant. -/
structure WellFormed (max : ℕ) (c : CopyBuffer) : Prop where
  /-- Only the last buffer of the queue may be empty. -/
  queue : ∀ packet ∈ c.queue.dropLast, packet.filled ≠ none
  /-- Every buffer of the pool is. -/
  pool : ∀ packet ∈ c.pool, packet.filled = none
  bound : c.pool.length + c.queue.length ≤ max
  maxBufferSize : c.maxBufferSize = max

section WellFormed

variable {max : ℕ} {c : CopyBuffer}

theorem wellFormed_new {bufferSize : ℕ} (h : bufferSize ≤ max) :
    WellFormed max (new bufferSize max) where
  queue := by simp [new]
  pool := by
    intro packet mem
    rw [List.eq_of_mem_replicate mem]
    rfl
  bound := by simpa [new] using h
  maxBufferSize := rfl

/-- The subtraction in `grow` does not underflow. -/
theorem WellFormed.grow (wf : WellFormed max c) :
    ∃ c', c.grow = some c' ∧ WellFormed max c' ∧ c'.queue = c.queue := by
  have hbound := wf.bound
  unfold CopyBuffer.grow
  split
  · rename_i hempty
    rw [hempty, List.length_nil] at hbound
    have hgoal : c.queue.length ≤ min c.maxBufferSize (c.queue.length * 2) := by
      rw [wf.maxBufferSize]
      omega
    dsimp only
    rw [if_pos hgoal]
    refine ⟨_, rfl, ⟨wf.queue, ?_, ?_, wf.maxBufferSize⟩, rfl⟩
    · intro packet mem
      rw [hempty, List.nil_append] at mem
      rw [List.eq_of_mem_replicate mem]
      rfl
    · rw [hempty, List.nil_append, List.length_replicate]
      show _ - c.queue.length + c.queue.length ≤ max
      have hmax := wf.maxBufferSize
      omega
  · exact ⟨c, rfl, wf, rfl⟩

/-- What `borrow_back` gives: the buffer at the end of the queue, empty; or none,
if all are in use.  The packets in the queue stay as they are. -/
structure Borrowed (max : ℕ) (c c' : CopyBuffer) (back : Option PacketBuffer) : Prop where
  wellFormed : WellFormed max c'
  packets : c'.packets = c.packets
  back : ∀ packet, back = some packet →
    packet.filled = none ∧ ∃ front, c'.queue = front ++ [packet]

/-- Taking a buffer of the pool, when the queue has no empty one. -/
theorem WellFormed.takeFromPool (wf : WellFormed max c)
    (hfilled : ∀ packet ∈ c.queue, packet.filled ≠ none) :
    Borrowed max c c.takeFromPool.1 c.takeFromPool.2 := by
  unfold CopyBuffer.takeFromPool
  cases hlast : c.pool.getLast? with
  | none => exact ⟨wf, rfl, fun _ h => by cases h⟩
  | some packet =>
      have hpool : c.pool = c.pool.dropLast ++ [packet] := by
        rw [List.dropLast_append_getLast? packet hlast]
      have hempty : packet.filled = none :=
        wf.pool packet (List.mem_of_getLast? hlast)
      refine ⟨⟨?_, ?_, ?_, wf.maxBufferSize⟩, ?_, ?_⟩
      · simpa using hfilled
      · intro p mem
        exact wf.pool p (List.mem_of_mem_dropLast mem)
      · have hbound := wf.bound
        have hlength := congrArg List.length hpool
        simp only [List.length_append, List.length_cons, List.length_nil] at hlength ⊢
        omega
      · simp [CopyBuffer.packets, PacketBuffer.borrow_eq_none.mpr hempty]
      · rintro p h
        cases h
        exact ⟨hempty, c.queue, rfl⟩

/-- The spec of `borrow_back`. -/
theorem WellFormed.borrowBack (wf : WellFormed max c) :
    ∃ c' back, c.borrowBack = some (c', back) ∧ Borrowed max c c' back := by
  obtain ⟨c', hgrow, wf', hqueue⟩ := wf.grow
  -- both branches that take a buffer of the pool do so after growing it
  have htake : (∀ packet ∈ c.queue, packet.filled ≠ none) →
      ∃ c' back, c.grow.map CopyBuffer.takeFromPool = some (c', back) ∧
        Borrowed max c c' back := by
    intro hfilled
    have hborrowed := wf'.takeFromPool (by rwa [hqueue])
    refine ⟨_, _, by rw [hgrow]; rfl, hborrowed.wellFormed, ?_, hborrowed.back⟩
    rw [hborrowed.packets, CopyBuffer.packets, CopyBuffer.packets, hqueue]
  unfold CopyBuffer.borrowBack
  cases hlast : c.queue.getLast? with
  | none =>
      refine htake fun packet mem => ?_
      rw [List.getLast?_eq_none_iff] at hlast
      rw [hlast] at mem
      cases mem
  | some last =>
      have hqueue' : c.queue = c.queue.dropLast ++ [last] := by
        rw [List.dropLast_append_getLast? last hlast]
      dsimp only
      split
      · rename_i hsome
        refine htake fun packet mem => ?_
        rw [hqueue'] at mem
        rcases List.mem_append.mp mem with mem | mem
        · exact wf.queue packet mem
        · rw [List.mem_singleton.mp mem]
          exact Option.isSome_iff_ne_none.mp hsome
      · rename_i hnone
        refine ⟨c, some last, rfl, wf, rfl, fun packet h => ?_⟩
        cases h
        exact ⟨by simpa using hnone, _, hqueue'⟩

/-- Filling the borrowed buffer appends its packet. -/
theorem WellFormed.fill (wf : WellFormed max c) {front : List PacketBuffer}
    {packet : PacketBuffer} (hqueue : c.queue = front ++ [packet])
    (hempty : packet.filled = none) (bytes : Bytes) (addr : Address) :
    WellFormed max (c.setBack (packet.fill bytes addr)) ∧
      (c.setBack (packet.fill bytes addr)).packets = c.packets ++ [(bytes, addr)] := by
  have hfront : ∀ p ∈ front, p.filled ≠ none := by
    intro p mem
    exact wf.queue p (by rw [hqueue]; simpa using mem)
  refine ⟨⟨?_, wf.pool, ?_, wf.maxBufferSize⟩, ?_⟩
  · simpa [setBack, hqueue] using hfront
  · have hbound := wf.bound
    rw [hqueue] at hbound
    simpa [setBack, hqueue] using hbound
  · simp [setBack, packets, hqueue, PacketBuffer.borrow_eq_none.mpr hempty]

/-- Taking the first packet off the queue. -/
theorem WellFormed.popFront (wf : WellFormed max c) {packet : PacketBuffer}
    {data : Bytes} {addr : Address} (hfront : c.borrowFront = some packet)
    (hborrow : packet.borrow = some (data, addr)) :
    WellFormed max c.popFront ∧ c.packets = (data, addr) :: c.popFront.packets := by
  obtain ⟨pool, queue, size⟩ := c
  cases queue with
  | nil => cases hfront
  | cons first rest =>
      cases hfront
      have hqueue := wf.queue
      refine ⟨⟨?_, ?_, ?_, wf.maxBufferSize⟩, ?_⟩
      · intro p mem
        refine hqueue p ?_
        cases rest with
        | nil => cases mem
        | cons second rest => exact List.mem_cons_of_mem _ mem
      · intro p mem
        rcases List.mem_append.mp mem with mem | mem
        · exact wf.pool p mem
        · rw [List.mem_singleton.mp mem]
      · have hbound := wf.bound
        simp only [CopyBuffer.popFront, List.length_append, List.length_cons,
          List.length_nil] at hbound ⊢
        omega
      · simp [packets, CopyBuffer.popFront, hborrow]

end WellFormed

end CopyBuffer

/-- Where a loop of a direction stands, and the log of all calls. -/
abbrev CopyState := CopyBuffer × Log packetInterface

/-! ## The relay -/

section Relay

variable (env : Environment packetInterface) (dir : Dir)

/-- One pass of the first inner loop: receive into the last buffer of the queue.
The loop ends without a panic or an error in `registered`. -/
def fillPass (x : CopyState) : CopyState × Option (Outcome (IoResult Bool)) :=
  match x.1.borrowBack with
  | none => (x, some .panicked)
  | some (c, none) => ((c, x.2), some (.returned (.ready (.ok false))))
  | some (c, some packet) =>
      match dir.receive env x.2 packet.buf.length with
      | (log, .ready (.ok (bytes, addr))) =>
          ((c.setBack (packet.fill bytes addr), log), none)
      | (log, .ready (.error e)) => ((c, log), some (.returned (.ready (.error e))))
      | (log, .pending) => ((c, log), some (.returned (.ready (.ok true))))

/-- One pass of the second inner loop: send the first packet of the queue. -/
def drainPass (x : CopyState) : CopyState × Option (Outcome (IoResult Bool)) :=
  match x.1.borrowFront with
  | none => (x, some (.returned (.ready (.ok false))))
  | some packet =>
      match packet.borrow with
      | none => (x, some (.returned (.ready (.ok false))))
      | some (data, addr) =>
          match dir.send env x.2 data addr with
          | none => (x, some .panicked)
          | some (log, .ready (.ok _)) => ((x.1.popFront, log), none)
          | some (log, .ready (.error e)) =>
              ((x.1, log), some (.returned (.ready (.error e))))
          | some (log, .pending) => ((x.1, log), some (.returned (.ready (.ok true))))

/-- How an inner loop goes on: with `next` if it has ended, otherwise the function
is left. -/
def afterLoop (r : CopyState × Outcome (IoResult Bool))
    (next : Bool → CopyState →
      CopyState × Option (Outcome (IoResult Unit))) :
    CopyState × Option (Outcome (IoResult Unit)) :=
  match r with
  | (x, .returned (.ready (.ok registered))) => next registered x
  | (x, .returned (.ready (.error e))) => (x, some (.returned (.ready (.error e))))
  | (x, .returned .pending) => (x, some (.returned .pending))
  | (x, .panicked) => (x, some .panicked)
  | (x, .running) => (x, some .running)

/-- One pass of the outer loop of `poll_send_to` and `poll_recv_from`. -/
def relayPass (n : ℕ) (x : CopyState) : CopyState × Option (Outcome (IoResult Unit)) :=
  afterLoop (loopN (fillPass env dir) n x) fun filling x =>
    afterLoop (loopN (drainPass env dir) n x) fun draining x =>
      if filling || draining then (x, some (.returned .pending)) else (x, none)

/-- `CopyBidirectional::poll_send_to`, on its queue. -/
def pollSendTo (n : ℕ) (x : CopyState) : CopyState × Outcome (IoResult Unit) :=
  loopN (relayPass env .sendTo n) n x

/-- `CopyBidirectional::poll_recv_from`, on its queue. -/
def pollRecvFrom (n : ℕ) (x : CopyState) : CopyState × Outcome (IoResult Unit) :=
  loopN (relayPass env .recvFrom n) n x

/-- `CopyBidirectional`, without the channel and the socket themselves. -/
structure CopyBidirectional where
  sendQueue : CopyBuffer
  recvQueue : CopyBuffer
deriving Repr, DecidableEq

namespace CopyBidirectional

/-- The relay of `connect_udp`. -/
def new : CopyBidirectional where
  sendQueue := .new 1 16
  recvQueue := .new 1 16

/-- The queue of a direction. -/
def queue (relay : CopyBidirectional) : Dir → CopyBuffer
  | .sendTo => relay.sendQueue
  | .recvFrom => relay.recvQueue

/-- `CopyBidirectional::poll`. -/
def poll (n : ℕ) (x : CopyBidirectional × Log packetInterface) :
    (CopyBidirectional × Log packetInterface) × Outcome (IoResult Unit) :=
  let r := join (pollSendTo env n) (pollRecvFrom env n) x.1.sendQueue x.1.recvQueue x.2
  ((⟨r.1.1.1, r.1.1.2⟩, r.1.2), r.2)

end CopyBidirectional

end Relay

/-! ## Directions as pipes -/

/-- What a call is for a direction. -/
def toEvent : Dir → Event packetInterface → Option (Pipe.Event Packet)
  | .sendTo, ⟨.channelSendTo _, .ready (.ok (bytes, addr))⟩ =>
      some (.receive [(bytes.val, addr)])
  | .sendTo, ⟨.channelSendTo _, _⟩ => some (.receive [])
  | .sendTo, ⟨.socketSendTo data addr, .ready (.ok _)⟩ => some (.send [(data, addr)])
  | .sendTo, ⟨.socketSendTo _ _, _⟩ => some (.send [])
  | .recvFrom, ⟨.socketRecvFrom _, .ready (.ok (bytes, addr))⟩ =>
      some (.receive [(bytes.val, .socketAddr addr)])
  | .recvFrom, ⟨.socketRecvFrom _, _⟩ => some (.receive [])
  | .recvFrom, ⟨.channelRecvFrom data addr, .ready (.ok _)⟩ =>
      some (.send [(data, .socketAddr addr)])
  | .recvFrom, ⟨.channelRecvFrom _ _, _⟩ => some (.send [])
  | _, _ => none

/-- The calls of a direction. -/
def trace (dir : Dir) (log : Log packetInterface) : List (Pipe.Event Packet) :=
  log.filterMap (toEvent dir)

theorem trace_snoc (dir : Dir) (log : Log packetInterface) (event : Event packetInterface) :
    trace dir (log ++ [event]) = trace dir log ++ (toEvent dir event).toList := by
  unfold trace
  rw [List.filterMap_append]
  rcases h : toEvent dir event with _ | e
  · rw [List.filterMap_cons_none h]
    rfl
  · rw [List.filterMap_cons_some h]
    rfl

/-- A packet that the direction can hand on without reaching `unreachable!()`. -/
def Sendable : Dir → Packet → Prop
  | .sendTo, _ => True
  | .recvFrom, packet => ∃ s, packet.2 = .socketAddr s

/-- The direction refines the pipe of its packets. -/
structure Refines (dir : Dir) (c : CopyBuffer) (log : Log packetInterface) : Prop where
  wellFormed : c.WellFormed 16
  run : (Pipe.pipe Packet).run (trace dir log) = some ⟨c.packets, .flowing⟩
  sendable : ∀ packet ∈ c.packets, Sendable dir packet

/-- What a direction keeps: it refines its pipe, and the calls of the other
direction stay as they are. -/
structure Keeps (dir : Dir) (others : List (Pipe.Event Packet))
    (x : CopyState) : Prop where
  refines : Refines dir x.1 x.2
  frame : trace dir.other x.2 = others

section Calls

variable {env : Environment packetInterface} {dir : Dir}
variable {log log' : Log packetInterface} {others : List (Pipe.Event Packet)}
variable {c c' : CopyBuffer}

/-- The packet an answer brings, if any. -/
def broughtBy : Poll (IoResult Packet) → List Packet
  | .ready (.ok packet) => [packet]
  | _ => []

/-- The spec of a direction's receiving call. -/
theorem Dir.receive_spec {room : ℕ} {answer : Poll (IoResult Packet)}
    (h : dir.receive env log room = (log', answer)) :
    trace dir log' = trace dir log ++ [.receive (broughtBy answer)] ∧
      trace dir.other log' = trace dir.other log ∧
      ∀ packet ∈ broughtBy answer, Sendable dir packet := by
  cases dir with
  | sendTo =>
      simp only [Dir.receive, Environment.record, Prod.mk.injEq] at h
      obtain ⟨rfl, rfl⟩ := h
      rw [trace_snoc, trace_snoc]
      rcases env log (PacketCall.channelSendTo room) with (e | ⟨bytes, addr⟩) | _
      all_goals exact ⟨rfl, List.append_nil _, by simp [broughtBy, Sendable]⟩
  | recvFrom =>
      simp only [Dir.receive, Environment.record, Prod.mk.injEq] at h
      obtain ⟨rfl, rfl⟩ := h
      rw [trace_snoc, trace_snoc]
      rcases env log (PacketCall.socketRecvFrom room) with (e | ⟨bytes, addr⟩) | _
      all_goals exact ⟨rfl, List.append_nil _, by simp [broughtBy, Sendable]⟩

/-- The spec of a direction's sending call: for a packet that can be handed on it
is made, and the packet counts as sent if it is accepted. -/
theorem Dir.send_spec (env : Environment packetInterface) (log : Log packetInterface)
    {data : Bytes} {addr : Address} (h : Sendable dir (data, addr)) :
    ∃ log' answer, dir.send env log data addr = some (log', answer) ∧
      trace dir log' = trace dir log ++
        [.send (match answer with
          | .ready (.ok _) => [(data, addr)]
          | _ => [])] ∧
      trace dir.other log' = trace dir.other log := by
  cases dir with
  | sendTo =>
      refine ⟨_, _, rfl, ?_⟩
      unfold Environment.record
      rw [trace_snoc, trace_snoc]
      rcases env log (PacketCall.socketSendTo data addr) with (e | n) | _
      all_goals exact ⟨rfl, List.append_nil _⟩
  | recvFrom =>
      obtain ⟨s, rfl⟩ := h
      refine ⟨_, _, rfl, ?_⟩
      unfold Environment.record
      rw [trace_snoc, trace_snoc]
      rcases env log (PacketCall.channelRecvFrom data s) with (e | n) | _
      all_goals exact ⟨rfl, List.append_nil _⟩

/-- A call of a direction keeps what the direction keeps, if it is a step of the
pipe to the packets after it. -/
theorem Keeps.step (keeps : Keeps dir others (c, log)) {event : Pipe.Event Packet}
    (htrace : trace dir log' = trace dir log ++ [event])
    (hother : trace dir.other log' = trace dir.other log)
    (hstep : Pipe.step ⟨c.packets, .flowing⟩ event = some ⟨c'.packets, .flowing⟩)
    (wf : c'.WellFormed 16) (sendable : ∀ packet ∈ c'.packets, Sendable dir packet) :
    Keeps dir others (c', log') := by
  refine ⟨⟨wf, ?_, sendable⟩, hother.trans keeps.frame⟩
  show (Pipe.pipe Packet).run (trace dir log') = _
  rw [htrace, Transition.System.run_snoc, keeps.refines.run]
  exact hstep

/-- A call that moves no packet. -/
theorem Keeps.idle (keeps : Keeps dir others (c, log)) {event : Pipe.Event Packet}
    (hevent : event = .receive [] ∨ event = .send [])
    (htrace : trace dir log' = trace dir log ++ [event])
    (hother : trace dir.other log' = trace dir.other log) :
    Keeps dir others (c, log') := by
  refine keeps.step htrace hother ?_ keeps.refines.wellFormed keeps.refines.sendable
  rcases hevent with rfl | rfl
  · simp [Pipe.step]
  · simp [Pipe.step]

end Calls

/-! ## The loops -/

section Loops

variable {env : Environment packetInterface} {dir : Dir}
variable {others : List (Pipe.Event Packet)} {x : CopyState}

/-- A loop of a direction ends with what it keeps, and not by a panic. -/
def Safe {R : Type} (dir : Dir) (others : List (Pipe.Event Packet))
    (x : CopyState) (outcome : Outcome R) : Prop :=
  Keeps dir others x ∧ outcome ≠ .panicked

theorem fillPass_spec (keeps : Keeps dir others x) :
    Goes (Keeps dir others) (Safe dir others) (fillPass env dir x) := by
  obtain ⟨c, log⟩ := x
  obtain ⟨c', back, hback, hborrowed⟩ := keeps.refines.wellFormed.borrowBack
  have hkeeps : Keeps dir others (c', log) := by
    obtain ⟨⟨-, hrun, hsendable⟩, hframe⟩ := keeps
    refine ⟨⟨hborrowed.wellFormed, ?_, ?_⟩, hframe⟩
    · rwa [hborrowed.packets]
    · rwa [hborrowed.packets]
  unfold fillPass
  simp only at hback
  rw [hback]
  cases back with
  | none => exact ⟨hkeeps, by simp⟩
  | some packet =>
      obtain ⟨hempty, front, hqueue⟩ := hborrowed.back packet rfl
      dsimp only
      rcases hreceive : dir.receive env log packet.buf.length
        with ⟨log', (e | ⟨bytes, addr⟩) | _⟩
      all_goals obtain ⟨htrace, hother, hsend⟩ := Dir.receive_spec hreceive
      · exact ⟨hkeeps.idle (.inl rfl) htrace hother, by simp⟩
      · obtain ⟨wf, hpackets⟩ :=
          hborrowed.wellFormed.fill hqueue hempty bytes addr
        refine hkeeps.step htrace hother ?_ wf ?_
        · simp [Pipe.step, broughtBy, hpackets]
        · intro p mem
          rw [hpackets] at mem
          rcases List.mem_append.mp mem with mem | mem
          · exact hkeeps.refines.sendable p mem
          · exact hsend p mem
      · exact ⟨hkeeps.idle (.inl rfl) htrace hother, by simp⟩

theorem drainPass_spec (keeps : Keeps dir others x) :
    Goes (Keeps dir others) (Safe dir others) (drainPass env dir x) := by
  obtain ⟨c, log⟩ := x
  unfold drainPass
  cases hfront : c.borrowFront with
  | none => exact ⟨keeps, by simp⟩
  | some packet =>
      cases hborrow : packet.borrow with
      | none =>
          simp only [hborrow]
          exact ⟨keeps, by simp⟩
      | some sent =>
          obtain ⟨data, addr⟩ := sent
          obtain ⟨wf, hpackets⟩ :=
            keeps.refines.wellFormed.popFront hfront hborrow
          have hsendable : Sendable dir (data, addr) :=
            keeps.refines.sendable _ (by rw [hpackets]; exact List.mem_cons_self)
          obtain ⟨log', answer, hsend, htrace, hother⟩ :=
            Dir.send_spec env log hsendable
          simp only [hborrow, hsend]
          rcases answer with (e | n) | _
          · exact ⟨keeps.idle (.inr rfl) htrace hother, by simp⟩
          · refine keeps.step htrace hother ?_ wf fun p mem => ?_
            · simp [Pipe.step, hpackets]
            · exact keeps.refines.sendable p
                (by rw [hpackets]; exact List.mem_cons_of_mem _ mem)
          · exact ⟨keeps.idle (.inr rfl) htrace hother, by simp⟩

/-- An inner loop hands over what the direction keeps. -/
theorem afterLoop_spec {r : CopyState × Outcome (IoResult Bool)}
    {next : Bool → CopyState →
      CopyState × Option (Outcome (IoResult Unit))}
    (h : Safe dir others r.1 r.2)
    (hnext : ∀ registered x, Keeps dir others x →
      Goes (Keeps dir others) (Safe dir others) (next registered x)) :
    Goes (Keeps dir others) (Safe dir others) (afterLoop r next) := by
  obtain ⟨x, ((e | registered) | _) | _ | _⟩ := r
  · exact ⟨h.1, by simp⟩
  · exact hnext registered x h.1
  · exact ⟨h.1, by simp⟩
  · exact absurd rfl h.2
  · exact ⟨h.1, by simp⟩

/-- **The step lemma.**  A pass of the outer loop keeps the direction a pipe. -/
theorem relayPass_spec (n : ℕ) (keeps : Keeps dir others x) :
    Goes (Keeps dir others) (Safe dir others) (relayPass env dir n x) := by
  unfold relayPass
  refine afterLoop_spec ?_ fun filling x keeps => afterLoop_spec ?_ fun draining x keeps => ?_
  · exact loopN_rule (fillPass env dir) (fun _ keeps => fillPass_spec keeps)
      (fun _ keeps => ⟨keeps, by simp⟩) n x keeps
  · exact loopN_rule (drainPass env dir) (fun _ keeps => drainPass_spec keeps)
      (fun _ keeps => ⟨keeps, by simp⟩) n x keeps
  · split
    · exact ⟨keeps, by simp⟩
    · exact keeps

/-- A direction stays a pipe, however long it is polled. -/
theorem loop_spec (n : ℕ) (keeps : Keeps dir others x) :
    Safe dir others (loopN (relayPass env dir n) n x).1
      (loopN (relayPass env dir n) n x).2 :=
  loopN_rule (relayPass env dir n) (fun _ keeps => relayPass_spec n keeps)
    (fun _ keeps => ⟨keeps, by simp⟩) n x keeps

end Loops

/-! ## Both directions -/

section Both

variable {env : Environment packetInterface} {dir : Dir}

/-- A direction that has not moved still refines its pipe. -/
theorem Refines.frame {c : CopyBuffer} {log log' : Log packetInterface}
    (refines : Refines dir c log) (h : trace dir log' = trace dir log) :
    Refines dir c log' :=
  ⟨refines.wellFormed, by rw [h]; exact refines.run, refines.sendable⟩

/-- Both directions of a relay refine their pipes. -/
structure Relayed (sendQueue recvQueue : CopyBuffer) (log : Log packetInterface) :
    Prop where
  send : Refines .sendTo sendQueue log
  recv : Refines .recvFrom recvQueue log

/-- Neither direction panics. -/
def NoPanic (_ : CopyBuffer) (outcome : Outcome (IoResult Unit)) : Prop :=
  outcome ≠ .panicked

/-- **The step lemma of the relay.** -/
theorem poll_spec (n : ℕ) (x : CopyBidirectional × Log packetInterface)
    (relayed : Relayed x.1.sendQueue x.1.recvQueue x.2) :
    Relayed (CopyBidirectional.poll env n x).1.1.sendQueue
        (CopyBidirectional.poll env n x).1.1.recvQueue
        (CopyBidirectional.poll env n x).1.2 ∧
      Joined NoPanic NoPanic (CopyBidirectional.poll env n x).1.1.sendQueue
        (CopyBidirectional.poll env n x).1.1.recvQueue
        (CopyBidirectional.poll env n x).2 := by
  refine join_rule (P := Relayed) ?forth ?back relayed
  case forth =>
    intro sendQueue recvQueue log relayed
    have hforth : Safe .sendTo (trace .recvFrom log)
        (pollSendTo env n (sendQueue, log)).1 (pollSendTo env n (sendQueue, log)).2 :=
      loop_spec n ⟨relayed.send, rfl⟩
    obtain ⟨⟨hrefines, hframe⟩, hpanic⟩ := hforth
    exact ⟨⟨hrefines, relayed.recv.frame hframe⟩, hpanic⟩
  case back =>
    intro sendQueue recvQueue log relayed
    have hback : Safe .recvFrom (trace .sendTo log)
        (pollRecvFrom env n (recvQueue, log)).1
        (pollRecvFrom env n (recvQueue, log)).2 :=
      loop_spec n ⟨relayed.recv, rfl⟩
    obtain ⟨⟨hrefines, hframe⟩, hpanic⟩ := hback
    exact ⟨⟨relayed.send.frame hframe, hrefines⟩, hpanic⟩

theorem relayed_new : Relayed (.new 1 16) (.new 1 16) [] := by
  have hnew : ∀ dir, Refines dir (.new 1 16) [] := fun dir =>
    ⟨CopyBuffer.wellFormed_new (by decide), rfl, fun packet mem => by cases mem⟩
  exact ⟨hnew .sendTo, hnew .recvFrom⟩

/-- A direction that does its work: its queue, and the trace of its calls. -/
structure InOrder (c : CopyBuffer) (trace : List (Pipe.Event Packet)) : Prop where
  /-- No packet is lost, duplicated, reordered or given another one's address. -/
  packets : Pipe.received trace = Pipe.sent trace ++ c.packets
  isPrefix : Pipe.sent trace <+: Pipe.received trace
  wellFormed : c.WellFormed 16

theorem Refines.inOrder {c : CopyBuffer} {log : Log packetInterface}
    (refines : Refines dir c log) : InOrder c (trace dir log) := by
  have orderly := Pipe.orderly_of_run refines.run
  exact ⟨orderly.balance, orderly.sent_prefix, refines.wellFormed⟩

/-- At every moment of a relay, both directions refine their pipes and neither has panicked. -/
theorem relayed_of_polled {relay : CopyBidirectional} {log : Log packetInterface}
    {outcome : Outcome (IoResult Unit)}
    (moment : Polled (CopyBidirectional.poll env) (.new, []) (relay, log) outcome) :
    Relayed relay.sendQueue relay.recvQueue log ∧
      Joined NoPanic NoPanic relay.sendQueue relay.recvQueue outcome :=
  moment.rule
    (P := fun x => Relayed x.1.sendQueue x.1.recvQueue x.2)
    (Q := fun x outcome => Joined NoPanic NoPanic x.1.sendQueue x.1.recvQueue outcome)
    relayed_new trivial poll_spec

end Both

/-- **The UDP relay.**  At every moment, in both directions: the packets received
are the packets accepted at the other end followed by the filled buffers of the
queue, only the last buffer of the queue may be empty, those of the pool are, and
there are at most 16.  The subtraction in `grow` never underflows and
`unreachable!()` is never reached. -/
theorem relay_packets_inOrder (env : Environment packetInterface)
    (relay : CopyBidirectional) (log : Log packetInterface)
    (outcome : Outcome (IoResult Unit))
    (moment : Polled (CopyBidirectional.poll env) (.new, []) (relay, log) outcome) :
    (∀ dir, InOrder (relay.queue dir) (trace dir log)) ∧ outcome ≠ .panicked := by
  obtain ⟨relayed, joined⟩ := relayed_of_polled moment
  refine ⟨fun dir => ?_, ?_⟩
  · cases dir with
    | sendTo => exact relayed.send.inOrder
    | recvFrom => exact relayed.recv.inOrder
  · rintro rfl
    rcases joined with h | h
    · exact h rfl
    · exact h rfl

/-- A channel with two packets for a socket that accepts everything. -/
def twoPackets : Environment packetInterface := fun log call =>
  match call with
  | .channelSendTo room =>
      if log.length < 2 then .ready (.ok (⟨[UInt8.ofNat log.length].take room,
        List.length_take_le _ _⟩, .domain "a" 53))
      else .pending
  | .socketSendTo data _ => .ready (.ok data.length)
  | .socketRecvFrom _ => .pending
  | .channelRecvFrom data _ => .ready (.ok data.length)

/-- One poll relays both packets, in order. -/
theorem relay_packets_inOrder_twoPackets :
    ∃ (relay : CopyBidirectional) (log : Log packetInterface),
      Pipe.sent (trace .sendTo log) = [([0], .domain "a" 53), ([1], .domain "a" 53)] ∧
      ∀ dir, InOrder (relay.queue dir) (trace dir log) := by
  have moment : Polled (CopyBidirectional.poll twoPackets) (.new, []) _ _ :=
    .poll 4 .start
  exact ⟨_, _, by decide +kernel, (relay_packets_inOrder twoPackets _ _ _ moment).1⟩

end UdpRelay

end RabbitDigger
