import RabbitDigger.Relay.Task

/-!
# Forwarding datagrams of many sources

`rd-std/src/util/forward_udp.rs` and its submodules: `ForwardUdp` receives datagrams from
many sources through one `RawUdpSource` and keeps a `UdpConnection` for each source in an LRU
cache.  A connection is a task of its own: it binds a socket and then runs the UDP relay
between the socket and a `BackChannel`.

* A datagram goes through the bounded channel of its connection (`try_send`: it is dropped
  when the channel is full or closed) to the relay and from there to the socket.
* A reply goes through the relay into one channel that **all connections share**.  The
  forwarder takes replies off it one by one and offers each to the source, from a buffer for
  one packet (`send_buf`), until it is accepted.

Each step of the model is one call of one task; the tasks interleave in any order.  Entries
may vanish from the cache at any time (age, capacity and the order of use only decide which
and when).  A connection whose entry has vanished is aborted, but its task may still go on
for a while, side by side with a new connection of the same source.

The cache compares addresses by their order (`SocketAddr.cmp`).

Connections are numbered in the order of their creation, and the packets in the shared
channel carry the number of their connection.  The numbers, `arrivals` and `log` are there
for the statements only: nothing in the model depends on them.
-/

namespace RabbitDigger.ForwardUdp

open Polling UdpRelay Transition

/-! ## Packets and the back channel -/

/-- `UdpPacket`. -/
structure UdpPacket where
  from' : SocketAddr
  to' : SocketAddr
  data : Bytes
deriving Repr, DecidableEq

/-- A packet in the shared channel, with the number of its connection. -/
abbrev Reply := ℕ × UdpPacket

/-- `rd_interface::constant::UDP_BUFFER_SIZE`, the size of the receive buffer. -/
def recvBufferSize : ℕ := 8 * 1024

/-- `BackChannel`; `queue` is what waits in its receiver. -/
structure BackChannel where
  to' : SocketAddr
  queue : List (Bytes × SocketAddr)
  flushing : Bool
deriving Repr, DecidableEq

/-- What the channels answer during a call.  They may ask to wait although there is
something, because a task has a budget. -/
structure BackAnswers where
  /-- `receiver.poll_recv` is ready, if it can be. -/
  recv : Bool
  /-- `sender.poll_ready` is ready, if it can be. -/
  ready : Bool
  /-- `sender.poll_flush`. -/
  flush : Poll (IoResult Unit)

namespace BackChannel

/-- The error of a channel whose other end is gone. -/
def closedError : IoError := { kind := .other, message := "channel closed" }

/-- `poll_send_to`, with the sender of the channel still there or not. -/
def pollSendTo (hasSender : Bool) (answers : BackAnswers) (room : ℕ) (b : BackChannel) :
    BackChannel × Poll (IoResult ({ b : Bytes // b.length ≤ room } × Address)) :=
  match b.queue with
  | [] => (b, if hasSender then .pending else .ready (.error closedError))
  | (item, addr) :: rest =>
      if answers.recv then
        ({ b with queue := rest },
          .ready (.ok (⟨item.take room, List.length_take_le _ _⟩, .socketAddr addr)))
      else (b, .pending)

/-- `poll_recv_from`, once the packet is on its way. -/
def pollFlush (answers : BackAnswers) (data : Bytes) (b : BackChannel) :
    BackChannel × Poll (IoResult ℕ) :=
  match answers.flush with
  | .pending => (b, .pending)
  | .ready (.error e) => (b, .ready (.error { kind := .other, message := e.message }))
  | .ready (.ok _) => ({ b with flushing := false }, .ready (.ok data.length))

/-- `poll_recv_from`, into the shared channel of this size, which is closed when the
forwarder is gone. -/
def pollRecvFrom (i size : ℕ) (closed : Bool) (answers : BackAnswers) (data : Bytes)
    (target : SocketAddr) (x : BackChannel × List Reply) :
    (BackChannel × List Reply) × Poll (IoResult ℕ) :=
  if x.1.flushing then
    (((x.1.pollFlush answers data).1, x.2), (x.1.pollFlush answers data).2)
  else if closed then (x, .ready (.error closedError))
  else if answers.ready ∧ x.2.length < size then
    -- `start_send`
    let b := { x.1 with flushing := true }
    let packet : UdpPacket := { from' := target, to' := x.1.to', data := data }
    (((b.pollFlush answers data).1, x.2 ++ [(i, packet)]), (b.pollFlush answers data).2)
  else (x, .pending)

end BackChannel

/-- `IUdpChannel for BackChannel`, for the connection of this number. -/
def backChannel (i size : ℕ) (hasSender closed : Bool) :
    Channel (BackChannel × List Reply) BackAnswers where
  pollSendTo answers room x :=
    (((x.1.pollSendTo hasSender answers room).1, x.2),
      (x.1.pollSendTo hasSender answers room).2)
  pollRecvFrom answers data target x :=
    BackChannel.pollRecvFrom i size closed answers data target x

/-! ## Connections -/

/-- How far the task of a connection is. -/
inductive Phase where
  | binding
  | relaying
  | ended
deriving Repr, DecidableEq

/-- `UdpConnection`, with its task. -/
structure UdpConnection where
  bindAddr : Address
  back : BackChannel
  task : UdpRelay.Task
  phase : Phase

namespace UdpConnection

/-- `UdpConnection::new`. -/
def new (bindFrom : SocketAddr) (bindAddr : Address) : UdpConnection where
  bindAddr := bindAddr
  back := { to' := bindFrom, queue := [], flushing := false }
  task := .new
  phase := .binding

/-- `UdpConnection::send`, that is `try_send`; `none` if the channel is full, or closed
because the task has dropped its receiver. -/
def send (channelSize : ℕ) (conn : UdpConnection) (packet : Bytes × SocketAddr) :
    Option UdpConnection :=
  if conn.phase = .ended ∨ channelSize ≤ conn.back.queue.length then none
  else some { conn with back := { conn.back with queue := conn.back.queue ++ [packet] } }

end UdpConnection

/-! ## The forwarder -/

/-- A datagram that was received, with the number of the connection that took it. -/
structure Arrival where
  from' : SocketAddr
  to' : SocketAddr
  data : Bytes
  connection : Option ℕ
deriving Repr, DecidableEq

/-- What the forwarder does with replies. -/
inductive BackEvent where
  /-- A reply was taken off the shared channel. -/
  | take (reply : Reply)
  /-- It was offered to the source, `RawUdpSource::poll_send`. -/
  | send (reply : Reply) (answer : Poll (IoResult Unit))

/-- `ForwardUdp`, and the connections it has made. -/
structure State where
  /-- The cache, newest first. -/
  conn : List (SocketAddr × ℕ)
  connections : List UdpConnection
  /-- The packets in the shared channel. -/
  recvBack : List Reply
  sendBuf : Option Reply
  /-- How the future has ended, if it has. -/
  result : Option (IoResult Unit)
  arrivals : List Arrival
  log : List BackEvent

namespace State

/-- `ForwardUdp::new`. -/
def new : State where
  conn := []
  connections := []
  recvBack := []
  sendBuf := none
  result := none
  arrivals := []
  log := []

/-- The capacity of the cache. -/
def capacity : ℕ := 256

/-- The connection that the cache has for a source. -/
def find (st : State) (key : SocketAddr) : Option ℕ :=
  (st.conn.find? fun entry => entry.1.cmp key = .eq).map Prod.snd

/-- `ForwardUdp::get`.  If the cache is full, another entry has to go first. -/
def get (st : State) (bindFrom : SocketAddr) : Option (State × ℕ) :=
  match st.find bindFrom with
  | some i => some (st, i)
  | none =>
      if st.conn.length < capacity then
        some ({ st with
          conn := (bindFrom, st.connections.length) :: st.conn
          connections := st.connections ++ [.new bindFrom (Address.anyAddrPort bindFrom)] },
          st.connections.length)
      else none

/-- Hand a datagram to a connection, or drop it. -/
def forward (channelSize : ℕ) (st : State) (i : ℕ) (from' to' : SocketAddr) (data : Bytes) :
    Option State :=
  match st.connections[i]? with
  | none => none
  | some conn =>
      match conn.send channelSize (data, to') with
      | none => some { st with arrivals := st.arrivals ++ [⟨from', to', data, none⟩] }
      | some conn =>
          some { st with
            connections := st.connections.set i conn
            arrivals := st.arrivals ++ [⟨from', to', data, some i⟩] }

/-- A pass of the loop of `poll_recv_packet`. -/
def recvPacket (channelSize : ℕ) (st : State) (from' to' : SocketAddr) (data : Bytes) :
    Option State :=
  if data.length ≤ recvBufferSize then
    (st.get from').bind fun (st, i) => st.forward channelSize i from' to' data
  else none

/-- The future ends with an error.  It drops the cache and with it all connections; what
is in the shared channel is lost. -/
def fail (st : State) (e : IoError) : State :=
  { st with
    conn := []
    result := some (.error e) }

/-- The pass of the loop of `poll_send_back` that takes a packet. -/
def takeBack (st : State) : Option State :=
  match st.sendBuf, st.recvBack with
  | none, reply :: rest =>
      some { st with
        recvBack := rest
        sendBuf := some reply
        log := st.log ++ [.take reply] }
  | _, _ => none

/-- The pass that offers the packet to the source. -/
def sendBack (st : State) (answer : Poll (IoResult Unit)) : Option State :=
  match st.sendBuf with
  | none => none
  | some reply =>
      let st := { st with log := st.log ++ [.send reply answer] }
      match answer with
      | .pending => some st
      | .ready (.ok _) => some { st with sendBuf := none }
      | .ready (.error e) => some (st.fail e)

/-- The cache still has the connection, and with it the sender of its channel. -/
def has (st : State) (i : ℕ) : Bool := st.conn.any fun entry => entry.2 = i

/-- The answer to the `udp_bind` of a connection. -/
def bind (st : State) (i : ℕ) (answer : Except Error Unit) : Option State :=
  match st.connections[i]? with
  | none => none
  | some conn =>
      if conn.phase = .binding then
        let phase := match answer with
          | .ok _ => .relaying
          | .error _ => .ended
        some { st with connections := st.connections.set i { conn with phase := phase } }
      else none

/-- A step of the relay of a connection. -/
def relay (channelSize : ℕ) (st : State) (i : ℕ) (loop : Loop) (dir : Dir)
    (answers : BackAnswers) (socket : SocketAnswers) : Option State :=
  match st.connections[i]? with
  | none => none
  | some conn =>
      if conn.phase = .relaying then
        (Task.step (backChannel i channelSize (st.has i) st.result.isSome) loop dir answers
          socket ((conn.back, st.recvBack), conn.task)).map fun ((back, recvBack), task) =>
            { st with
              connections := st.connections.set i
                { conn with
                  back := back
                  task := task
                  phase := if task.ended.isSome then .ended else .relaying }
              recvBack := recvBack }
      else none

/-- A connection that is not in the cache any more was aborted. -/
def abort (st : State) (i : ℕ) : Option State :=
  match st.connections[i]? with
  | none => none
  | some conn =>
      if st.has i ∨ conn.phase = .ended then none
      else some { st with connections := st.connections.set i { conn with phase := .ended } }

end State

/-- What can happen. -/
inductive Event where
  /-- `RawUdpSource::poll_recv` answers a datagram. -/
  | recv (from' to' : SocketAddr) (data : Bytes)
  /-- It answers an error. -/
  | recvError (e : IoError)
  | takeBack
  | sendBack (answer : Poll (IoResult Unit))
  /-- An entry of the cache expires, or makes room. -/
  | evict (i : ℕ)
  | bind (i : ℕ) (answer : Except Error Unit)
  | relay (i : ℕ) (loop : Loop) (dir : Dir) (answers : BackAnswers) (socket : SocketAnswers)
  | abort (i : ℕ)

/-- The event is one of the forwarder's own future. -/
def Event.ofForwarder : Event → Bool
  | .recv _ _ _ | .recvError _ | .takeBack | .sendBack _ | .evict _ => true
  | .bind _ _ | .relay _ _ _ _ _ | .abort _ => false

/-- One step.  After its end the future is not polled any more. -/
def step (channelSize : ℕ) (st : State) (event : Event) : Option State :=
  if event.ofForwarder ∧ st.result.isSome then none
  else
    match event with
    | .recv from' to' data => st.recvPacket channelSize from' to' data
    | .recvError e => some (st.fail e)
    | .takeBack => st.takeBack
    | .sendBack answer => st.sendBack answer
    | .evict i =>
        if st.has i then some { st with conn := st.conn.filter fun entry => entry.2 ≠ i }
        else none
    | .bind i answer => st.bind i answer
    | .relay i loop dir answers socket => st.relay channelSize i loop dir answers socket
    | .abort i => st.abort i

/-- The forwarder with channels of this size. -/
def system (channelSize : ℕ) : System State Event where
  init := .new
  step := step channelSize

/-! ## What has come of the datagrams and replies -/

namespace State

/-- The datagrams that a connection has taken. -/
def accepted (st : State) (i : ℕ) : List Arrival :=
  st.arrivals.filter fun d => d.connection = some i

/-- The replies that were taken off the shared channel. -/
def taken (st : State) : List Reply :=
  st.log.filterMap fun
    | .take reply => some reply
    | .send _ _ => none

/-- The replies that the source has accepted. -/
def delivered (st : State) : List Reply :=
  st.log.filterMap fun
    | .send reply (.ready (.ok _)) => some reply
    | _ => none

/-- All replies that were ever put into the shared channel. -/
def outgoing (st : State) : List Reply := st.taken ++ st.recvBack

end State

/-- Those of one connection. -/
def ofConnection (i : ℕ) (replies : List Reply) : List UdpPacket :=
  (replies.filter fun reply => reply.1 = i).map Prod.snd

/-- A datagram as the relay hands it on: its buffers may be too small for it. -/
def Arrival.relayed (d : Arrival) : Packet :=
  (d.data.take UdpRelay.udpBufferSize, .socketAddr d.to')

/-- A packet as the relay has received it. -/
def UdpPacket.received (p : UdpPacket) : Packet := (p.data, .socketAddr p.from')

end RabbitDigger.ForwardUdp
