import RabbitDigger.Relay.Task
import RabbitDigger.Socks5.Client

/-!
# UDP associations of the SOCKS5 server

`rd-std/src/socks5/server.rs`: after a `UDP ASSOCIATE` the server relays between a
`Socks5UdpSocket`, at which the datagrams of the client arrive, and a socket of the net.  The
sender of the first datagram becomes the **endpoint**, to which all replies go.

What an association is for is said by `relayable`: of all that arrives, the datagrams of the
endpoint that can be decoded are relayed, in order, and nothing else matters.  The code does
not ask who has sent a datagram, and a datagram that `parse_udp` rejects ends the relay with
its error.  So does a reply that comes before the first datagram.  So an association does what
it is for **as long as nobody sends anything else** and the client is the first to be heard
(`association_relays`); one datagram of a stranger is relayed like the client's, and one
malformed datagram of anybody ends the association (`stranger_interferes`).
-/

namespace RabbitDigger.Socks5Server

open Polling UdpRelay Transition

/-- A datagram with its sender or its destination. -/
abbrev Datagram := Bytes × SocketAddr

/-! ## The channel -/

/-- `Socks5UdpSocket`: the datagrams that wait in its socket and those that were sent
through it, the endpoint, and the packed reply. -/
structure Socks5UdpSocket where
  incoming : List Datagram
  outgoing : List Datagram
  endpoint : Option SocketAddr
  sendBuf : Bytes
deriving Repr, DecidableEq

/-- What lies below answers. -/
structure UdpAnswers where
  /-- `udp.poll_recv_from`, apart from the datagram. -/
  recv : Poll (IoResult Unit)
  /-- `udp.poll_send_to`. -/
  send : Poll (IoResult ℕ)
  /-- `tcp.poll_read`, in `poll_tcp_close`. -/
  tcp : Poll (IoResult Unit)

section Channel

variable (codec : AddressCodec) (writer : AddressWriter)

namespace Socks5UdpSocket

/-- The association as it begins. -/
def new : Socks5UdpSocket where
  incoming := []
  outgoing := []
  endpoint := none
  sendBuf := []

/-- `poll_send_to`. -/
def pollSendTo (answers : UdpAnswers) (room : ℕ) (s : Socks5UdpSocket) :
    Socks5UdpSocket × Poll (IoResult ({ b : Bytes // b.length ≤ room } × Address)) :=
  match answers.recv, s.incoming with
  | .pending, _ => (s, .pending)
  | .ready (.error e), _ => (s, .ready (.error e))
  | .ready (.ok _), [] => (s, .pending)
  | .ready (.ok _), (datagram, fromAddr) :: rest =>
      let buf := (ReadBuf.new room).put datagram
      ({ s with
          incoming := rest
          endpoint := s.endpoint.or (some fromAddr) },
        match (parseUdp codec buf).2 with
        | .error e => .ready (.error e)
        | .ok addr => .ready (.ok (⟨(parseUdp codec buf).1.filled, filled_parseUdp_le buf⟩, addr)))

/-- `poll_recv_from`. -/
def pollRecvFrom (answers : UdpAnswers) (data : Bytes) (target : SocketAddr)
    (s : Socks5UdpSocket) : Socks5UdpSocket × Poll (IoResult ℕ) :=
  match answers.tcp with
  | .ready (.error _) =>
      (s, .ready (.error { kind := .connectionAborted, message := "connection closed" }))
  | _ =>
      match if s.sendBuf = [] then packUdp writer (.socketAddr target) data
        else .ok s.sendBuf with
      | .error e => (s, .ready (.error e))
      | .ok packed =>
          match s.endpoint with
          | none =>
              ({ s with sendBuf := packed },
                .ready (.error { kind := .invalidData, message := "udp endpoint not set" }))
          | some endpoint =>
              match answers.send with
              | .pending => ({ s with sendBuf := packed }, .pending)
              | .ready (.error e) => ({ s with sendBuf := packed }, .ready (.error e))
              | .ready (.ok _) =>
                  ({ s with
                      sendBuf := []
                      outgoing := s.outgoing ++ [(packed, endpoint)] },
                    .ready (.ok data.length))

end Socks5UdpSocket

/-- `IUdpChannel for Socks5UdpSocket`. -/
def udpChannel : Channel Socks5UdpSocket UdpAnswers where
  pollSendTo := Socks5UdpSocket.pollSendTo codec
  pollRecvFrom := Socks5UdpSocket.pollRecvFrom writer

/-! ## Associations -/

/-- An association: the channel, the task of its relay, all that has arrived, and whether
something below has ever answered an error. -/
structure State where
  socket : Socks5UdpSocket
  task : UdpRelay.Task
  arrivals : List Datagram
  failed : Bool

/-- The answer is an error. -/
def isError {α : Type} : Poll (IoResult α) → Bool
  | .ready (.error _) => true
  | _ => false

/-- One of the answers is. -/
def anyError (answers : UdpAnswers) (net : SocketAnswers) : Bool :=
  isError answers.recv || isError answers.send || isError answers.tcp ||
    isError net.sendTo || isError net.recvFrom

/-- What can happen. -/
inductive Event where
  /-- A datagram of anybody arrives. -/
  | arrive (datagram : Datagram)
  /-- The relay makes a step. -/
  | relay (loop : Loop) (dir : Dir) (answers : UdpAnswers) (net : SocketAnswers)

def step (st : State) : Event → Option State
  | .arrive datagram =>
      some { st with
        socket := { st.socket with incoming := st.socket.incoming ++ [datagram] }
        arrivals := st.arrivals ++ [datagram] }
  | .relay loop dir answers net =>
      (UdpRelay.Task.step (udpChannel codec writer) loop dir answers net (st.socket, st.task)).map
        fun (socket, task) =>
          { st with
            socket := socket
            task := task
            failed := st.failed || anyError answers net }

/-- An association from its beginning. -/
def system : System State Event where
  init := ⟨.new, .new, [], false⟩
  step := step codec writer

end Channel

/-! ## What an association is for -/

/-- What a datagram stands for, if it is well-formed and not a fragment. -/
def decode (codec : AddressCodec) : Bytes → Option Packet
  | 0 :: 0 :: 0 :: body =>
      match codec.readFrom body with
      | .ok (addr, n) => some (body.drop n, sa2ra addr)
      | .error _ => none
  | _ => none

/-- The sender of the first datagram. -/
def endpointOf (arrivals : List Datagram) : Option SocketAddr :=
  arrivals.head?.map Prod.snd

/-- What is to be relayed of these datagrams. -/
def relayable (codec : AddressCodec) (endpoint : Option SocketAddr) (datagrams : List Datagram) :
    List Packet :=
  (datagrams.filter fun d => endpoint = some d.2).filterMap fun d => decode codec d.1

/-- **What an association is for.** -/
structure Relays (codec : AddressCodec) (st : State) : Prop where
  /-- What was relayed, what is in flight and what waits is what is to be relayed. -/
  relayed : st.task.sent .sendTo ++ st.task.inFlight .sendTo ++
      relayable codec (endpointOf st.arrivals) st.socket.incoming =
    relayable codec (endpointOf st.arrivals) st.arrivals
  /-- All replies went to the endpoint. -/
  replies : ∀ reply ∈ st.socket.outgoing, endpointOf st.arrivals = some reply.2
  /-- Without failures below, the association goes on. -/
  continues : st.failed = false → st.task.ended = none

/-! ## The calls of the channel -/

/-- `parse_udp` decodes what fits the buffer. -/
theorem parseUdp_of_decode {codec : AddressCodec} {datagram : Bytes} {packet : Packet} {room : ℕ}
    (h : decode codec datagram = some packet) (hroom : datagram.length ≤ room) :
    (parseUdp codec ((ReadBuf.new room).put datagram)).1.filled = packet.1 ∧
      (parseUdp codec ((ReadBuf.new room).put datagram)).2 = .ok packet.2 := by
  have hfilled : ((ReadBuf.new room).put datagram).filled = datagram :=
    ReadBuf.filled_put_of_le hroom
  unfold decode at h
  split at h
  · rename_i body
    split at h
    · rename_i addr n hread
      cases h
      exact parseUdp_ok hfilled hread
    · cases h
  · cases h

/-- What `poll_send_to` does: it waits, it passes an error on, or it takes a datagram. -/
theorem Socks5UdpSocket.pollSendTo_cases (codec : AddressCodec) (answers : UdpAnswers)
    (room : ℕ) (s : Socks5UdpSocket) :
    s.pollSendTo codec answers room = (s, .pending) ∨
      (∃ e, s.pollSendTo codec answers room = (s, .ready (.error e)) ∧
        isError answers.recv = true) ∨
      ∃ datagram rest, s.incoming = datagram :: rest ∧
        (s.pollSendTo codec answers room).1 =
          { s with
            incoming := rest
            endpoint := s.endpoint.or (some datagram.2) } ∧
        ∀ packet, decode codec datagram.1 = some packet → datagram.1.length ≤ room →
          ∃ bytes, (s.pollSendTo codec answers room).2 = .ready (.ok (bytes, packet.2)) ∧
            bytes.val = packet.1 := by
  unfold pollSendTo
  rcases answers.recv with (e | _) | _
  · exact .inr (.inl ⟨e, rfl, rfl⟩)
  · rcases hincoming : s.incoming with _ | ⟨⟨datagram, fromAddr⟩, rest⟩
    · exact .inl rfl
    · refine .inr (.inr ⟨_, rest, rfl, rfl, ?_⟩)
      intro packet hdecode hroom
      obtain ⟨hfilled, haddr⟩ := parseUdp_of_decode hdecode hroom
      refine ⟨⟨_, filled_parseUdp_le ((ReadBuf.new room).put datagram)⟩, ?_, hfilled⟩
      dsimp only
      rw [haddr]
  · exact .inl rfl

/-- What `poll_recv_from` does: it sends a reply to the endpoint, or none; and if it returns
an error, something below has failed or there is no endpoint. -/
theorem Socks5UdpSocket.pollRecvFrom_cases (writer : AddressWriter) (answers : UdpAnswers)
    (data : Bytes) (target : SocketAddr) (s : Socks5UdpSocket) :
    (s.pollRecvFrom writer answers data target).1.incoming = s.incoming ∧
      (s.pollRecvFrom writer answers data target).1.endpoint = s.endpoint ∧
      ((s.pollRecvFrom writer answers data target).1.outgoing = s.outgoing ∨
        ∃ packed endpoint, s.endpoint = some endpoint ∧
          (s.pollRecvFrom writer answers data target).1.outgoing =
            s.outgoing ++ [(packed, endpoint)]) ∧
      ∀ e, (s.pollRecvFrom writer answers data target).2 = .ready (.error e) →
        isError answers.tcp = true ∨ isError answers.send = true ∨ s.endpoint = none := by
  -- a reply can always be packed
  obtain ⟨packed, hpacked⟩ : ∃ packed, (if s.sendBuf = [] then
      packUdp writer (.socketAddr target) data else .ok s.sendBuf) = .ok packed := by
    split
    · obtain ⟨bytes, hbytes⟩ := writer.writes target
      exact ⟨_, by rw [packUdp, ra2sa, hbytes]⟩
    · exact ⟨_, rfl⟩
  unfold pollRecvFrom
  split
  · rename_i htcp
    rw [htcp]
    exact ⟨rfl, rfl, .inl rfl, fun _ _ => .inl rfl⟩
  · rw [hpacked]
    dsimp only
    rcases s.endpoint with _ | endpoint
    · exact ⟨rfl, rfl, .inl rfl, fun _ _ => .inr (.inr rfl)⟩
    · rcases answers.send with (e | n) | _
      · exact ⟨rfl, rfl, .inl rfl, fun _ _ => .inr (.inl rfl)⟩
      · exact ⟨rfl, rfl, .inr ⟨packed, endpoint, rfl, rfl⟩, fun _ h => by cases h⟩
      · exact ⟨rfl, rfl, .inl rfl, fun _ h => by cases h⟩

theorem failure_socketSendTo {data : Bytes} {addr : Address} {answer : Poll (IoResult ℕ)}
    (h : isError answer = false) : failure ⟨.socketSendTo data addr, answer⟩ = none := by
  rcases answer with (e | n) | _
  · cases h
  · rfl
  · rfl

theorem failure_socketRecvFrom {room : ℕ} {net : SocketAnswers}
    (h : isError net.recvFrom = false) :
    failure ⟨.socketRecvFrom room, net.received room⟩ = none := by
  unfold SocketAnswers.received
  rcases hanswer : net.recvFrom with (e | ⟨data, addr⟩) | _
  · rw [hanswer] at h
    cases h
  · rfl
  · rfl

theorem failure_channelRecvFrom {data : Bytes} {addr : SocketAddr} {answer : Poll (IoResult ℕ)}
    (h : ∀ e, answer ≠ .ready (.error e)) :
    failure ⟨.channelRecvFrom data addr, answer⟩ = none := by
  rcases answer with (e | n) | _
  · exact absurd rfl (h e)
  · rfl
  · rfl

/-! ## Runs in which nobody interferes -/

/-- A datagram that arrives is one of the endpoint, can be decoded, and fits the buffers of
the relay; and no reply is passed on as long as there is no endpoint. -/
def wellBehaved (codec : AddressCodec) (st : State) : Event → Bool
  | .arrive datagram =>
      endpointOf (st.arrivals ++ [datagram]) = some datagram.2 &&
        (decode codec datagram.1).isSome &&
        datagram.1.length ≤ UdpRelay.udpBufferSize
  | .relay .drain .recvFrom _ _ =>
      st.socket.endpoint.isSome || (st.task.inFlight .recvFrom).isEmpty
  | .relay _ _ _ _ => true

/-- The datagram is the client's and will be relayed. -/
def Good (codec : AddressCodec) (endpoint : Option SocketAddr) (datagram : Datagram) : Prop :=
  endpoint = some datagram.2 ∧ (decode codec datagram.1).isSome ∧
    datagram.1.length ≤ UdpRelay.udpBufferSize

/-- **The invariant**: what the relay has received are the decoded datagrams that were taken
off the socket, the first of which has set the endpoint. -/
structure Inv (codec : AddressCodec) (st : State) : Prop where
  running : st.task.Running
  taken : ∃ taken, st.arrivals = taken ++ st.socket.incoming ∧
    st.socket.endpoint = endpointOf taken ∧
    st.task.received .sendTo = taken.filterMap fun d => decode codec d.1
  good : ∀ d ∈ st.arrivals, Good codec (endpointOf st.arrivals) d
  replies : ∀ reply ∈ st.socket.outgoing, st.socket.endpoint = some reply.2
  continues : st.failed = false → st.task.ended = none

section Runs

variable {codec : AddressCodec} {writer : AddressWriter}

theorem endpointOf_append {taken : List Datagram} (h : taken ≠ []) (rest : List Datagram) :
    endpointOf (taken ++ rest) = endpointOf taken := by
  cases taken with
  | nil => exact absurd rfl h
  | cons first taken => rfl

theorem inv_init : Inv codec (system codec writer).init where
  running := UdpRelay.Task.running_new
  taken := ⟨[], rfl, rfl, rfl⟩
  good d hd := by cases hd
  replies reply h := by cases h
  continues _ := rfl

theorem Inv.arrive {st st' : State} {datagram : Datagram} (inv : Inv codec st)
    (hgood : wellBehaved codec st (.arrive datagram) = true)
    (h : step codec writer st (.arrive datagram) = some st') : Inv codec st' := by
  cases h
  obtain ⟨taken, harrivals, hendpoint, hreceived⟩ := inv.taken
  simp only [wellBehaved, Bool.and_eq_true, decide_eq_true_eq] at hgood
  refine ⟨inv.running, ⟨taken, ?_, hendpoint, hreceived⟩, ?_, inv.replies, inv.continues⟩
  · show st.arrivals ++ [datagram] = taken ++ (st.socket.incoming ++ [datagram])
    rw [harrivals, List.append_assoc]
  · intro d hd
    rcases List.mem_append.mp hd with hold | hnew
    · have hd' := inv.good d hold
      have hne : st.arrivals ≠ [] := List.ne_nil_of_mem hold
      show Good codec (endpointOf (st.arrivals ++ [datagram])) d
      rw [endpointOf_append hne]
      exact hd'
    · rw [List.mem_singleton.mp hnew]
      exact ⟨hgood.1.1, hgood.1.2, hgood.2⟩

/-- A step of the relay that takes nothing off the socket. -/
theorem Inv.frame {st : State} (inv : Inv codec st) {socket : Socks5UdpSocket}
    {task : UdpRelay.Task} {failed : Bool} (running : task.Running)
    (hincoming : socket.incoming = st.socket.incoming)
    (hendpoint : socket.endpoint = st.socket.endpoint)
    (hreceived : task.received .sendTo = st.task.received .sendTo)
    (hreplies : ∀ reply ∈ socket.outgoing, st.socket.endpoint = some reply.2)
    (hended : failed = false → task.ended = none) :
    Inv codec { st with socket := socket, task := task, failed := failed } := by
  obtain ⟨taken, harrivals, htaken, hold⟩ := inv.taken
  refine ⟨running, ⟨taken, ?_, hendpoint.trans htaken, hreceived.trans hold⟩, inv.good, ?_, hended⟩
  · show st.arrivals = taken ++ socket.incoming
    rw [hincoming, harrivals]
  · show ∀ reply ∈ socket.outgoing, socket.endpoint = some reply.2
    rw [hendpoint]
    exact hreplies

/-- The relay takes a datagram off the socket. -/
theorem Inv.take {st : State} (inv : Inv codec st) {datagram : Datagram} {rest : List Datagram}
    (hincoming : st.socket.incoming = datagram :: rest)
    {task : UdpRelay.Task} (running : task.Running)
    {packet : Packet} (hdecode : decode codec datagram.1 = some packet)
    (hreceived : task.received .sendTo = st.task.received .sendTo ++ [packet])
    (hended : task.ended = none) (failed : Bool) :
    Inv codec
      { st with
        socket := { st.socket with
          incoming := rest
          endpoint := st.socket.endpoint.or (some datagram.2) }
        task := task
        failed := failed } := by
  obtain ⟨taken, harrivals, htaken, hold⟩ := inv.taken
  have hkept : ∀ s, st.socket.endpoint = some s →
      st.socket.endpoint.or (some datagram.2) = some s := by
    intro s hs
    rw [hs]
    rfl
  refine ⟨running, ⟨taken ++ [datagram], ?_, ?_, ?_⟩, inv.good, ?_, fun _ => hended⟩
  · show st.arrivals = taken ++ [datagram] ++ rest
    rw [harrivals, hincoming, List.append_assoc]
    rfl
  · show st.socket.endpoint.or (some datagram.2) = endpointOf (taken ++ [datagram])
    rw [htaken]
    cases taken with
    | nil | cons => rfl
  · rw [hreceived, hold, List.filterMap_append]
    simp [hdecode]
  · intro reply hreply
    exact hkept reply.2 (inv.replies reply hreply)

/-- Without errors below no answer is an error. -/
theorem no_error {failed : Bool} {answers : UdpAnswers} {net : SocketAnswers}
    (h : (failed || anyError answers net) = false) :
    isError answers.recv = false ∧ isError answers.send = false ∧ isError answers.tcp = false ∧
      isError net.sendTo = false ∧ isError net.recvFrom = false := by
  simp only [anyError, Bool.or_eq_false_iff] at h
  tauto

/-- The relay asks the socket for a datagram of the client. -/
theorem Inv.pull {st : State} (inv : Inv codec st) {answers : UdpAnswers} {net : SocketAnswers}
    {task : UdpRelay.Task} (running : task.Running)
    (hreceived : task.received .sendTo = st.task.received .sendTo ++
      UdpRelay.Task.brings .sendTo ⟨.channelSendTo UdpRelay.udpBufferSize,
        (st.socket.pollSendTo codec answers UdpRelay.udpBufferSize).2⟩)
    (hended : task.ended = (failure ⟨.channelSendTo UdpRelay.udpBufferSize,
      (st.socket.pollSendTo codec answers UdpRelay.udpBufferSize).2⟩).map .error) :
    Inv codec
      { st with
        socket := (st.socket.pollSendTo codec answers UdpRelay.udpBufferSize).1
        task := task
        failed := st.failed || anyError answers net } := by
  rcases st.socket.pollSendTo_cases codec answers UdpRelay.udpBufferSize
    with hwait | ⟨e, herror, hisError⟩ | ⟨datagram, rest, hincoming, hsocket, hpacket⟩
  · rw [hwait] at hended hreceived ⊢
    exact inv.frame running rfl rfl (hreceived.trans (List.append_nil _)) inv.replies
      fun _ => hended
  · rw [herror] at hreceived ⊢
    refine inv.frame running rfl rfl (hreceived.trans (List.append_nil _)) inv.replies
      fun hfailed => ?_
    have hnone := (no_error hfailed).1
    rw [hisError] at hnone
    cases hnone
  · -- the datagram is the client's, so it can be decoded
    have hmem : datagram ∈ st.arrivals := by
      obtain ⟨taken, harrivals, _⟩ := inv.taken
      rw [harrivals, hincoming]
      simp
    obtain ⟨_, hsome, hlength⟩ := inv.good datagram hmem
    obtain ⟨packet, hdecode⟩ := Option.isSome_iff_exists.mp hsome
    obtain ⟨bytes, hanswer, hbytes⟩ := hpacket packet hdecode hlength
    rw [hanswer] at hended hreceived
    rw [hsocket]
    refine inv.take hincoming running hdecode ?_ hended _
    rw [hreceived]
    show _ ++ [(bytes.val, packet.2)] = _
    rw [hbytes]

/-- The relay hands a reply to the socket, which knows the endpoint. -/
theorem Inv.reply {st : State} (inv : Inv codec st) (hsome : st.socket.endpoint.isSome)
    {answers : UdpAnswers} {net : SocketAnswers} {task : UdpRelay.Task} {data : Bytes}
    {addr : SocketAddr} (running : task.Running)
    (hreceived : task.received .sendTo = st.task.received .sendTo)
    (hended : task.ended = (failure ⟨.channelRecvFrom data addr,
      (st.socket.pollRecvFrom writer answers data addr).2⟩).map .error) :
    Inv codec
      { st with
        socket := (st.socket.pollRecvFrom writer answers data addr).1
        task := task
        failed := st.failed || anyError answers net } := by
  obtain ⟨hincoming, hendpoint, hreply, herror⟩ :=
    st.socket.pollRecvFrom_cases writer answers data addr
  refine inv.frame running hincoming hendpoint hreceived ?_ fun hfailed => ?_
  · intro reply hmem
    rcases hreply with hsame | ⟨packed, endpoint, hknown, hsent⟩
    · rw [hsame] at hmem
      exact inv.replies reply hmem
    · rw [hsent] at hmem
      rcases List.mem_append.mp hmem with hold | hnew
      · exact inv.replies reply hold
      · rw [List.mem_singleton.mp hnew]
        exact hknown
  · rw [hended]
    refine congrArg _ (failure_channelRecvFrom fun e he => ?_)
    obtain ⟨_, hsend, htcp, _⟩ := no_error hfailed
    rcases herror e he with htrue | htrue | hnone
    · rw [htcp] at htrue
      cases htrue
    · rw [hsend] at htrue
      cases htrue
    · rw [hnone] at hsome
      cases hsome

theorem Inv.relay {st st' : State} {loop : Loop} {dir : Dir} {answers : UdpAnswers}
    {net : SocketAnswers} (inv : Inv codec st)
    (hgood : wellBehaved codec st (.relay loop dir answers net) = true)
    (h : step codec writer st (.relay loop dir answers net) = some st') : Inv codec st' := by
  obtain ⟨⟨socket, task⟩, hstep, rfl⟩ := Option.map_eq_some_iff.mp h
  obtain ⟨_, running, ⟨rfl, hlog, hended⟩ | ⟨call, hcall, hc, hlog, hended⟩⟩ :=
    UdpRelay.Task.step_cases inv.running hstep
  · exact inv.frame running rfl rfl (UdpRelay.Task.received_of_log hlog _) inv.replies
      fun _ => hended
  · have hreceived := UdpRelay.Task.received_snoc hlog .sendTo
    subst hc
    cases loop with
    | fill =>
        cases dir with
        | sendTo =>
            cases hcall
            exact inv.pull running hreceived hended
        | recvFrom =>
            cases hcall
            rw [UdpRelay.Task.brings_of_ne (by simp [UdpRelay.Task.receives]),
              List.append_nil] at hreceived
            refine inv.frame running rfl rfl hreceived inv.replies fun hfailed => ?_
            rw [hended]
            exact congrArg _ (failure_socketRecvFrom (no_error hfailed).2.2.2.2)
    | drain =>
        cases dir with
        | sendTo =>
            obtain ⟨data, addr, rest, _, rfl⟩ := hcall
            rw [UdpRelay.Task.brings_of_ne (by simp [UdpRelay.Task.receives]),
              List.append_nil] at hreceived
            refine inv.frame running rfl rfl hreceived inv.replies fun hfailed => ?_
            rw [hended]
            exact congrArg _ (failure_socketSendTo (no_error hfailed).2.2.2.1)
        | recvFrom =>
            obtain ⟨data, addr, rest, hqueue, rfl⟩ := hcall
            rw [UdpRelay.Task.brings_of_ne (by simp [UdpRelay.Task.receives]),
              List.append_nil] at hreceived
            -- there is a reply, so there is an endpoint
            rw [wellBehaved, hqueue, List.isEmpty_cons, Bool.or_false] at hgood
            exact inv.reply hgood running hreceived hended

/-- **An association does what it is for** in every run in which nobody sends anything but
datagrams of the client that can be decoded and that fit the buffers of the relay, and no reply
is passed on before the first of them. -/
theorem association_relays (codec : AddressCodec) (writer : AddressWriter) (st : State)
    (reach : (system codec writer).Reach (fun st event => wellBehaved codec st event = true) st) :
    Relays codec st := by
  have inv : Inv codec st := by
    refine System.Reach.invariant inv_init ?_ reach
    intro st event st' inv hgood h
    cases event with
    | arrive datagram =>
        have harrive : step codec writer st (.arrive datagram) = some st' := h
        exact inv.arrive hgood harrive
    | relay loop dir answers net => exact inv.relay hgood h
  obtain ⟨taken, harrivals, hendpoint, hreceived⟩ := inv.taken
  -- all that has arrived is to be relayed
  have hall : ∀ datagrams, (∀ d ∈ datagrams, d ∈ st.arrivals) →
      relayable codec (endpointOf st.arrivals) datagrams =
        datagrams.filterMap fun d => decode codec d.1 := by
    intro datagrams hmem
    unfold relayable
    rw [List.filter_eq_self.mpr fun d hd => by simpa using (inv.good d (hmem d hd)).1]
  refine ⟨?_, ?_, inv.continues⟩
  · have hwaiting : ∀ d ∈ st.socket.incoming, d ∈ st.arrivals := by
      intro d hd
      rw [harrivals]
      exact List.mem_append_right _ hd
    rw [← inv.running.balance, hreceived, hall _ hwaiting, hall _ fun _ h => h, harrivals,
      List.filterMap_append]
  · intro reply hreply
    have hsome := inv.replies reply hreply
    have hne : taken ≠ [] := by
      rintro rfl
      rw [hendpoint] at hsome
      cases hsome
    rw [harrivals, endpointOf_append hne, ← hendpoint]
    exact hsome

end Runs

/-! ## With and without strangers -/

/-- The socket addresses of the protocol: type 1 or 4, the IP and the port. -/
def ipWriter : AddressWriter where
  writeTo
    | .socketAddr (.v4 ip port) => .ok (1 :: bigEndian ip.toNat 4 ++ bigEndian port.toNat 2)
    | .socketAddr (.v6 ip port _ _) => .ok (4 :: bigEndian ip.toNat 16 ++ bigEndian port.toNat 2)
    | .domain _ _ => .error (.other "unsupported address")
  writes s := by
    cases s with
    | v4 | v6 => exact ⟨_, rfl⟩

/-- Everything below is ready, and nothing comes from the net. -/
def readyAnswers : UdpAnswers := ⟨.ready (.ok ()), .ready (.ok 1), .pending⟩

def acceptingNet : SocketAnswers := ⟨.ready (.ok 1), .pending⟩

/-- A datagram of the client at `0.0.0.1:5000`. -/
def clientDatagram : Datagram := ([0, 0, 0, 1, 8, 8, 8, 8, 0, 53, 7], .v4 1 5000)

/-- The client sends a datagram and gets a reply. -/
def oneClient : List Event :=
  [.arrive clientDatagram, .relay .fill .sendTo readyAnswers acceptingNet,
    .relay .drain .sendTo readyAnswers acceptingNet,
    .relay .fill .recvFrom readyAnswers ⟨.pending, .ready (.ok ([9], .v4 0x08080808 53))⟩,
    .relay .drain .recvFrom readyAnswers acceptingNet]

theorem association_relays_oneClient :
    ∃ st, (system Socks5Client.ipv4Codec ipWriter).Reach
        (fun st event => wellBehaved Socks5Client.ipv4Codec st event = true) st ∧
      st.socket.outgoing = [([0, 0, 0, 1, 8, 8, 8, 8, 0, 53, 9], .v4 1 5000)] ∧
      Relays Socks5Client.ipv4Codec st := by
  have hreplay : ((system Socks5Client.ipv4Codec ipWriter).replay
      (wellBehaved Socks5Client.ipv4Codec) oneClient).map (fun st => st.socket.outgoing) =
      some [([0, 0, 0, 1, 8, 8, 8, 8, 0, 53, 9], .v4 1 5000)] := by decide +kernel
  obtain ⟨st, hst, hsent⟩ := Option.map_eq_some_iff.mp hreplay
  have reach := System.reach_of_replay _ (wellBehaved Socks5Client.ipv4Codec) oneClient hst
  exact ⟨st, reach, hsent, association_relays _ _ st reach⟩

/-- A well-formed datagram of a stranger. -/
def strangerSends : List Event :=
  [.arrive clientDatagram, .arrive ([0, 0, 0, 1, 6, 6, 6, 6, 0, 53, 9], .v4 2 6000),
    .relay .fill .sendTo readyAnswers acceptingNet,
    .relay .fill .sendTo readyAnswers acceptingNet,
    .relay .drain .sendTo readyAnswers acceptingNet,
    .relay .drain .sendTo readyAnswers acceptingNet]

/-- A malformed datagram of a stranger. -/
def strangerDisturbs : List Event :=
  [.arrive clientDatagram, .arrive ([5], .v4 2 6000),
    .relay .fill .sendTo readyAnswers acceptingNet,
    .relay .fill .sendTo readyAnswers acceptingNet]

/-- What a stranger sends is relayed like the datagrams of the client, and with one malformed
datagram a stranger ends the association. -/
theorem stranger_interferes :
    (∃ st, (system Socks5Client.ipv4Codec ipWriter).Reachable st ∧
      relayable Socks5Client.ipv4Codec (endpointOf st.arrivals) st.arrivals =
        [([7], .socketAddr (.v4 0x08080808 53))] ∧
      st.task.sent .sendTo =
        [([7], .socketAddr (.v4 0x08080808 53)), ([9], .socketAddr (.v4 0x06060606 53))] ∧
      ¬ Relays Socks5Client.ipv4Codec st) ∧
    ∃ st, (system Socks5Client.ipv4Codec ipWriter).Reachable st ∧ st.failed = false ∧
      st.socket.endpoint = some (.v4 1 5000) ∧ st.task.ended.isSome ∧
      ¬ Relays Socks5Client.ipv4Codec st := by
  constructor
  · have hrun : ((system Socks5Client.ipv4Codec ipWriter).run strangerSends).map (fun st =>
        (relayable Socks5Client.ipv4Codec (endpointOf st.arrivals) st.arrivals,
          st.task.sent .sendTo)) =
        some ([([7], .socketAddr (.v4 0x08080808 53))],
          [([7], .socketAddr (.v4 0x08080808 53)), ([9], .socketAddr (.v4 0x06060606 53))]) := by
      decide +kernel
    obtain ⟨st, hst, hview⟩ := Option.map_eq_some_iff.mp hrun
    obtain ⟨hrelayable, hsent⟩ := Prod.mk.inj hview
    refine ⟨st, System.reachable_of_run _ _ hst, hrelayable, hsent, fun relays => ?_⟩
    have hrelayed := congrArg List.length relays.relayed
    rw [hrelayable, hsent, List.length_append, List.length_append] at hrelayed
    simp at hrelayed
    omega
  · have hrun : ((system Socks5Client.ipv4Codec ipWriter).run strangerDisturbs).map (fun st =>
        (st.failed, st.socket.endpoint, st.task.ended.isSome)) =
        some (false, some (.v4 1 5000), true) := by decide +kernel
    obtain ⟨st, hst, hview⟩ := Option.map_eq_some_iff.mp hrun
    obtain ⟨hfailed, hview⟩ := Prod.mk.inj hview
    obtain ⟨hendpoint, hended⟩ := Prod.mk.inj hview
    refine ⟨st, System.reachable_of_run _ _ hst, hfailed, hendpoint, hended, fun relays => ?_⟩
    have hnone := relays.continues hfailed
    rw [hnone] at hended
    cases hended

end RabbitDigger.Socks5Server
