import RabbitDigger.Socks5.Datagram
import RabbitDigger.Socks5.SendBuffer

/-!
# A UDP tunnel through SOCKS5

The two ends of a tunnel: the `Socks5UdpSocket` of a client (`client.rs`), and the association of
a server (`server.rs`), whose channel is relayed to a socket of the net.  Between them lies a
network that may **lose, repeat and reorder** datagrams as it likes.

The client puts a header in front of a payload and the server takes it off again, both keep a
packed datagram in `send_buf` while they wait, and the relay behind them has buffers of its own.
With all of this the program adds nothing to what the network does (`tunnel_transparent`): of what
the network brings to the server, **in the order in which it does**, each payload is handed to the
net once, under the target it was sent to, as far as the protocol carries it; and each reply of the
net goes back to the client, once.

Nobody else sends to the server here, datagrams fit the buffers of the relay, and the net does not
reply before the client has sent something.  It cannot do without: `Socks5.Association` shows what
one datagram of a stranger does.
-/

namespace RabbitDigger.Socks5Tunnel

open Polling Transition UdpRelay
open Socks5Server (Datagram UdpAnswers decode endpointOf)

/-- The datagram of a packet. -/
def pack (writer : AddressWriter) (p : Packet) : IoResult Bytes := packUdp writer p.2 p.1

/-- A packet as it is carried. -/
def carried (p : Packet) : Packet := (p.1, p.2.carried)

/-- It is decoded to the packet. -/
theorem decode_of_pack {codec : AddressCodec} {writer : AddressWriter} {p : Packet}
    {datagram : Bytes} (laws : codec.Undoes writer) (hfits : (ra2sa p.2).Fits)
    (hpack : pack writer p = .ok datagram) : decode codec datagram = some (carried p) := by
  obtain ⟨bytes, hwrite, hread⟩ := laws.reads (ra2sa p.2) hfits
  rw [pack, packUdp, hwrite] at hpack
  have hdatagram : datagram = 0 :: 0 :: 0 :: (bytes ++ p.1) := (Except.ok.inj hpack).symm
  rw [hdatagram]
  simp only [decode, hread, List.drop_left]
  rfl

/-! ## The tunnel -/

/-- A tunnel: the socket of the client and the association of the server.  The list is for the
statements only; nothing in the model depends on it. -/
structure State where
  client : Socks5Client.Socks5UdpSocket
  server : Socks5Server.State
  /-- What the user of the client has begun to send: the calls that found `send_buf` empty. -/
  begun : List Packet

/-- What can happen. -/
inductive Event where
  /-- The user calls `poll_send_to`, and the socket below answers. -/
  | send (answer : Poll (IoResult ℕ)) (data : Bytes) (target : Address)
  /-- The network brings a datagram of the client to the server. -/
  | carry (i : ℕ)
  /-- The relay of the server makes a step. -/
  | relay (loop : Loop) (dir : Dir) (answers : UdpAnswers) (net : SocketAnswers)

section Step

variable (codec : AddressCodec) (writer : AddressWriter) (leftover : SocksAddress → Bytes)
  (clientAddr serverAddr : SocketAddr)

/-- Something happens at the server. -/
def State.serve (st : State) (event : Socks5Server.Event) : Option State :=
  (Socks5Server.step codec writer st.server event).map fun server => { st with server := server }

def step (st : State) : Event → Option State
  | .send answer data target =>
      some { st with
        client := (st.client.pollSendTo writer leftover answer data target).1
        begun := if st.client.sendBuf = [] then st.begun ++ [(data, target)] else st.begun }
  | .carry i => do
      let (datagram, addr) ← st.client.outgoing[i]?
      guard (addr = serverAddr)
      st.serve codec writer (.arrive (datagram, clientAddr))
  | .relay loop dir answers net => st.serve codec writer (.relay loop dir answers net)

/-- A tunnel from its beginning: the client has been told the address of the server's socket. -/
def system : System State Event where
  init := ⟨.new serverAddr, ⟨.new, .new, [], false⟩, []⟩
  step := step codec writer leftover clientAddr serverAddr

end Step

/-- A target can be written, and the datagram fits the buffers of the relay. -/
def Fit (writer : AddressWriter) (p : Packet) : Prop :=
  (ra2sa p.2).Fits ∧ ∀ datagram ∈ (pack writer p).toOption, datagram.length ≤ udpBufferSize

instance (writer : AddressWriter) (p : Packet) : Decidable (Fit writer p) :=
  inferInstanceAs (Decidable (_ ∧ _))

/-- What is sent fits, and no reply is passed on before the server has heard of the client. -/
def fitting (codec : AddressCodec) (writer : AddressWriter) (st : State) : Event → Bool
  | .send _ data target => Fit writer (data, target)
  | .carry _ => true
  | .relay loop dir answers net =>
      Socks5Server.wellBehaved codec st.server (.relay loop dir answers net)

/-! ## The client sends -/

/-- A datagram that waits. -/
def waiting (sendBuf : Bytes) : List Bytes := (sendBufPacket sendBuf).toList

/-- **What the client has sent** are the datagrams that were begun, each once and in order, except
for one that waits. -/
structure Sends (writer : AddressWriter) (client : Socks5Client.Socks5UdpSocket)
    (begun : List Packet) : Prop where
  fit : ∀ p ∈ begun, Fit writer p
  packed : begun.map (pack writer)
    = (client.outgoing.map Prod.fst ++ waiting client.sendBuf).map .ok

section Sends

variable {codec : AddressCodec} {writer : AddressWriter} {client : Socks5Client.Socks5UdpSocket}
  {begun : List Packet}

/-- A datagram that has been sent is one that was begun. -/
theorem Sends.datagram (h : Sends writer client begun) {d : Datagram}
    (hmem : d ∈ client.outgoing) : ∃ p ∈ begun, pack writer p = .ok d.1 := by
  have hsent : .ok d.1 ∈ begun.map (pack writer) := by
    rw [h.packed]
    exact List.mem_map_of_mem (List.mem_append_left _ (List.mem_map_of_mem hmem))
  exact List.mem_map.mp hsent

/-- What a call of `poll_send_to` has to send: the datagram that waits, or else its own. -/
theorem Sends.offers (laws : codec.Undoes writer) (h : Sends writer client begun)
    (leftover : SocksAddress → Bytes) (data : Bytes) {target : Address}
    (hfits : (ra2sa target).Fits) :
    ∃ buf, buf ≠ [] ∧ (if client.sendBuf = [] then packInto writer leftover target data
        else (client.sendBuf, .ok ())) = (buf, .ok ()) ∧
      (if client.sendBuf = [] then begun ++ [(data, target)] else begun).map (pack writer)
        = (client.outgoing.map Prod.fst ++ [buf]).map .ok := by
  have hpacked := h.packed
  by_cases hbuf : client.sendBuf = []
  · obtain ⟨bytes, hwrite, -⟩ := laws.reads (ra2sa target) hfits
    have hpack : packUdp writer target data = .ok ([0, 0, 0] ++ bytes ++ data) := by
      rw [packUdp, hwrite]
    refine ⟨_, packUdp_ne_nil hpack, by rw [if_pos hbuf, packInto, hpack], ?_⟩
    rw [waiting, sendBufPacket, if_pos hbuf, Option.toList_none, List.append_nil] at hpacked
    rw [if_pos hbuf, List.map_append, hpacked, List.map_append]
    exact congrArg _ (congrArg (· :: []) hpack)
  · refine ⟨_, hbuf, if_neg hbuf, ?_⟩
    rw [waiting, sendBufPacket_of_ne hbuf, Option.toList_some] at hpacked
    rw [if_neg hbuf]
    exact hpacked

/-- **A call of `poll_send_to` keeps this**, whatever the socket below answers. -/
theorem Sends.pollSendTo (laws : codec.Undoes writer) (h : Sends writer client begun)
    (leftover : SocksAddress → Bytes) (answer : Poll (IoResult ℕ)) {data : Bytes}
    {target : Address} (hfit : Fit writer (data, target)) :
    Sends writer (client.pollSendTo writer leftover answer data target).1
      (if client.sendBuf = [] then begun ++ [(data, target)] else begun) := by
  obtain ⟨buf, hne, hoffered, hpacked⟩ := h.offers laws leftover data hfit.1
  have hfits : ∀ p ∈ if client.sendBuf = [] then begun ++ [(data, target)] else begun,
      Fit writer p := by
    split
    · exact List.forall_mem_append.mpr ⟨h.fit, List.forall_mem_singleton.mpr hfit⟩
    · exact h.fit
  unfold Socks5Client.Socks5UdpSocket.pollSendTo
  rw [hoffered]
  rcases answer with (e | n) | _
  · exact ⟨hfits, by rw [waiting, sendBufPacket_of_ne hne]; exact hpacked⟩
  · refine ⟨hfits, ?_⟩
    show _ = List.map _ (List.map _ (client.outgoing ++ [(buf, client.serverAddr)]) ++ [])
    rw [List.append_nil, List.map_append]
    exact hpacked
  · exact ⟨hfits, by rw [waiting, sendBufPacket_of_ne hne]; exact hpacked⟩

end Sends

/-! ## The server replies -/

/-- **What the server sends** are the packets that the relay has handed on, each once and in order.
One that waits is the next one of the relay. -/
structure Replies (writer : AddressWriter) (st : Socks5Server.State) : Prop where
  replied : (st.socket.outgoing.map Prod.fst).map .ok
    = (st.task.sent .recvFrom).map (pack writer)
  waits : st.task.ended = none → ∀ datagram ∈ sendBufPacket st.socket.sendBuf,
    ∃ p rest, st.task.inFlight .recvFrom = p :: rest ∧ pack writer p = .ok datagram

section Replies

variable {codec : AddressCodec} {writer : AddressWriter} {st : Socks5Server.State}

/-- A step that sends nothing, and takes nothing from the replies. -/
theorem Replies.frame (h : Replies writer st) (hbefore : st.task.ended = none)
    {socket : Socks5Server.Socks5UdpSocket} {task : UdpRelay.Task} (failed : Bool)
    (hout : socket.outgoing.map Prod.fst = st.socket.outgoing.map Prod.fst)
    (hwaiting : sendBufPacket socket.sendBuf = sendBufPacket st.socket.sendBuf)
    (hsent : task.sent .recvFrom = st.task.sent .recvFrom)
    (hgrown : ∃ more, task.inFlight .recvFrom = st.task.inFlight .recvFrom ++ more) :
    Replies writer { st with socket := socket, task := task, failed := failed } := by
  refine ⟨?_, fun _ datagram hmem => ?_⟩
  · dsimp only
    rw [hout, hsent]
    exact h.replied
  · obtain ⟨p, rest, hfront, hpack⟩ := h.waits hbefore datagram (hwaiting ▸ hmem)
    obtain ⟨more, hmore⟩ := hgrown
    exact ⟨p, rest ++ more, hmore.trans (congrArg (· ++ more) hfront), hpack⟩

/-- The relay hands a reply to the socket. -/
theorem Replies.reply (h : Replies writer st) (hbefore : st.task.ended = none) {clean : Bool}
    {socket : Socks5Server.Socks5UdpSocket} {result : Poll (IoResult ℕ)} {data : Bytes}
    {addr : SocketAddr} (failed : Bool) {task : UdpRelay.Task} {rest : List Packet}
    (hattempt : (Socks5Server.serverSender codec writer).Attempt (data, addr) st.socket socket
      clean result)
    (hfront : st.task.inFlight .recvFrom = (data, .socketAddr addr) :: rest)
    (hsent : task.sent .recvFrom
      = st.task.sent .recvFrom ++ Task.takes .recvFrom ⟨.channelRecvFrom data addr, result⟩)
    (hinFlight : Task.takes .recvFrom ⟨.channelRecvFrom data addr, result⟩
      ++ task.inFlight .recvFrom = st.task.inFlight .recvFrom)
    (hended : task.ended = (failure ⟨.channelRecvFrom data addr, result⟩).map .error) :
    Replies writer { st with socket := socket, task := task, failed := failed } := by
  -- what is offered is the datagram of this reply, also if it has waited
  have hoffers : ∀ datagram,
      (Socks5Server.serverSender codec writer).Offers (data, addr) st.socket datagram →
      pack writer (data, .socketAddr addr) = .ok datagram := by
    rintro datagram (hwaiting | ⟨-, hpack⟩)
    · obtain ⟨p, rest', hfront', hpack⟩ := h.waits hbefore datagram hwaiting
      rw [hfront] at hfront'
      cases hfront'
      exact hpack
    · exact hpack
  have hnothing : Task.takes .recvFrom ⟨.channelRecvFrom data addr, result⟩ = [] →
      socket.outgoing.map Prod.fst = st.socket.outgoing.map Prod.fst →
      (socket.outgoing.map Prod.fst).map .ok = (task.sent .recvFrom).map (pack writer) := by
    intro htakes hout
    rw [hsent, htakes, List.append_nil, hout]
    exact h.replied
  cases hattempt with
  | refused e _ hout | failed e left _ hout =>
      exact ⟨hnothing rfl hout, fun hnone => nomatch hended.symm.trans hnone⟩
  | pending packet hoffered hwaiting hout =>
      refine ⟨hnothing rfl hout, fun _ datagram hmem => ⟨_, rest, hinFlight.trans hfront, ?_⟩⟩
      obtain rfl := Option.some.inj (hwaiting.symm.trans hmem)
      exact hoffers packet hoffered
  | sent packet n hoffered hwaiting hout =>
      have htaken : task.sent .recvFrom = st.task.sent .recvFrom ++ [(data, .socketAddr addr)] :=
        hsent
      refine ⟨?_, fun _ datagram hmem => nomatch hwaiting.symm.trans hmem⟩
      dsimp only
      rw [htaken, List.map_append, ← h.replied, List.map_singleton, hoffers packet hoffered]
      exact (congrArg _ hout).trans List.map_append

/-- **A step of the relay keeps this**, whatever the sockets below answer. -/
theorem Replies.relay (h : Replies writer st) (running : st.task.Running)
    {loop : Loop} {dir : Dir} {answers : UdpAnswers} {net : SocketAnswers}
    {st' : Socks5Server.State}
    (hstep : Socks5Server.step codec writer st (.relay loop dir answers net) = some st') :
    Replies writer st' ∧ st'.arrivals = st.arrivals := by
  obtain ⟨⟨socket, task⟩, hpass, rfl⟩ := Option.map_eq_some_iff.mp hstep
  refine ⟨?_, rfl⟩
  have laws : (Socks5Server.serverSender codec writer).Lawful Socks5Server.serverClean :=
    Socks5Server.serverSender_lawful
  obtain ⟨hbefore, running', ⟨rfl, hlog, -⟩ | ⟨call, hcall, hc, hlog, hended⟩⟩ :=
    UdpRelay.Task.step_cases running hpass
  · refine h.frame hbefore _ rfl rfl (UdpRelay.Task.sent_of_log hlog .recvFrom) ⟨[], ?_⟩
    rw [UdpRelay.Task.inFlight_of_log running running' hlog, List.append_nil]
  · have hsent := UdpRelay.Task.sent_snoc hlog .recvFrom
    have hinFlight := UdpRelay.Task.inFlight_snoc running running' hlog .recvFrom
    -- all calls but one leave the replies alone
    have hother : UdpRelay.Task.handsOn call ≠ some .recvFrom →
        socket.outgoing.map Prod.fst = st.socket.outgoing.map Prod.fst →
        sendBufPacket socket.sendBuf = sendBufPacket st.socket.sendBuf →
        Replies writer
          { st with
            socket := socket
            task := task
            failed := st.failed || Socks5Server.anyError answers net } := by
      intro hne hout hwaiting
      rw [UdpRelay.Task.takes_of_ne hne] at hsent hinFlight
      exact h.frame hbefore _ hout hwaiting (hsent.trans (List.append_nil _)) ⟨_, hinFlight⟩
    subst hc
    cases loop with
    | fill =>
        cases dir with
        | sendTo =>
            cases hcall
            exact hother nofun (laws.side_transmitted (.pollSendTo answers udpBufferSize) st.socket)
              (laws.side_waiting (.pollSendTo answers udpBufferSize) st.socket)
        | recvFrom =>
            cases hcall
            exact hother nofun rfl rfl
    | drain =>
        cases dir with
        | sendTo =>
            obtain ⟨data, addr, rest, -, rfl⟩ := hcall
            exact hother nofun rfl rfl
        | recvFrom =>
            obtain ⟨data, addr, rest, hfront, rfl⟩ := hcall
            have hfrom : UdpRelay.Task.receives (.channelRecvFrom data addr) ≠ some .recvFrom :=
              nofun
            rw [UdpRelay.Task.brings_of_ne hfrom, List.append_nil] at hinFlight
            exact h.reply hbefore _ (laws.attempt answers (data, addr) st.socket) hfront hsent
              hinFlight hended

end Replies

/-! ## All runs -/

/-- **What the tunnel does**, at any moment. -/
structure Transparent (writer : AddressWriter) (clientAddr : SocketAddr) (st : State) : Prop where
  /-- The datagrams of the client are those that were begun, each once and in order. -/
  sent : st.begun.map (pack writer)
    = (st.client.outgoing.map Prod.fst ++ waiting st.client.sendBuf).map .ok
  /-- What was handed to the net or is in the relay are packets of the client: those of the
  datagrams that the network has brought to the server, each once and in this order, except for
  what is still on its socket. -/
  relayed : ∃ brought : List Packet, (∀ p ∈ brought, p ∈ st.begun) ∧
    st.server.task.sent .sendTo ++ st.server.task.inFlight .sendTo = brought.map carried ∧
    st.server.arrivals.map (fun d => Except.ok d.1)
      = brought.map (pack writer) ++ st.server.socket.incoming.map (fun d => Except.ok d.1)
  /-- The datagrams of the server go to the client. -/
  toClient : ∀ d ∈ st.server.socket.outgoing, d.2 = clientAddr
  /-- They are what came from the net, each once and in order, except for what is in the relay. -/
  replied : (st.server.socket.outgoing.map Prod.fst).map .ok
      = (st.server.task.sent .recvFrom).map (pack writer) ∧
    st.server.task.received .recvFrom
      = st.server.task.sent .recvFrom ++ st.server.task.inFlight .recvFrom
  /-- The relay goes on, unless a socket below fails. -/
  continues : st.server.failed = false → st.server.task.ended = none

/-- The invariant of the tunnel. -/
structure Inv (codec : AddressCodec) (writer : AddressWriter) (clientAddr : SocketAddr)
    (st : State) : Prop where
  sends : Sends writer st.client st.begun
  serves : Socks5Server.Inv codec st.server
  known : ∀ d ∈ st.server.arrivals, d.2 = clientAddr ∧ ∃ p ∈ st.begun, pack writer p = .ok d.1
  replies : Replies writer st.server

section Runs

variable {codec : AddressCodec} {writer : AddressWriter} {leftover : SocksAddress → Bytes}
  {clientAddr serverAddr : SocketAddr} {st st' : State}

theorem inv_init : Inv codec writer clientAddr
    (system codec writer leftover clientAddr serverAddr).init where
  sends := ⟨nofun, rfl⟩
  serves := @Socks5Server.inv_init codec writer
  known := nofun
  replies := ⟨rfl, nofun⟩

/-- The network brings a datagram to the server. -/
theorem Inv.carry (laws : codec.Undoes writer) (h : Inv codec writer clientAddr st) {i : ℕ}
    (hstep : step codec writer leftover clientAddr serverAddr st (.carry i) = some st') :
    Inv codec writer clientAddr st' := by
  obtain ⟨⟨datagram, addr⟩, hget, hrest⟩ := Option.bind_eq_some_iff.mp hstep
  obtain ⟨-, -, hserve⟩ := Option.bind_eq_some_iff.mp hrest
  obtain ⟨server, hserver, rfl⟩ := Option.map_eq_some_iff.mp hserve
  obtain ⟨p, hp, hpack⟩ := h.sends.datagram (List.mem_of_getElem? hget)
  obtain ⟨hfits, hlength⟩ := h.sends.fit p hp
  have hgood : Socks5Server.wellBehaved codec st.server (.arrive (datagram, clientAddr))
      = true := by
    have hendpoint : endpointOf (st.server.arrivals ++ [(datagram, clientAddr)])
        = some clientAddr := by
      cases harrivals : st.server.arrivals with
      | nil => rfl
      | cons first arrivals =>
          exact congrArg some (h.known first (harrivals ▸ List.mem_cons_self)).1
    have hbuffer : datagram.length ≤ udpBufferSize := hlength datagram (by rw [hpack]; rfl)
    simp [Socks5Server.wellBehaved, hendpoint, decode_of_pack laws hfits hpack, hbuffer]
  have hserves := h.serves.arrive hgood hserver
  cases hserver
  exact ⟨h.sends, hserves, List.forall_mem_append.mpr
    ⟨h.known, List.forall_mem_singleton.mpr ⟨rfl, p, hp, hpack⟩⟩,
    h.replies.replied, h.replies.waits⟩

/-- **The step lemma.** -/
theorem Inv.step (laws : codec.Undoes writer) (h : Inv codec writer clientAddr st)
    {event : Event} (hfitting : fitting codec writer st event = true)
    (hstep : step codec writer leftover clientAddr serverAddr st event = some st') :
    Inv codec writer clientAddr st' := by
  cases event with
  | send answer data target =>
      cases hstep
      refine ⟨h.sends.pollSendTo laws leftover answer (of_decide_eq_true hfitting), h.serves,
        fun d hd => ?_, h.replies⟩
      obtain ⟨haddr, p, hp, hpack⟩ := h.known d hd
      refine ⟨haddr, p, ?_, hpack⟩
      dsimp only
      split
      · exact List.mem_append_left _ hp
      · exact hp
  | carry i => exact h.carry laws hstep
  | relay loop dir answers net =>
      obtain ⟨server, hserver, rfl⟩ := Option.map_eq_some_iff.mp hstep
      obtain ⟨hreplies, harrivals⟩ := h.replies.relay h.serves.running hserver
      exact ⟨h.sends, h.serves.relay hfitting hserver, harrivals ▸ h.known, hreplies⟩

/-- The server replies to the client alone. -/
theorem Inv.toClient (h : Inv codec writer clientAddr st) (d : Datagram)
    (hmem : d ∈ st.server.socket.outgoing) : d.2 = clientAddr := by
  have hendpoint := h.serves.replies d hmem
  obtain ⟨taken, harrivals, hknown, -⟩ := h.serves.taken
  rw [hendpoint] at hknown
  cases taken with
  | nil => cases hknown
  | cons first taken =>
      obtain ⟨hfirst, -⟩ := h.known first (harrivals ▸ List.mem_cons_self)
      exact (Option.some.inj hknown).trans hfirst

/-- What has been taken off the socket, as packets. -/
theorem packets_taken (laws : codec.Undoes writer) {begun : List Packet} {taken : List Datagram}
    (h : ∀ d ∈ taken, ∃ p ∈ begun, (ra2sa p.2).Fits ∧ pack writer p = .ok d.1) :
    ∃ brought : List Packet, (∀ p ∈ brought, p ∈ begun) ∧
      (taken.filterMap fun d => decode codec d.1) = brought.map carried ∧
      taken.map (fun d => Except.ok d.1) = brought.map (pack writer) := by
  induction taken with
  | nil => exact ⟨[], nofun, rfl, rfl⟩
  | cons d taken ih =>
      obtain ⟨⟨p, hp, hfits, hpack⟩, hrest⟩ := List.forall_mem_cons.mp h
      obtain ⟨brought, hbegun, hdecoded, hpacked⟩ := ih hrest
      have hhead : decode codec d.1 = some (carried p) := decode_of_pack laws hfits hpack
      refine ⟨p :: brought, List.forall_mem_cons.mpr ⟨hp, hbegun⟩, ?_, ?_⟩
      · rw [List.filterMap_cons_some (f := fun d : Datagram => decode codec d.1) hhead, hdecoded]
        rfl
      · rw [List.map_cons, List.map_cons, hpacked, hpack]

end Runs

/-- **The tunnel is transparent.**  Whatever the network loses, repeats and reorders, and however
the calls of the user, the steps of the relay and the answers of the sockets interleave: the
datagrams of the client are the packets that were begun, in order and each once; of those that the
network brings to the server each is handed to the net under its own target, as far as it is
carried, once and in the order in which they arrived; and the replies of the net go to the client,
in order and each once. -/
theorem tunnel_transparent {codec : AddressCodec} {writer : AddressWriter}
    (laws : codec.Undoes writer) (leftover : SocksAddress → Bytes)
    (clientAddr serverAddr : SocketAddr) {st : State}
    (reach : (system codec writer leftover clientAddr serverAddr).Reach
      (fun st event => fitting codec writer st event = true) st) :
    Transparent writer clientAddr st := by
  have inv : Inv codec writer clientAddr st :=
    System.Reach.invariant inv_init (fun _ _ _ h hfitting hstep => h.step laws hfitting hstep) reach
  obtain ⟨taken, harrivals, -, hreceived⟩ := inv.serves.taken
  have htaken : ∀ d ∈ taken, ∃ p ∈ st.begun, (ra2sa p.2).Fits ∧ pack writer p = .ok d.1 := by
    intro d hd
    obtain ⟨-, p, hp, hpack⟩ := inv.known d (harrivals ▸ List.mem_append_left _ hd)
    exact ⟨p, hp, (inv.sends.fit p hp).1, hpack⟩
  obtain ⟨brought, hbegun, hdecoded, hpacked⟩ := packets_taken laws htaken
  rw [← hreceived, inv.serves.running.balance] at hdecoded
  exact {
    sent := inv.sends.packed
    relayed := ⟨brought, hbegun, hdecoded, by rw [harrivals, List.map_append, hpacked]⟩
    toClient := inv.toClient
    replied := ⟨inv.replies.replied, inv.serves.running.balance .recvFrom⟩
    continues := inv.serves.continues }

/-- Two packets are sent, the network brings the second one twice and the first one never, and the
net replies. -/
def oneReply : List Event :=
  [.send (.ready (.ok 1)) [7] (.domain "a" 53), .send .pending [8] (.domain "a" 53),
    .send (.ready (.ok 1)) [8] (.domain "a" 53), .carry 1, .carry 1,
    .relay .fill .sendTo Socks5Server.readyAnswers Socks5Server.acceptingNet,
    .relay .drain .sendTo Socks5Server.readyAnswers Socks5Server.acceptingNet,
    .relay .fill .recvFrom Socks5Server.readyAnswers
      ⟨.pending, .ready (.ok ([9], .v4 8 53))⟩,
    .relay .drain .recvFrom Socks5Server.readyAnswers Socks5Server.acceptingNet]

theorem tunnel_transparent_oneReply :
    ∃ st, (system Rfc1928.codec Rfc1928.writer (fun _ => []) (.v4 1 5000) (.v4 2 1080)).Reach
        (fun st event => fitting Rfc1928.codec Rfc1928.writer st event = true) st ∧
      st.server.task.sent .sendTo = [([8], .domain "a" 53)] ∧
      st.server.task.sent .recvFrom = [([9], .socketAddr (.v4 8 53))] ∧
      Transparent Rfc1928.writer (.v4 1 5000) st := by
  have hreplay : ((system Rfc1928.codec Rfc1928.writer (fun _ => []) (.v4 1 5000)
      (.v4 2 1080)).replay (fitting Rfc1928.codec Rfc1928.writer) oneReply).map
      (fun st => (st.server.task.sent .sendTo, st.server.task.sent .recvFrom)) =
      some ([([8], .domain "a" 53)], [([9], .socketAddr (.v4 8 53))]) := by decide +kernel
  obtain ⟨st, hst, hresult⟩ := Option.map_eq_some_iff.mp hreplay
  have reach := System.reach_of_replay _ _ oneReply hst
  exact ⟨st, reach, congrArg Prod.fst hresult, congrArg Prod.snd hresult,
    tunnel_transparent Rfc1928.codec_undoes _ _ _ reach⟩

end RabbitDigger.Socks5Tunnel
