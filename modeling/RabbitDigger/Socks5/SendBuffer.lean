import RabbitDigger.Foundation.Outbox
import RabbitDigger.Socks5.Association

/-!
# The send buffers of SOCKS5

The client's socket (`client.rs`, `poll_send_to`) and the channel of the server (`server.rs`,
`poll_recv_from`) both keep the packed datagram in `send_buf` while the underlying socket is
not ready, and both take an empty `send_buf` for the sign that there is a **new** datagram to
pack.  They are senders in the sense of `Foundation.Outbox`.

`send_buf` is cleared when the datagram has been sent, and on no other way out.  So a call
that returns an error after packing leaves its datagram behind: the next call sends it in
place of its own and reports its own length as sent.  An attempt is *clean*
(`clientClean`, `serverClean`) if it does not take such a way out.

* The client takes it when the underlying socket answers an error, and when the address
  cannot be written.
* The server takes it when the underlying socket answers an error, when there is no endpoint
  yet, and when the TCP connection is found closed while a datagram waits.
-/

namespace RabbitDigger

open Polling Transition Outbox

/-- The bytes in a send buffer. -/
def sendBufPacket (sendBuf : Bytes) : Option Bytes := if sendBuf = [] then none else some sendBuf

theorem sendBufPacket_of_ne {sendBuf : Bytes} (h : sendBuf ≠ []) :
    sendBufPacket sendBuf = some sendBuf := if_neg h

/-! ## The client -/

namespace Socks5Client

variable (writer : AddressWriter) (leftover : SocksAddress → Bytes)

/-- A fresh socket. -/
def Socks5UdpSocket.new (serverAddr : SocketAddr) : Socks5UdpSocket := ⟨serverAddr, [], []⟩

/-- `poll_send_to` as a sender.  `poll_recv_from` touches nothing of this. -/
def clientSender :
    Sender Socks5UdpSocket (Poll (IoResult ℕ)) Empty (Bytes × Address) Bytes IoError ℕ where
  poll answer arg s := s.pollSendTo writer leftover answer arg.1 arg.2
  side := nofun
  pack arg := packUdp writer arg.2 arg.1
  waiting s := sendBufPacket s.sendBuf
  transmitted s := s.outgoing.map Prod.fst

/-- The underlying socket answers no error, and a new datagram can be packed. -/
def clientClean (answer : Poll (IoResult ℕ)) (arg : Bytes × Address) (s : Socks5UdpSocket) :
    Bool :=
  !Socks5Server.isError answer && (s.sendBuf ≠ [] || (packUdp writer arg.2 arg.1).isOk)

variable {writer leftover}

/-- With a datagram to send, the answer of the underlying socket decides. -/
theorem attempt_packed {s : Socks5UdpSocket} {data : Bytes} {target : Address} {packet : Bytes}
    (hne : packet ≠ []) (hoffers : (clientSender writer leftover).Offers (data, target) s packet)
    (hpacked : (if s.sendBuf = [] then packInto writer leftover target data
      else (s.sendBuf, .ok ())) = (packet, .ok ())) (answer : Poll (IoResult ℕ)) :
    (clientSender writer leftover).Attempt (data, target) s
      (s.pollSendTo writer leftover answer data target).1 (!Socks5Server.isError answer)
      (s.pollSendTo writer leftover answer data target).2 := by
  unfold Socks5UdpSocket.pollSendTo
  rw [hpacked]
  rcases answer with (e | n) | _
  · exact .failed e packet (sendBufPacket_of_ne hne) rfl
  · exact .sent packet data.length hoffers rfl List.map_append
  · exact .pending packet hoffers (sendBufPacket_of_ne hne) rfl

theorem clientSender_lawful : (clientSender writer leftover).Lawful (clientClean writer) where
  attempt answer arg s := by
    obtain ⟨data, target⟩ := arg
    show Sender.Attempt _ _ s (s.pollSendTo writer leftover answer data target).1 _
      (s.pollSendTo writer leftover answer data target).2
    by_cases hbuf : s.sendBuf = []
    · cases hpack : packUdp writer target data with
      | ok packet =>
          have hclean : clientClean writer answer (data, target) s
              = !Socks5Server.isError answer := by
            simp [clientClean, hbuf, hpack, Except.isOk, Except.toBool]
          rw [hclean]
          exact attempt_packed (packUdp_ne_nil hpack) (.inr ⟨if_pos hbuf, hpack⟩)
            (by simp only [if_pos hbuf, packInto, hpack]) answer
      | error e =>
          -- what has been written of the header stays in the buffer
          have hclean : clientClean writer answer (data, target) s = false := by
            simp [clientClean, hbuf, hpack, Except.isOk, Except.toBool]
          rw [hclean]
          unfold Socks5UdpSocket.pollSendTo
          simp only [if_pos hbuf, packInto, hpack]
          exact .failed e _ (sendBufPacket_of_ne (List.cons_ne_nil _ _)) rfl
    · have hclean : clientClean writer answer (data, target) s
          = !Socks5Server.isError answer := by
        simp [clientClean, hbuf]
      rw [hclean]
      exact attempt_packed hbuf (.inl (sendBufPacket_of_ne hbuf)) (by rw [if_neg hbuf]) answer
  side_waiting := nofun
  side_transmitted := nofun

end Socks5Client

/-! ## The server -/

namespace Socks5Server

/-- What happens at the socket of an association between two replies. -/
inductive Side where
  /-- A datagram arrives. -/
  | arrive (datagram : Datagram)
  /-- The other half of the relay calls `poll_send_to`. -/
  | pollSendTo (answers : UdpAnswers) (room : ℕ)

variable (codec : AddressCodec) (writer : AddressWriter)

/-- `poll_recv_from` as a sender. -/
def serverSender :
    Sender Socks5UdpSocket UdpAnswers Side (Bytes × SocketAddr) Bytes IoError ℕ where
  poll answers arg s := s.pollRecvFrom writer answers arg.1 arg.2
  side
    | .arrive datagram, s => { s with incoming := s.incoming ++ [datagram] }
    | .pollSendTo answers room, s => (s.pollSendTo codec answers room).1
  pack arg := packUdp writer (.socketAddr arg.2) arg.1
  waiting s := sendBufPacket s.sendBuf
  transmitted s := s.outgoing.map Prod.fst

/-- The TCP connection is not found closed while a datagram waits; and if it is open, there is
an endpoint and the underlying socket answers no error. -/
def serverClean (answers : UdpAnswers) (_ : Bytes × SocketAddr) (s : Socks5UdpSocket) : Bool :=
  if isError answers.tcp then s.sendBuf = []
  else s.endpoint.isSome && !isError answers.send

variable {codec writer}

/-- A reply can always be packed. -/
theorem exists_packed (codec : AddressCodec) (writer : AddressWriter) (s : Socks5UdpSocket)
    (data : Bytes) (target : SocketAddr) :
    ∃ packet, packet ≠ [] ∧ (serverSender codec writer).Offers (data, target) s packet ∧
      (if s.sendBuf = [] then packUdp writer (.socketAddr target) data else .ok s.sendBuf)
        = .ok packet := by
  by_cases hbuf : s.sendBuf = []
  · obtain ⟨bytes, hbytes⟩ := writer.writes target
    have hpack : packUdp writer (.socketAddr target) data = .ok ([0, 0, 0] ++ bytes ++ data) := by
      rw [packUdp, ra2sa, hbytes]
    exact ⟨_, packUdp_ne_nil hpack, .inr ⟨if_pos hbuf, hpack⟩, by rw [if_pos hbuf, hpack]⟩
  · exact ⟨s.sendBuf, hbuf, .inl (sendBufPacket_of_ne hbuf), by rw [if_neg hbuf]⟩

/-- The TCP connection is found closed: nothing is touched. -/
theorem attempt_closed {answers : UdpAnswers} {e : IoError} (htcp : answers.tcp = .ready (.error e))
    (s : Socks5UdpSocket) (data : Bytes) (target : SocketAddr) :
    (serverSender codec writer).Attempt (data, target) s
      (s.pollRecvFrom writer answers data target).1 (s.sendBuf = [])
      (s.pollRecvFrom writer answers data target).2 := by
  unfold Socks5UdpSocket.pollRecvFrom
  rw [htcp]
  by_cases hbuf : s.sendBuf = []
  · rw [decide_eq_true hbuf]
    exact .refused _ (if_pos hbuf) rfl
  · rw [decide_eq_false hbuf]
    exact .failed _ s.sendBuf (sendBufPacket_of_ne hbuf) rfl

/-- The TCP connection is open: the endpoint and the underlying socket decide. -/
theorem attempt_open {answers : UdpAnswers} (htcp : ∀ e, answers.tcp ≠ .ready (.error e))
    (s : Socks5UdpSocket) (data : Bytes) (target : SocketAddr) :
    (serverSender codec writer).Attempt (data, target) s
      (s.pollRecvFrom writer answers data target).1
      (s.endpoint.isSome && !isError answers.send)
      (s.pollRecvFrom writer answers data target).2 := by
  obtain ⟨packet, hne, hoffers, hpacked⟩ := exists_packed codec writer s data target
  unfold Socks5UdpSocket.pollRecvFrom
  split
  next e htcp' => exact absurd htcp' (htcp e)
  next =>
      rw [hpacked]
      dsimp only
      cases s.endpoint with
      | none => exact .failed _ packet (sendBufPacket_of_ne hne) rfl
      | some endpoint =>
          rcases answers.send with (e | n) | _
          · exact .failed e packet (sendBufPacket_of_ne hne) rfl
          · exact .sent packet data.length hoffers rfl List.map_append
          · exact .pending packet hoffers (sendBufPacket_of_ne hne) rfl

theorem serverSender_lawful : (serverSender codec writer).Lawful serverClean where
  attempt answers arg s := by
    obtain ⟨data, target⟩ := arg
    rcases htcp : answers.tcp with (e | _) | _
    · have hclean : serverClean answers (data, target) s = decide (s.sendBuf = []) := by
        simp [serverClean, htcp, isError]
      rw [hclean]
      exact attempt_closed htcp s data target
    all_goals
      have hclean : serverClean answers (data, target) s
          = (s.endpoint.isSome && !isError answers.send) := by
        simp [serverClean, htcp, isError]
      rw [hclean]
      exact attempt_open (by simp [htcp]) s data target
  side_waiting x s := by
    cases x with
    | arrive datagram => rfl
    | pollSendTo answers room =>
        rcases s.pollSendTo_cases codec answers room with h | ⟨e, h, -⟩ | ⟨_, _, -, h, -⟩
        all_goals simp only [serverSender, h]
  side_transmitted x s := by
    cases x with
    | arrive datagram => rfl
    | pollSendTo answers room =>
        rcases s.pollSendTo_cases codec answers room with h | ⟨e, h, -⟩ | ⟨_, _, -, h, -⟩
        all_goals simp only [serverSender, h]

end Socks5Server

/-! ## Own datagrams and stale ones -/

/-- **In runs of clean attempts, both sockets send what they are asked to send.**  Every call
that returns `Ok` has handed its own packed datagram to the underlying socket, once; a call
that returns an error, or has not returned, has handed on nothing, and neither has anything
else.  And the condition is exact: an attempt that is not clean returns an error, and the
next call that returns `Ok` at once hands on what is left in the buffer, whatever it was
called with. -/
theorem send_buffers_honest (codec : AddressCodec) (writer : AddressWriter)
    (leftover : SocksAddress → Bytes) :
    (∀ (server : SocketAddr) (c : Caller _ _ _ _ _),
        (Caller.system (Socks5Client.clientSender writer leftover) (.new server)).Reach
          (fun c input => Caller.allowed (Socks5Client.clientClean writer) c input = true) c →
        Honest (Socks5Client.clientSender writer leftover) c) ∧
      (∀ c : Caller _ _ _ _ _,
        (Caller.system (Socks5Server.serverSender codec writer) .new).Reach
          (fun c input => Caller.allowed Socks5Server.serverClean c input = true) c →
        Honest (Socks5Server.serverSender codec writer) c) ∧
      (∀ (c : Caller _ _ _ _ _) answer arg,
        Socks5Client.clientClean writer answer arg c.socket = false →
        (∀ call ∈ c.outstanding, call.1 = arg) →
        ∃ c' packet,
          Caller.step (Socks5Client.clientSender writer leftover) c (.attempt answer arg)
            = some c' ∧ c'.outstanding = none ∧
          ∀ answer' arg' n,
            (c'.socket.pollSendTo writer leftover answer' arg'.1 arg'.2).2 = .ready (.ok n) →
            ∃ c'', Caller.step (Socks5Client.clientSender writer leftover) c'
                (.attempt answer' arg') = some c'' ∧
              c''.served = c'.served ++ [⟨arg', .ok n, [packet]⟩]) ∧
      ∀ (c : Caller _ _ _ _ _) answers arg,
        Socks5Server.serverClean answers arg c.socket = false →
        (∀ call ∈ c.outstanding, call.1 = arg) →
        ∃ c' packet,
          Caller.step (Socks5Server.serverSender codec writer) c (.attempt answers arg)
            = some c' ∧ c'.outstanding = none ∧
          ∀ answers' arg' n,
            (c'.socket.pollRecvFrom writer answers' arg'.1 arg'.2).2 = .ready (.ok n) →
            ∃ c'', Caller.step (Socks5Server.serverSender codec writer) c'
                (.attempt answers' arg') = some c'' ∧
              c''.served = c'.served ++ [⟨arg', .ok n, [packet]⟩] := by
  refine ⟨?_, ?_, ?_, ?_⟩
  · intro server c reach
    exact Socks5Client.clientSender_lawful.honest rfl rfl reach
  · intro c reach
    exact Socks5Server.serverSender_lawful.honest rfl rfl reach
  · intro c answer arg hdirty hsame
    exact Socks5Client.clientSender_lawful.stale c hdirty hsame
  · intro c answers arg hdirty hsame
    exact Socks5Server.serverSender_lawful.stale c hdirty hsame

/-- A datagram that has to wait, and then the next one. -/
def twoDatagrams : List (Input (Poll (IoResult ℕ)) Empty (Bytes × Address)) :=
  [.attempt .pending ([1], .socketAddr (.v4 0x08080808 53)),
    .attempt (.ready (.ok 11)) ([1], .socketAddr (.v4 0x08080808 53)),
    .attempt (.ready (.ok 11)) ([2], .socketAddr (.v4 0x09090909 53))]

theorem send_buffers_honest_twoDatagrams :
    ∃ c : Caller _ _ _ _ _, c.served =
        [⟨([1], .socketAddr (.v4 0x08080808 53)), .ok 1, [[0, 0, 0, 1, 8, 8, 8, 8, 0, 53, 1]]⟩,
          ⟨([2], .socketAddr (.v4 0x09090909 53)), .ok 1, [[0, 0, 0, 1, 9, 9, 9, 9, 0, 53, 2]]⟩] ∧
      Honest (Socks5Client.clientSender Socks5Server.ipWriter fun _ => []) c := by
  have hreplay : ((Caller.system (Socks5Client.clientSender Socks5Server.ipWriter fun _ => [])
      (.new (.v4 1 1080))).replay (Caller.allowed (Socks5Client.clientClean Socks5Server.ipWriter))
      twoDatagrams).map Caller.served = some
        [⟨([1], .socketAddr (.v4 0x08080808 53)), .ok 1, [[0, 0, 0, 1, 8, 8, 8, 8, 0, 53, 1]]⟩,
          ⟨([2], .socketAddr (.v4 0x09090909 53)), .ok 1,
            [[0, 0, 0, 1, 9, 9, 9, 9, 0, 53, 2]]⟩] := by
    decide +kernel
  obtain ⟨c, hc, hserved⟩ := Option.map_eq_some_iff.mp hreplay
  have reach := System.reach_of_replay _ _ twoDatagrams hc
  exact ⟨c, hserved, (send_buffers_honest Socks5Client.ipv4Codec Socks5Server.ipWriter
    fun _ => []).1 (.v4 1 1080) c reach⟩

/-- The underlying socket refuses the first datagram of a client, and accepts the second. -/
def refusedOnce : List (Input (Poll (IoResult ℕ)) Empty (Bytes × Address)) :=
  [.attempt (.ready (.error { kind := .other })) ([1], .socketAddr (.v4 0x08080808 53)),
    .attempt (.ready (.ok 11)) ([2], .socketAddr (.v4 0x09090909 53))]

/-- A reply before the first datagram of the client, and one after it. -/
def earlyReply : List (Input Socks5Server.UdpAnswers Socks5Server.Side (Bytes × SocketAddr)) :=
  [.attempt Socks5Server.readyAnswers ([1], .v4 0x08080808 53),
    .side (.arrive Socks5Server.clientDatagram),
    .side (.pollSendTo Socks5Server.readyAnswers 2048),
    .attempt Socks5Server.readyAnswers ([2], .v4 0x09090909 53)]

/-- **A stale datagram is sent in place of the one of the call.**  The client, after an error
of the underlying socket, sends the datagram of the call that has failed, to its target; the
server does so after it has had no endpoint. -/
theorem stale_datagram_sent :
    (∃ c : Caller _ _ _ _ _,
        (Caller.system (Socks5Client.clientSender Socks5Server.ipWriter fun _ => [])
          (.new (.v4 1 1080))).Reachable c ∧
        c.served =
          [⟨([1], .socketAddr (.v4 0x08080808 53)), .error { kind := .other }, []⟩,
            ⟨([2], .socketAddr (.v4 0x09090909 53)), .ok 1,
              [[0, 0, 0, 1, 8, 8, 8, 8, 0, 53, 1]]⟩] ∧
        ¬ Honest (Socks5Client.clientSender Socks5Server.ipWriter fun _ => []) c) ∧
      ∃ c : Caller _ _ _ _ _,
        (Caller.system (Socks5Server.serverSender Socks5Client.ipv4Codec Socks5Server.ipWriter)
          .new).Reachable c ∧
        c.served =
          [⟨([1], .v4 0x08080808 53),
              .error { kind := .invalidData, message := "udp endpoint not set" }, []⟩,
            ⟨([2], .v4 0x09090909 53), .ok 1, [[0, 0, 0, 1, 8, 8, 8, 8, 0, 53, 1]]⟩] ∧
        ¬ Honest (Socks5Server.serverSender Socks5Client.ipv4Codec Socks5Server.ipWriter) c := by
  constructor
  · have hrun : ((Caller.system (Socks5Client.clientSender Socks5Server.ipWriter fun _ => [])
        (.new (.v4 1 1080))).run refusedOnce).map Caller.served = some
          [⟨([1], .socketAddr (.v4 0x08080808 53)), .error { kind := .other }, []⟩,
            ⟨([2], .socketAddr (.v4 0x09090909 53)), .ok 1,
              [[0, 0, 0, 1, 8, 8, 8, 8, 0, 53, 1]]⟩] := by decide +kernel
    obtain ⟨c, hc, hserved⟩ := Option.map_eq_some_iff.mp hrun
    refine ⟨c, System.reachable_of_run _ refusedOnce hc, hserved, fun honest => ?_⟩
    obtain ⟨packet, hpack, hsent⟩ := honest.ok
      ⟨([2], .socketAddr (.v4 0x09090909 53)), .ok 1, [[0, 0, 0, 1, 8, 8, 8, 8, 0, 53, 1]]⟩
      (by simp [hserved]) 1 rfl
    obtain rfl := List.singleton_inj.mp hsent
    revert hpack
    decide
  · have hrun : ((Caller.system (Socks5Server.serverSender Socks5Client.ipv4Codec
        Socks5Server.ipWriter) .new).run earlyReply).map Caller.served = some
          [⟨([1], .v4 0x08080808 53),
              .error { kind := .invalidData, message := "udp endpoint not set" }, []⟩,
            ⟨([2], .v4 0x09090909 53), .ok 1, [[0, 0, 0, 1, 8, 8, 8, 8, 0, 53, 1]]⟩] := by
      decide +kernel
    obtain ⟨c, hc, hserved⟩ := Option.map_eq_some_iff.mp hrun
    refine ⟨c, System.reachable_of_run _ earlyReply hc, hserved, fun honest => ?_⟩
    obtain ⟨packet, hpack, hsent⟩ := honest.ok
      ⟨([2], .v4 0x09090909 53), .ok 1, [[0, 0, 0, 1, 8, 8, 8, 8, 0, 53, 1]]⟩
      (by simp [hserved]) 1 rfl
    obtain rfl := List.singleton_inj.mp hsent
    revert hpack
    decide

end RabbitDigger
