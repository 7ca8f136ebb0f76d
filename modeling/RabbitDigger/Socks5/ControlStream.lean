import RabbitDigger.Socks5.Association

/-!
# The control stream of a UDP association

A UDP association of the SOCKS5 server lives as long as the TCP stream on which it was asked for.
`Socks5UdpSocket::poll_tcp_close` looks after it: each `poll_recv_from` reads one byte of the
stream and takes it for closed **if the read is an error**.  The client may have sent anything on
this stream before, byte by byte it is thrown away.

A stream that was closed in order does not end with an error: its reads are successful and give
no byte (`[]` in `Poll (IoResult Bytes)`), and this is not told apart from a read that gives one.
So an association ends with its control stream **as far as the reads of the ended stream are
errors** (`ends_with_control_stream`); with end-of-file the association goes on as if the client
were silent (`eof_relayed`).
-/

namespace RabbitDigger.Socks5Server.ControlStream

open Polling Transition

/-! ## The test for a closed stream -/

/-- What `is_err` keeps of a read. -/
def readResult : Poll (IoResult Bytes) → Poll (IoResult Unit)
  | .pending => .pending
  | .ready (.ok _) => .ready (.ok ())
  | .ready (.error e) => .ready (.error e)

/-- The error of `poll_recv_from`. -/
def connectionClosed : IoError := { kind := .connectionAborted, message := "connection closed" }

/-! ## The stream -/

/-- The control stream: what the client has sent and nobody has read, and whether the client has
closed it. -/
structure Control where
  unread : Bytes
  closed : Bool
deriving Repr, DecidableEq

/-- **The stream has ended**: it is closed, and all that was sent has been read. -/
def Control.ended (c : Control) : Bool := c.closed && c.unread.isEmpty

/-- A read of one byte, and what it can give: a byte that the client has sent, nothing yet as long
as the stream has not ended, end-of-file once it has, and an error if it is closed. -/
def Control.read (c : Control) : Poll (IoResult Bytes) → Option Control
  | .pending => if c.ended then none else some c
  | .ready (.ok []) => if c.ended then some c else none
  | .ready (.ok [byte]) =>
      match c.unread with
      | first :: rest => if byte = first then some { c with unread := rest } else none
      | [] => none
  | .ready (.ok _) => none
  | .ready (.error _) => if c.closed then some { c with unread := [] } else none

/-! ## Runs of an association -/

/-- A call of `poll_recv_from`: whether the control stream had ended before it, what it returned,
and the datagrams it sent. -/
structure Call where
  ended : Bool
  result : Poll (IoResult ℕ)
  sent : List Datagram

/-- An association with its control stream. -/
structure State where
  socket : Socks5UdpSocket
  control : Control
  calls : List Call

/-- What can happen. -/
inductive Event where
  /-- The client sends something on the control stream, -/
  | send (bytes : Bytes)
  /-- or closes it. -/
  | close
  /-- A datagram arrives. -/
  | arrive (datagram : Datagram)
  /-- The relay takes a datagram from the channel, -/
  | pollSendTo (recv : Poll (IoResult Unit)) (room : ℕ)
  /-- or hands one to it: `read` is the answer of the control stream, `send` the one of the UDP
  socket. -/
  | pollRecvFrom (read : Poll (IoResult Bytes)) (send : Poll (IoResult ℕ)) (data : Bytes)
      (target : SocketAddr)

section System

variable (codec : AddressCodec) (writer : AddressWriter)

/-- `poll_recv_from` of the channel, with a read of the control stream. -/
def recvFrom (socket : Socks5UdpSocket) (read : Poll (IoResult Bytes))
    (send : Poll (IoResult ℕ)) (data : Bytes) (target : SocketAddr) :
    Socks5UdpSocket × Poll (IoResult ℕ) :=
  socket.pollRecvFrom writer ⟨.pending, send, readResult read⟩ data target

/-- One event. -/
def step (s : State) : Event → Option State
  | .send bytes =>
      if s.control.closed then none
      else some { s with control.unread := s.control.unread ++ bytes }
  | .close => some { s with control.closed := true }
  | .arrive datagram => some { s with socket.incoming := s.socket.incoming ++ [datagram] }
  | .pollSendTo recv room =>
      let (socket, _) := s.socket.pollSendTo codec ⟨recv, .pending, .pending⟩ room
      some { s with socket }
  | .pollRecvFrom read send data target =>
      match s.control.read read with
      | none => none
      | some control =>
          let (socket, result) := recvFrom writer s.socket read send data target
          some ⟨socket, control, s.calls ++ [⟨s.control.ended, result,
            socket.outgoing.drop s.socket.outgoing.length⟩]⟩

/-- An association from its beginning. -/
def system : System State Event := ⟨⟨.new, ⟨[], false⟩, []⟩, step codec writer⟩

end System

/-- Every read of the ended stream is an error. -/
def EndsInError (s : State) : Event → Prop
  | .pollRecvFrom read _ _ _ => s.control.ended = true → ∃ e, read = .ready (.error e)
  | _ => True

/-- The association notices the end of its control stream. -/
def Call.Notices (call : Call) : Prop :=
  call.ended = true → call.result = .ready (.error connectionClosed) ∧ call.sent = []

section Calls

variable {codec : AddressCodec} {writer : AddressWriter}

/-- **A stream that has ended stays so**, whatever is read from it. -/
theorem ended_read {c c' : Control} {read : Poll (IoResult Bytes)} (hended : c.ended = true)
    (h : c.read read = some c') : c'.ended = true := by
  obtain ⟨hclosed, hempty⟩ := (Bool.and_eq_true ..).mp hended
  have hunread : c.unread = [] := List.isEmpty_iff.mp hempty
  unfold Control.read at h
  split at h
  · obtain ⟨_, h⟩ := Option.ite_none_left_eq_some.mp h
    cases h
    exact hended
  · obtain ⟨_, h⟩ := Option.ite_none_right_eq_some.mp h
    cases h
    exact hended
  · rw [hunread] at h
    cases h
  · cases h
  · obtain ⟨_, h⟩ := Option.ite_none_right_eq_some.mp h
    cases h
    exact (Bool.and_eq_true ..).mpr ⟨hclosed, rfl⟩

/-- What a step can do to the calls: nothing, or add a call of `poll_recv_from` that has read from
the control stream.  An end of the stream lasts. -/
theorem step_cases {s s' : State} {event : Event} (h : step codec writer s event = some s') :
    (s.control.ended = true → s'.control.ended = true) ∧
    (s'.calls = s.calls ∨ ∃ read send data target, event = .pollRecvFrom read send data target ∧
      s'.calls = s.calls ++ [⟨s.control.ended, (recvFrom writer s.socket read send data target).2,
        (recvFrom writer s.socket read send data target).1.outgoing.drop
          s.socket.outgoing.length⟩]) := by
  cases event with
  | send bytes =>
      obtain ⟨hopen, h⟩ := Option.ite_none_left_eq_some.mp h
      cases h
      refine ⟨fun hended => ?_, .inl rfl⟩
      exact absurd ((Bool.and_eq_true ..).mp hended).1 hopen
  | close =>
      cases h
      refine ⟨fun hended => ?_, .inl rfl⟩
      exact (Bool.and_eq_true ..).mpr ⟨rfl, ((Bool.and_eq_true ..).mp hended).2⟩
  | arrive | pollSendTo =>
      cases h
      exact ⟨id, .inl rfl⟩
  | pollRecvFrom read send data target =>
      rcases hread : s.control.read read with _ | control
      · simp only [step, hread] at h
        cases h
      · simp only [step, hread] at h
        cases h
        exact ⟨fun hended => ended_read hended hread, .inr ⟨read, send, data, target, rfl, rfl⟩⟩

/-- What holds along every run in which the ended stream gives errors. -/
structure Inv (s : State) : Prop where
  /-- The end of the stream lasts. -/
  lasts : ∀ call ∈ s.calls, call.ended = true → s.control.ended = true
  later : s.calls.Pairwise fun earlier call => earlier.ended = true → call.ended = true
  notices : ∀ call ∈ s.calls, call.Notices

theorem Inv.step {s s' : State} {event : Event} (h : Inv s) (hends : EndsInError s event)
    (hstep : ControlStream.step codec writer s event = some s') : Inv s' := by
  obtain ⟨hlasts, hcalls | ⟨read, send, data, target, rfl, hcalls⟩⟩ := step_cases hstep
  · refine ⟨?_, ?_, ?_⟩
    · rw [hcalls]
      exact fun call hmem hended => hlasts (h.lasts call hmem hended)
    · rw [hcalls]
      exact h.later
    · rw [hcalls]
      exact h.notices
  · refine ⟨?_, ?_, ?_⟩
    · rw [hcalls]
      intro call hmem hended
      rcases List.mem_append.mp hmem with hold | hnew
      · exact hlasts (h.lasts call hold hended)
      · cases List.mem_singleton.mp hnew
        exact hlasts hended
    · rw [hcalls]
      refine List.pairwise_append.mpr ⟨h.later, List.pairwise_singleton _ _, ?_⟩
      intro earlier hearlier call hnew hended
      cases List.mem_singleton.mp hnew
      exact h.lasts earlier hearlier hended
    · rw [hcalls]
      intro call hmem
      rcases List.mem_append.mp hmem with hold | hnew
      · exact h.notices call hold
      · cases List.mem_singleton.mp hnew
        intro hended
        obtain ⟨e, rfl⟩ := hends hended
        exact ⟨rfl, List.drop_length⟩

end Calls

/-- **The association ends with its control stream, if that ends with errors.**  In every run in
which each read of the ended stream is an error: once the stream has ended, every `poll_recv_from`
returns `ConnectionAborted` and sends nothing, whatever the client had sent on the stream before.
A read that gives end-of-file changes nothing: the call does what it does while the stream is
open and silent. -/
theorem ends_with_control_stream (codec : AddressCodec) (writer : AddressWriter) {s : State}
    (reach : (system codec writer).Reach EndsInError s) :
    (s.calls.Pairwise fun earlier call => earlier.ended = true → call.ended = true) ∧
      (∀ call ∈ s.calls, call.ended = true →
        call.result = .ready (.error connectionClosed) ∧ call.sent = []) ∧
      ∀ send data target, recvFrom writer s.socket (.ready (.ok [])) send data target
        = recvFrom writer s.socket .pending send data target := by
  have hinit : Inv (system codec writer).init := by
    refine ⟨?_, List.Pairwise.nil, ?_⟩
    · intro call hmem
      cases hmem
    · intro call hmem
      cases hmem
  have hinv : Inv s :=
    System.Reach.invariant hinit (fun _ _ _ h hends hstep => h.step hends hstep) reach
  exact ⟨hinv.later, hinv.notices, fun _ _ _ => rfl⟩

/-! ## A client that closes its stream -/

/-- The client sends a byte on the control stream and a datagram, and closes the stream. -/
def clientLeaves : List Event :=
  [.send [1], .arrive clientDatagram, .pollSendTo (.ready (.ok ())) 64, .close]

/-- A reply for the client, when the control stream answers a read. -/
def reply (read : Poll (IoResult Bytes)) : Event :=
  .pollRecvFrom read (.ready (.ok 11)) [7] (.v4 0x08080808 53)

/-- The connection is reset, which the second reply finds out. -/
theorem ends_with_control_stream_reset : ∃ s,
    (system Socks5Client.ipv4Codec ipWriter).Reach EndsInError s ∧
      s.calls.map Call.ended = [false, true] ∧
      ∀ call ∈ s.calls, call.ended = true →
        call.result = .ready (.error connectionClosed) ∧ call.sent = [] := by
  have reach : (system Socks5Client.ipv4Codec ipWriter).Reach EndsInError _ :=
    .step (.step (.step (.step (.step (.step .init (e := .send [1]) trivial rfl)
      (e := .arrive clientDatagram) trivial rfl)
      (e := .pollSendTo (.ready (.ok ())) 64) trivial rfl)
      (e := .close) trivial rfl)
      (e := reply (.ready (.ok [1]))) (fun h => by cases h) rfl)
      (e := reply (.ready (.error { kind := .other }))) (fun _ => ⟨_, rfl⟩) rfl
  exact ⟨_, reach, rfl, (ends_with_control_stream _ _ reach).2.1⟩

/-- **The client has closed its stream in order, and its replies are still sent.** -/
theorem eof_relayed :
    ((system Socks5Client.ipv4Codec ipWriter).run
        (clientLeaves ++ [reply (.ready (.ok [1])), reply (.ready (.ok []))])).map
        (fun s => s.calls.map fun call => (call.ended, call.sent.length))
      = some [(false, 1), (true, 1)] := rfl

end RabbitDigger.Socks5Server.ControlStream
