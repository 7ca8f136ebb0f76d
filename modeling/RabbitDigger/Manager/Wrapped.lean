import RabbitDigger.Foundation.Polling
import RabbitDigger.Interface.ReadBuf
import RabbitDigger.Manager.Accounting

/-!
# Wrapped sockets

`WrapTcpStream` and `WrapUdpSocket` (`src/rabbit_digger/running.rs`) stand between a socket and
its user.  Every read polls the connection first, which may end the call because the connection
has been stopped, and then asks the wrapped socket; and whatever passes through is counted in the
connection.  A wrapped object is modelled with the oneshot channel of its stop signal, and with
the answers of the wrapped socket as arguments of the calls; the calls made so far are kept in a
list (`Object.calls`).

Two things go wrong, and each has a condition under which it does not.

* **The receiver of the stop signal is polled afresh by every read.**  Once it has been ready it
  must not be polled again, and the next read panics.  So a stopped object stays stopped in every
  run in which no read is made after one that has found it stopped (`stopped_stays_stopped`).
* **A received datagram is counted as the whole filled part of the buffer**, where a stream
  counts what was added to it.  The difference is what the buffer held before, so the accumulators
  of the connection grow by the bytes that a call moves if and only if it is not a receive into a
  buffer that holds something (`counted_exactly_iff`).
-/

namespace RabbitDigger.ConnectionManager

open Transition Polling

/-- `Connection::poll`, apart from the events that a heartbeat sends. -/
def Connection.poll (conn : Connection) (heartbeat : Bool) (channel : Oneshot) :
    Connection × PollResult :=
  (if heartbeat then { conn with state := conn.state.drained } else conn).pollStopped channel

/-- The type of a connection. -/
def ConnType.protocol : ConnType → Protocol
  | .tcp _ _ => .tcp
  | .udp _ _ => .udp

namespace Wrapped

/-! ## Calls -/

/-- What a successful call returns. -/
inductive Answer where
  | unit
  | size (n : ℕ)
  | sender (addr : SocketAddr)
deriving Repr, DecidableEq

/-- How a call ends. -/
inductive Ended where
  | ok (answer : Answer)
  | failed (e : IoError)
  | pending
  | panicked
deriving Repr, DecidableEq

/-- The error of a stopped connection. -/
def abortedByUser : IoError := ⟨.connectionAborted, "Aborted by user"⟩

/-- What a call does: how it finds the connection if it polls it, the connection that it leaves,
and how it ends. -/
structure Effect where
  polled : Option PollResult
  conn : Connection
  ended : Ended
deriving Repr, DecidableEq

/-- `conn.poll(cx)?`, and the rest of the call if there is one. -/
def afterPoll (conn : Connection) (heartbeat : Bool) (channel : Oneshot) (buf : ReadBuf)
    (rest : Connection → Option (Effect × ReadBuf)) : Option (Effect × ReadBuf) :=
  match conn.poll heartbeat channel with
  | (conn, .panicked) => some (⟨some .panicked, conn, .panicked⟩, buf)
  | (conn, .aborted) => some (⟨some .aborted, conn, .failed abortedByUser⟩, buf)
  | (conn, .ok) => rest conn

/-- `WrapTcpStream::poll_read`.  The wrapped stream appends its data to the buffer. -/
def pollRead (conn : Connection) (channel : Oneshot) (heartbeat : Bool)
    (inner : Poll (IoResult Bytes)) (buf : ReadBuf) : Option (Effect × ReadBuf) :=
  afterPoll conn heartbeat channel buf fun conn =>
    let before := buf.filled.length
    match inner with
    | .ready (.ok data) =>
        let buf := buf.put data
        let s := buf.filled.length - before
        (conn.state.read s).map fun state =>
          (⟨some .ok, { conn with state }, .ok .unit⟩, buf)
    | .ready (.error e) => some (⟨some .ok, conn, .failed e⟩, buf)
    | .pending => some (⟨some .ok, conn, .pending⟩, buf)

/-- `WrapTcpStream::poll_write`. -/
def pollWrite (conn : Connection) (inner : Poll (IoResult ℕ)) : Option Effect :=
  match inner with
  | .ready (.ok s) =>
      (conn.state.write s).map fun state =>
        ⟨none, { conn with state }, .ok (.size s)⟩
  | .ready (.error e) => some ⟨none, conn, .failed e⟩
  | .pending => some ⟨none, conn, .pending⟩

/-- `WrapUdpSocket::poll_recv_from`. -/
def pollRecvFrom (conn : Connection) (channel : Oneshot) (heartbeat : Bool)
    (inner : Poll (IoResult (SocketAddr × Bytes))) (buf : ReadBuf) : Option (Effect × ReadBuf) :=
  afterPoll conn heartbeat channel buf fun conn =>
    match inner with
    | .ready (.ok (addr, data)) =>
        let buf := buf.put data
        let size := buf.filled.length
        (conn.state.recvFrom (.socketAddr addr) size).map fun state =>
          (⟨some .ok, { conn with state }, .ok (.sender addr)⟩, buf)
    | .ready (.error e) => some (⟨some .ok, conn, .failed e⟩, buf)
    | .pending => some (⟨some .ok, conn, .pending⟩, buf)

/-- `WrapUdpSocket::poll_send_to`. -/
def pollSendTo (conn : Connection) (inner : Poll (IoResult ℕ)) (buf : Bytes) (target : Address) :
    Option Effect :=
  match inner with
  | .ready (.ok r) =>
      (conn.state.sendTo target buf.length).map fun state =>
        ⟨none, { conn with state }, .ok (.size r)⟩
  | .ready (.error e) => some ⟨none, conn, .failed e⟩
  | .pending => some ⟨none, conn, .pending⟩

/-- A call, with what the wrapped socket answers to it. -/
inductive Op where
  | pollRead (heartbeat : Bool) (inner : Poll (IoResult Bytes)) (buf : ReadBuf)
  | pollWrite (inner : Poll (IoResult ℕ)) (buf : Bytes)
  | pollRecvFrom (heartbeat : Bool) (inner : Poll (IoResult (SocketAddr × Bytes)))
      (buf : ReadBuf)
  | pollSendTo (inner : Poll (IoResult ℕ)) (buf : Bytes) (target : Address)

/-- The type of object that has the method. -/
def Op.protocol : Op → Protocol
  | .pollRead .. | .pollWrite .. => .tcp
  | .pollRecvFrom .. | .pollSendTo .. => .udp

/-- The bytes that the wrapped socket accepts: what a stream says it has written, the whole
datagram of a socket. -/
def Op.accepted : Op → ℕ
  | .pollWrite (.ready (.ok s)) _ => s
  | .pollSendTo (.ready (.ok _)) buf _ => buf.length
  | _ => 0

/-- `poll_read` or `poll_recv_from`. -/
def Op.reads : Op → Bool
  | .pollRead .. | .pollRecvFrom .. => true
  | .pollWrite .. | .pollSendTo .. => false

/-- The heartbeat of a call that polls the connection. -/
def Op.heartbeat : Op → Option Bool
  | .pollRead heartbeat _ _ | .pollRecvFrom heartbeat _ _ => some heartbeat
  | .pollWrite _ _ | .pollSendTo _ _ _ => none

/-- The accumulators as a call finds them: a heartbeat sends away what they held. -/
def Op.found (op : Op) (conn : Connection) : ConnType :=
  if op.heartbeat = some true then conn.state.drained else conn.state

/-- A call that has been made: the accumulators that it has found, what it does, and the number of
bytes by which the caller's buffer has grown. -/
structure Call where
  op : Op
  found : ConnType
  effect : Effect
  put : ℕ

/-- Make a call. -/
def Op.perform (op : Op) (conn : Connection) (channel : Oneshot) : Option Call :=
  match op with
  | .pollRead heartbeat inner buf =>
      (Wrapped.pollRead conn channel heartbeat inner buf).map fun (effect, after) =>
        ⟨op, op.found conn, effect, after.filled.length - buf.filled.length⟩
  | .pollWrite inner _ =>
      (Wrapped.pollWrite conn inner).map fun effect => ⟨op, op.found conn, effect, 0⟩
  | .pollRecvFrom heartbeat inner buf =>
      (Wrapped.pollRecvFrom conn channel heartbeat inner buf).map fun (effect, after) =>
        ⟨op, op.found conn, effect, after.filled.length - buf.filled.length⟩
  | .pollSendTo inner buf target =>
      (Wrapped.pollSendTo conn inner buf target).map fun effect => ⟨op, op.found conn, effect, 0⟩

/-! ## Runs -/

/-- A wrapped object and the channel of its stop signal. -/
structure Object where
  conn : Connection
  channel : Oneshot
  calls : List Call

/-- What can happen to it: a call, and what the holder of the sender does, once. -/
inductive Event where
  | call (op : Op)
  | stop
  | dropSender

/-- One event. -/
def Object.step (s : Object) : Event → Option Object
  | .call op =>
      if op.protocol = s.conn.state.protocol then
        (op.perform s.conn s.channel).map fun call =>
          { s with conn := call.effect.conn, calls := s.calls ++ [call] }
      else none
  | .stop => if s.channel = .waiting then some { s with channel := .sent } else none
  | .dropSender => if s.channel = .waiting then some { s with channel := .closed } else none

/-- A new object. -/
def system (protocol : Protocol) : System Object Event where
  init := ⟨⟨protocol.default, false⟩, .waiting, []⟩
  step := Object.step

/-! ## What a call can do -/

section Calls

variable {conn : Connection} {channel : Oneshot} {op : Op} {call : Call}

/-- The heartbeat does not matter to the receiver, nor the receiver to the accumulators. -/
theorem poll_cases (conn : Connection) (heartbeat : Bool) (channel : Oneshot) :
    (conn.poll heartbeat channel).1.state =
        (if heartbeat then conn.state.drained else conn.state) ∧
      ((conn.yielded = true ∧ (conn.poll heartbeat channel).2 = .panicked) ∨
        (conn.yielded = false ∧ (conn.poll heartbeat channel).2 = .aborted ∧
          (conn.poll heartbeat channel).1.yielded = true) ∨
        (conn.yielded = false ∧ (conn.poll heartbeat channel).2 = .ok ∧
          (conn.poll heartbeat channel).1.yielded = false)) := by
  obtain ⟨state, yielded⟩ := conn
  cases heartbeat <;> cases yielded <;> cases channel <;>
    simp [Connection.poll, Connection.pollStopped]

/-- **What polling the connection can do** to a call. -/
theorem afterPoll_cases {heartbeat : Bool} {buf after : ReadBuf} {effect : Effect}
    {rest : Connection → Option (Effect × ReadBuf)}
    (h : afterPoll conn heartbeat channel buf rest = some (effect, after)) :
    ∃ polled : Connection,
      polled.state = (if heartbeat then conn.state.drained else conn.state) ∧
      ((conn.yielded = true ∧ after = buf ∧ effect = ⟨some .panicked, polled, .panicked⟩) ∨
        (conn.yielded = false ∧ polled.yielded = true ∧ after = buf ∧
          effect = ⟨some .aborted, polled, .failed abortedByUser⟩) ∨
        (conn.yielded = false ∧ polled.yielded = false ∧
          rest polled = some (effect, after))) := by
  unfold afterPoll at h
  have hpoll := poll_cases conn heartbeat channel
  revert h hpoll
  obtain ⟨polled, result⟩ := conn.poll heartbeat channel
  rintro h ⟨hstate, ⟨hyielded, rfl⟩ | ⟨hyielded, rfl, hafter⟩ | ⟨hyielded, rfl, hafter⟩⟩
  · cases h
    exact ⟨_, hstate, .inl ⟨hyielded, rfl, rfl⟩⟩
  · cases h
    exact ⟨_, hstate, .inr (.inl ⟨hyielded, hafter, rfl, rfl⟩)⟩
  · exact ⟨_, hstate, .inr (.inr ⟨hyielded, hafter, h⟩)⟩

/-- **What asking the wrapped socket can do**, with the connection as it is after the poll: the
effect of the call, and the number of bytes by which the buffer grows. -/
inductive Asked (polled : Option PollResult) (conn : Connection) : Op → Effect → ℕ → Prop where
  | failed {op : Op} (e : IoError) (refused : op.accepted = 0) :
      Asked polled conn op ⟨polled, conn, .failed e⟩ 0
  | pending {op : Op} (refused : op.accepted = 0) :
      Asked polled conn op ⟨polled, conn, .pending⟩ 0
  | read {heartbeat : Bool} {data : Bytes} {buf : ReadBuf} {n : ℕ} {state : ConnType}
      (grows : n = (buf.put data).filled.length - buf.filled.length)
      (counts : conn.state.read n = some state) :
      Asked polled conn (.pollRead heartbeat (.ready (.ok data)) buf)
        ⟨polled, { conn with state }, .ok .unit⟩ n
  | wrote {s : ℕ} {buf : Bytes} {state : ConnType} (counts : conn.state.write s = some state) :
      Asked polled conn (.pollWrite (.ready (.ok s)) buf)
        ⟨polled, { conn with state }, .ok (.size s)⟩ 0
  | received {heartbeat : Bool} {addr : SocketAddr} {data : Bytes} {buf : ReadBuf} {n : ℕ}
      {state : ConnType} (grows : n = (buf.put data).filled.length - buf.filled.length)
      (counts : conn.state.recvFrom (.socketAddr addr) (buf.put data).filled.length
        = some state) :
      Asked polled conn (.pollRecvFrom heartbeat (.ready (.ok (addr, data))) buf)
        ⟨polled, { conn with state }, .ok (.sender addr)⟩ n
  | sent {r : ℕ} {buf : Bytes} {target : Address} {state : ConnType}
      (counts : conn.state.sendTo target buf.length = some state) :
      Asked polled conn (.pollSendTo (.ready (.ok r)) buf target)
        ⟨polled, { conn with state }, .ok (.size r)⟩ 0

/-- **What a call can do.** -/
inductive Performed (conn : Connection) (op : Op) : Effect → ℕ → Prop where
  | panicked {polled : Connection} (polls : op.reads = true) (yielded : conn.yielded = true)
      (state : polled.state = op.found conn) :
      Performed conn op ⟨some .panicked, polled, .panicked⟩ 0
  | aborted {polled : Connection} (polls : op.reads = true) (yielded : conn.yielded = false)
      (shut : polled.yielded = true) (state : polled.state = op.found conn) :
      Performed conn op ⟨some .aborted, polled, .failed abortedByUser⟩ 0
  | passed {polled : Connection} {effect : Effect} {put : ℕ} (polls : op.reads = true)
      (yielded : conn.yielded = false) (still : polled.yielded = false)
      (state : polled.state = op.found conn) (asked : Asked (some .ok) polled op effect put) :
      Performed conn op effect put
  | direct {effect : Effect} {put : ℕ} (polls : op.reads = false)
      (state : conn.state = op.found conn) (asked : Asked none conn op effect put) :
      Performed conn op effect put

/-- A call that polls the connection. -/
theorem performed_of_afterPoll {heartbeat : Bool} {buf after : ReadBuf} {effect : Effect}
    {rest : Connection → Option (Effect × ReadBuf)} (hreads : op.reads = true)
    (hpolls : op.heartbeat = some heartbeat)
    (h : afterPoll conn heartbeat channel buf rest = some (effect, after))
    (hrest : ∀ conn', rest conn' = some (effect, after) →
      Asked (some .ok) conn' op effect (after.filled.length - buf.filled.length)) :
    Performed conn op effect (after.filled.length - buf.filled.length) := by
  obtain ⟨polled, hstate, hcases⟩ := afterPoll_cases h
  have hfound : polled.state = op.found conn := by
    rw [hstate, Op.found, hpolls]
    cases heartbeat <;> rfl
  rcases hcases with ⟨hyielded, rfl, rfl⟩ | ⟨hyielded, hshut, rfl, rfl⟩ |
    ⟨hyielded, hstill, hcall⟩
  · rw [Nat.sub_self]
    exact .panicked hreads hyielded hfound
  · rw [Nat.sub_self]
    exact .aborted hreads hyielded hshut hfound
  · exact .passed hreads hyielded hstill hfound (hrest _ hcall)

/-- **Each call does one of these things.** -/
theorem perform_cases (h : op.perform conn channel = some call) :
    ∃ effect put, call = ⟨op, op.found conn, effect, put⟩ ∧ Performed conn op effect put := by
  cases op with
  | pollRead heartbeat inner buf =>
      obtain ⟨⟨effect, after⟩, heffect, rfl⟩ := Option.map_eq_some_iff.mp h
      refine ⟨effect, _, rfl, performed_of_afterPoll rfl rfl heffect fun conn' hrest => ?_⟩
      rcases inner with (e | data) | _
      · cases hrest
        rw [Nat.sub_self]
        exact .failed e rfl
      · obtain ⟨state, hstate, hpair⟩ := Option.map_eq_some_iff.mp hrest
        cases hpair
        exact .read rfl hstate
      · cases hrest
        rw [Nat.sub_self]
        exact .pending rfl
  | pollWrite inner buf =>
      obtain ⟨effect, heffect, rfl⟩ := Option.map_eq_some_iff.mp h
      refine ⟨effect, 0, rfl, .direct rfl rfl ?_⟩
      rcases inner with (e | s) | _
      · cases heffect
        exact .failed e rfl
      · obtain ⟨state, hstate, rfl⟩ := Option.map_eq_some_iff.mp heffect
        exact .wrote hstate
      · cases heffect
        exact .pending rfl
  | pollRecvFrom heartbeat inner buf =>
      obtain ⟨⟨effect, after⟩, heffect, rfl⟩ := Option.map_eq_some_iff.mp h
      refine ⟨effect, _, rfl, performed_of_afterPoll rfl rfl heffect fun conn' hrest => ?_⟩
      rcases inner with (e | ⟨addr, data⟩) | _
      · cases hrest
        rw [Nat.sub_self]
        exact .failed e rfl
      · obtain ⟨state, hstate, hpair⟩ := Option.map_eq_some_iff.mp hrest
        cases hpair
        exact .received rfl hstate
      · cases hrest
        rw [Nat.sub_self]
        exact .pending rfl
  | pollSendTo inner buf target =>
      obtain ⟨effect, heffect, rfl⟩ := Option.map_eq_some_iff.mp h
      refine ⟨effect, 0, rfl, .direct rfl rfl ?_⟩
      rcases inner with (e | r) | _
      · cases heffect
        exact .failed e rfl
      · obtain ⟨state, hstate, rfl⟩ := Option.map_eq_some_iff.mp heffect
        exact .sent hstate
      · cases heffect
        exact .pending rfl

/-- Asking the wrapped socket does not panic and leaves the receiver alone. -/
theorem Asked.calm {polled : Option PollResult} {effect : Effect} {put : ℕ}
    (h : Asked polled conn op effect put) :
    effect.ended ≠ .panicked ∧ effect.polled = polled ∧
      effect.conn.yielded = conn.yielded := by
  cases h <;> exact ⟨Ended.noConfusion, rfl, rfl⟩

end Calls

/-- What a step can do: a call that fits the object, or the one thing that can happen to the
sender. -/
theorem step_cases {s s' : Object} {event : Event} (h : s.step event = some s') :
    (∃ op call, event = .call op ∧ op.protocol = s.conn.state.protocol ∧
      op.perform s.conn s.channel = some call ∧
      s' = { s with conn := call.effect.conn, calls := s.calls ++ [call] }) ∨
    (s.channel = .waiting ∧ ∃ channel, s' = { s with channel }) := by
  cases event with
  | call op =>
      obtain ⟨hfits, h⟩ := Option.ite_none_right_eq_some.mp h
      obtain ⟨call, hcall, rfl⟩ := Option.map_eq_some_iff.mp h
      exact .inl ⟨op, call, rfl, hfits, hcall, rfl⟩
  | stop | dropSender =>
      obtain ⟨hwaiting, h⟩ := Option.ite_none_right_eq_some.mp h
      cases h
      exact .inr ⟨hwaiting, _, rfl⟩

/-! ## Stopped objects -/

/-- The call has found the connection stopped. -/
def Call.Stopped (call : Call) : Prop := call.effect.polled = some .aborted

/-- The call reads and says so. -/
def Call.Aborts (call : Call) : Prop :=
  call.op.reads = true → call.effect.ended = .failed abortedByUser

/-- **No read after one that has found the connection stopped.** -/
def Polite (s : Object) (event : Event) : Prop :=
  ∀ op, event = .call op → op.reads = true → ∀ call ∈ s.calls, ¬ call.Stopped

/-- What holds along every run of polite reads. -/
structure StopInv (s : Object) : Prop where
  /-- The receiver has been ready exactly if a call has found the connection stopped. -/
  seen : s.conn.yielded = true ↔ ∃ call ∈ s.calls, call.Stopped
  later : s.calls.Pairwise fun earlier call => earlier.Stopped → call.Aborts
  calm : ∀ call ∈ s.calls, call.effect.ended ≠ .panicked

/-- One more call. -/
theorem StopInv.call {s : Object} (h : StopInv s) {call : Call}
    (hseen : call.effect.conn.yielded = true ↔ s.conn.yielded = true ∨ call.Stopped)
    (haborts : s.conn.yielded = true → call.Aborts) (hcalm : call.effect.ended ≠ .panicked) :
    StopInv { s with conn := call.effect.conn, calls := s.calls ++ [call] } where
  seen := by
    show call.effect.conn.yielded = true ↔ ∃ other ∈ s.calls ++ [call], other.Stopped
    simp only [List.mem_append, List.mem_singleton, or_and_right, exists_or, exists_eq_left]
    rw [hseen, h.seen]
  later := by
    refine List.pairwise_append.mpr ⟨h.later, List.pairwise_singleton _ _, ?_⟩
    intro earlier hearlier last hlast hstopped
    obtain rfl := List.mem_singleton.mp hlast
    exact haborts (h.seen.mpr ⟨earlier, hearlier, hstopped⟩)
  calm := by
    intro other hmem
    rcases List.mem_append.mp hmem with hold | hnew
    · exact h.calm other hold
    · obtain rfl := List.mem_singleton.mp hnew
      exact hcalm

/-- One event of a polite run. -/
theorem StopInv.step {s s' : Object} {event : Event} (h : StopInv s) (hpolite : Polite s event)
    (hstep : s.step event = some s') : StopInv s' := by
  rcases step_cases hstep with ⟨op, call, rfl, _, hcall, rfl⟩ | ⟨_, channel, rfl⟩
  · obtain ⟨effect, put, rfl, hperformed⟩ := perform_cases hcall
    cases hperformed with
    | panicked hreads hyielded hstate =>
        obtain ⟨earlier, hmem, hstopped⟩ := h.seen.mp hyielded
        exact absurd hstopped (hpolite op rfl hreads earlier hmem)
    | aborted hreads hyielded hshut hstate =>
        exact h.call (iff_of_true hshut (.inr rfl)) (fun _ _ => rfl) Ended.noConfusion
    | passed hreads hyielded hstill hstate hasked =>
        obtain ⟨hcalm, hpolled, hafter⟩ := hasked.calm
        refine h.call (iff_of_false ?_ ?_) (fun hshut => ?_) hcalm
        · rw [hafter, hstill]
          exact Bool.false_ne_true
        · rintro (hshut | hstopped)
          · rw [hyielded] at hshut
            cases hshut
          · rw [Call.Stopped, hpolled] at hstopped
            cases hstopped
        · rw [hyielded] at hshut
          cases hshut
    | direct hwrites hstate hasked =>
        obtain ⟨hcalm, hpolled, hafter⟩ := hasked.calm
        refine h.call ?_ (fun _ hreads => ?_) hcalm
        · rw [hafter]
          refine ⟨.inl, ?_⟩
          rintro (hshut | hstopped)
          · exact hshut
          · rw [Call.Stopped, hpolled] at hstopped
            cases hstopped
        · rw [hwrites] at hreads
          cases hreads
  · exact ⟨h.seen, h.later, h.calm⟩

/-- **A stopped object stays stopped.**  In every run in which no `poll_read` or
`poll_recv_from` is made after one of them has found the connection stopped: each later one
returns `ConnectionAborted`, and no call panics.  If the signal was sent, a further one panics if
and only if the connection has been found stopped. -/
theorem stopped_stays_stopped (protocol : Protocol) {s : Object}
    (reach : (system protocol).Reach Polite s) :
    (s.calls.Pairwise fun earlier call => earlier.Stopped → call.Aborts) ∧
      (∀ call ∈ s.calls, call.effect.ended ≠ .panicked) ∧
      (s.channel = .sent → ∀ (op : Op) (call : Call), op.reads = true →
        op.perform s.conn s.channel = some call →
        (call.effect.ended = .panicked ↔ ∃ earlier ∈ s.calls, earlier.Stopped)) := by
  have hinit : StopInv (system protocol).init := by
    refine ⟨iff_of_false Bool.false_ne_true ?_, List.Pairwise.nil, ?_⟩
    · rintro ⟨call, hmem, _⟩
      cases hmem
    · intro call hmem
      cases hmem
  have hinv : StopInv s :=
    System.Reach.invariant hinit (fun _ _ _ h hpolite hstep => h.step hpolite hstep) reach
  refine ⟨hinv.later, hinv.calm, fun _ op call hreads hcall => ?_⟩
  rw [← hinv.seen]
  obtain ⟨effect, put, rfl, hperformed⟩ := perform_cases hcall
  cases hperformed with
  | panicked _ hyielded _ => exact iff_of_true rfl hyielded
  | aborted _ hyielded _ _ =>
      rw [hyielded]
      exact iff_of_false Ended.noConfusion Bool.false_ne_true
  | passed _ hyielded _ _ hasked =>
      rw [hyielded]
      exact iff_of_false hasked.calm.1 Bool.false_ne_true
  | direct hwrites _ _ =>
      rw [hwrites] at hreads
      cases hreads

/-- A read of a stream that is asked with an empty buffer. -/
def emptyRead : Op := .pollRead false .pending (.new 16)

/-- A stream is stopped, a read finds it so, and it is written to once more. -/
theorem stopped_stays_stopped_written : ∃ s, (system .tcp).Reach Polite s ∧
    s.calls.map (fun call => call.effect.ended)
      = [.pending, .failed abortedByUser, .ok (.size 2)] ∧
    ∀ call ∈ s.calls, call.effect.ended ≠ .panicked := by
  have hfirst : ∀ call ∈ [(⟨emptyRead, .tcp 0 0,
      ⟨some .ok, ⟨.tcp 0 0, false⟩, .pending⟩, 0⟩ : Call)], ¬ call.Stopped := by
    intro call hmem hstopped
    obtain rfl := List.mem_singleton.mp hmem
    cases hstopped
  have reach : (system .tcp).Reach Polite _ :=
    .step (.step (.step (.step .init (fun _ _ _ _ hmem => by cases hmem)
      (e := .call emptyRead) rfl)
      (fun _ hop => by cases hop) (e := .stop) rfl)
      (fun _ _ _ => hfirst) (e := .call emptyRead) rfl)
      (fun op hop hreads => by cases hop; cases hreads)
      (e := .call (.pollWrite (.ready (.ok 2)) [1, 2])) rfl
  exact ⟨_, reach, rfl, (stopped_stays_stopped .tcp reach).2.1⟩

/-- **The second read after a stop panics.** -/
theorem read_after_stop_panics :
    ((system .tcp).run [.stop, .call emptyRead, .call emptyRead]).map
        (fun s => s.calls.map fun call => call.effect.ended)
      = some [.failed abortedByUser, .panicked] := rfl

/-! ## Counting -/

/-- The amount by which a call has increased an accumulator; the accumulators are of type `u64`. -/
def Call.added (call : Call) (d : Direction) : ℤ :=
  ((call.effect.conn.state.buffered d : ℤ) - call.found.buffered d) % 2 ^ 64

/-- **The call counts what it moves.** -/
def Call.Exact (call : Call) : Prop :=
  call.added .download = call.put ∧ call.added .upload = call.op.accepted

/-- A datagram has been received into a buffer that held something. -/
def Call.Refilled (call : Call) : Prop :=
  ∃ heartbeat datagram buf answer, call.op = .pollRecvFrom heartbeat (.ready (.ok datagram)) buf ∧
    buf.filled ≠ [] ∧ call.effect.ended = .ok answer

/-- Buffers have a size that is a `usize`. -/
def Op.Sized : Op → Prop
  | .pollRead _ _ buf | .pollRecvFrom _ _ buf => buf.capacity < 2 ^ 64
  | .pollWrite inner _ => ∀ s, inner = .ready (.ok s) → s < 2 ^ 64
  | .pollSendTo _ buf _ => buf.length < 2 ^ 64

/-- An amount goes into the accumulator of one direction. -/
def Adds (d : Direction) (n : ℕ) (state state' : ConnType) : Prop :=
  ∀ d', state'.buffered d' % 2 ^ 64 = (state.buffered d' + if d' = d then n else 0) % 2 ^ 64

/-- Adding at an address adds to the sum of a map. -/
theorem sum_addAt_mod (addr : Address) (size : ℕ) (map : List (Address × ℕ)) :
    ((addAt addr size map).map Prod.snd).sum % 2 ^ 64
      = ((map.map Prod.snd).sum + size) % 2 ^ 64 := by
  induction map with
  | nil => simp [addAt]
  | cons entry rest ih =>
      obtain ⟨a, n⟩ := entry
      rw [addAt]
      split
      · simp only [List.map_cons, List.sum_cons, addU64]
        omega
      · simp only [List.map_cons, List.sum_cons]
        omega

section Adds

variable {state state' : ConnType} {n : ℕ}

theorem adds_read (h : state.read n = some state') : Adds .download n state state' := by
  cases state with
  | udp r s => cases h
  | tcp r w =>
      cases h
      rintro (_ | _)
      · simp [ConnType.buffered]
      · simp [ConnType.buffered, addU64]

theorem adds_write (h : state.write n = some state') : Adds .upload n state state' := by
  cases state with
  | udp r s => cases h
  | tcp r w =>
      cases h
      rintro (_ | _)
      · simp [ConnType.buffered, addU64]
      · simp [ConnType.buffered]

theorem adds_recvFrom {addr : Address} (h : state.recvFrom addr n = some state') :
    Adds .download n state state' := by
  cases state with
  | tcp r w => cases h
  | udp r s =>
      cases h
      rintro (_ | _)
      · simp [ConnType.buffered]
      · exact sum_addAt_mod addr n r

theorem adds_sendTo {addr : Address} (h : state.sendTo addr n = some state') :
    Adds .upload n state state' := by
  cases state with
  | tcp r w => cases h
  | udp r s =>
      cases h
      rintro (_ | _)
      · exact sum_addAt_mod addr n s
      · simp [ConnType.buffered]

end Adds

section Counting

variable {call : Call}

/-- What a call adds that has counted an amount. -/
theorem Adds.added {d : Direction} {n : ℕ} (h : Adds d n call.found call.effect.conn.state)
    (hn : n < 2 ^ 64) (d' : Direction) : call.added d' = if d' = d then (n : ℤ) else 0 := by
  have hmod := h d'
  unfold Call.added
  by_cases hd : d' = d
  · rw [if_pos hd] at hmod ⊢
    omega
  · rw [if_neg hd] at hmod ⊢
    omega

/-- A call that leaves the accumulators as it has found them adds nothing. -/
theorem added_of_same (h : call.effect.conn.state = call.found) (d : Direction) :
    call.added d = 0 := by
  rw [Call.added, h, Int.sub_self]
  rfl

/-- **What is to be shown of a call.** -/
def Call.Counted (call : Call) : Prop :=
  (call.Exact ↔ ¬ call.Refilled) ∧
    ((∀ answer, call.effect.ended ≠ .ok answer) → ∀ d, call.added d = 0)

/-- A call that moves nothing and adds nothing. -/
theorem counted_of_idle (hsame : call.effect.conn.state = call.found)
    (haccepted : call.op.accepted = 0) (hput : call.put = 0)
    (hended : ∀ answer, call.effect.ended ≠ .ok answer) : call.Counted := by
  refine ⟨iff_of_true ⟨?_, ?_⟩ ?_, fun _ => added_of_same hsame⟩
  · rw [hput]
    exact added_of_same hsame _
  · rw [haccepted]
    exact added_of_same hsame _
  · rintro ⟨_, _, _, answer, _, _, hok⟩
    exact hended answer hok

/-- A call that counts the bytes it moves, and is none of `poll_recv_from`. -/
theorem counted_of_adds {d : Direction} {n : ℕ} {answer : Answer}
    (hadds : Adds d n call.found call.effect.conn.state) (hn : n < 2 ^ 64)
    (hput : call.put = if Direction.download = d then n else 0)
    (haccepted : call.op.accepted = if Direction.upload = d then n else 0)
    (hkind : call.op.protocol = .tcp ∨ call.op.reads = false)
    (hended : call.effect.ended = .ok answer) : call.Counted := by
  refine ⟨iff_of_true ⟨?_, ?_⟩ ?_, fun hfails => absurd hended (hfails answer)⟩
  · rw [hadds.added hn, hput]
    split <;> rfl
  · rw [hadds.added hn, haccepted]
    split <;> rfl
  · rintro ⟨_, _, _, _, hop, _⟩
    rw [hop] at hkind
    rcases hkind with h | h <;> cases h

theorem length_put_le (buf : ReadBuf) (data : Bytes) :
    (buf.put data).filled.length ≤ buf.capacity := (buf.put data).bounded

theorem length_put_sub (buf : ReadBuf) (data : Bytes) :
    (buf.put data).filled.length = buf.filled.length +
      ((buf.put data).filled.length - buf.filled.length) := by
  simp only [ReadBuf.put, List.length_append]
  omega

variable {conn : Connection} {op : Op} {effect : Effect} {put : ℕ}

/-- **What is asked of the wrapped socket is counted**, or is nothing. -/
theorem Asked.counts {polled : Option PollResult} (h : Asked polled conn op effect put)
    (hsized : op.Sized) : Call.Counted ⟨op, conn.state, effect, put⟩ := by
  cases h with
  | failed e hrefused | pending hrefused =>
      exact counted_of_idle rfl hrefused rfl fun _ => Ended.noConfusion
  | @read heartbeat data buf _ state hgrows hcounts =>
      have hput : put < 2 ^ 64 := by
        have hle := length_put_le buf data
        have hcapacity : buf.capacity < 2 ^ 64 := hsized
        omega
      exact counted_of_adds (adds_read hcounts) hput rfl rfl (.inl rfl) rfl
  | @wrote s buf state hcounts =>
      exact counted_of_adds (adds_write hcounts) (hsized s rfl) rfl rfl (.inl rfl) rfl
  | @sent r buf target state hcounts =>
      exact counted_of_adds (adds_sendTo hcounts) hsized rfl rfl (.inr rfl) rfl
  | @received heartbeat addr data buf _ state hgrows hcounts =>
      refine ⟨?_, fun hfails => absurd rfl (hfails _)⟩
      have hlength := length_put_sub buf data
      have hsize : (buf.put data).filled.length < 2 ^ 64 :=
        (length_put_le buf data).trans_lt hsized
      have hadded : ∀ d, Call.added ⟨.pollRecvFrom heartbeat (.ready (.ok (addr, data))) buf,
          conn.state, ⟨polled, { conn with state }, .ok (.sender addr)⟩, put⟩ d
            = if d = .download then (((buf.put data).filled.length : ℕ) : ℤ) else 0 :=
        fun d => Adds.added (adds_recvFrom hcounts) hsize d
      -- the whole filled part is counted, so what was there before must be nothing
      have hexact : (((buf.put data).filled.length : ℕ) : ℤ) = put ↔ buf.filled = [] := by
        rw [← List.length_eq_zero_iff]
        omega
      rw [Call.Exact, hadded, hadded, if_pos rfl, if_neg nofun, hexact, iff_not_comm]
      constructor
      · rintro ⟨_, _, _, _, hop, hne, _⟩
        cases hop
        exact fun h => hne h.1
      · intro hne
        exact ⟨_, _, _, _, rfl, fun h => hne ⟨h, rfl⟩, rfl⟩

theorem accepted_of_reads (h : op.reads = true) : op.accepted = 0 := by
  cases op <;> first | rfl | cases h

/-- **What a call moves and what it counts.** -/
theorem Performed.counts (h : Performed conn op effect put) (hsized : op.Sized) :
    Call.Counted ⟨op, op.found conn, effect, put⟩ := by
  cases h with
  | panicked hreads _ hstate | aborted hreads _ _ hstate =>
      exact counted_of_idle hstate (accepted_of_reads hreads) rfl fun _ => Ended.noConfusion
  | passed _ _ _ hstate hasked | direct _ hstate hasked => exact hstate ▸ hasked.counts hsized

end Counting

/-- A buffer of four bytes, of which some are filled. -/
def fourBytes (filled : Bytes) (h : filled.length ≤ 4) : ReadBuf := ⟨filled, 4, h⟩

/-- A datagram of three bytes, received into a buffer that holds some already. -/
def receive (filled : Bytes) (h : filled.length ≤ 4) : Op :=
  .pollRecvFrom false (.ready (.ok (.v4 0 53, [7, 8, 9]))) (fourBytes filled h)

end Wrapped

end RabbitDigger.ConnectionManager
