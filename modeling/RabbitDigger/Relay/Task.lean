import RabbitDigger.Relay.Udp

/-!
# The UDP relay as a task

The channel at one end of a relay is not an arbitrary environment: it is a program of the
repository with a state of its own, which other tasks may share.  To speak about such a
system, the relay is looked at **one call at a time**.

A `Channel` is an `IUdpChannel`: what its two functions do to its state `σ`, given what lies
below it answers (`ι`).  A step of the relay's task is one pass of one of its inner loops
(`Loop`, `Dir`), which makes at most one call; between two steps anything else may happen.
Which pass comes next is left open here.  In the source the loops follow each other in a
fixed order, so a poll is **one of the sequences of passes** that the task can make.

What clients use is `Task.step_cases`: what one step does to the channel and to the log of
calls, from which the packets received, sent and in flight can be read off.
-/

namespace RabbitDigger.UdpRelay

open Polling

/-! ## Passes -/

/-- The inner loops of a direction. -/
inductive Loop where
  | fill
  | drain
deriving Repr, DecidableEq

/-- One pass of a loop. -/
def Loop.pass (env : Environment packetInterface) (dir : Dir) :
    Loop → CopyState →
      CopyState × Option (Outcome (IoResult Bool))
  | .fill => fillPass env dir
  | .drain => drainPass env dir

/-- Replace the queue of a direction. -/
def CopyBidirectional.setQueue (relay : CopyBidirectional) (c : CopyBuffer) :
    Dir → CopyBidirectional
  | .sendTo => { relay with sendQueue := c }
  | .recvFrom => { relay with recvQueue := c }

/-- How the task of a relay ends. -/
inductive Ended where
  | error (e : IoError)
  | panicked
deriving Repr, DecidableEq

/-- The end that a pass brings, if any. -/
def endedBy : Option (Outcome (IoResult Bool)) → Option Ended
  | some (.returned (.ready (.error e))) => some (.error e)
  | some .panicked => some .panicked
  | _ => none

/-- The task of a relay: its queues, the calls it has made, and its end. -/
structure Task where
  relay : CopyBidirectional
  log : Log packetInterface
  ended : Option Ended

namespace Task

/-- The task that `connect_udp` spawns. -/
def new : Task where
  relay := .new
  log := []
  ended := none

/-- One pass. -/
def pass (env : Environment packetInterface) (loop : Loop) (dir : Dir) (t : Task) : Task :=
  let r := loop.pass env dir (t.relay.queue dir, t.log)
  { relay := t.relay.setQueue r.1.1 dir
    log := r.1.2
    ended := endedBy r.2 }

/-- The packets that a direction has received, -/
def received (t : Task) (dir : Dir) : List Packet := Pipe.received (trace dir t.log)

/-- those that it has handed on, -/
def sent (t : Task) (dir : Dir) : List Packet := Pipe.sent (trace dir t.log)

/-- and those between. -/
def inFlight (t : Task) (dir : Dir) : List Packet := (t.relay.queue dir).packets

end Task

/-! ## What a pass does -/

namespace CopyBuffer

/-- All buffers have the size they were made with. -/
def Sized (c : CopyBuffer) : Prop :=
  ∀ packet ∈ c.pool ++ c.queue, packet.buf.length = udpBufferSize

section Sized

variable {c : CopyBuffer}

theorem length_new : PacketBuffer.new.buf.length = udpBufferSize := List.length_replicate

theorem sized_new (bufferSize max : ℕ) : (new bufferSize max).Sized := by
  intro packet hmem
  rw [new, List.append_nil] at hmem
  rw [List.eq_of_mem_replicate hmem]
  exact length_new

theorem Sized.grow (sized : c.Sized) {c' : CopyBuffer} (h : c.grow = some c') : c'.Sized := by
  unfold CopyBuffer.grow at h
  split at h
  · dsimp only at h
    split at h
    · cases h
      intro packet hmem
      rcases List.mem_append.mp hmem with hpool | hqueue
      · rcases List.mem_append.mp hpool with hold | hnew
        · exact sized packet (List.mem_append_left _ hold)
        · rw [List.eq_of_mem_replicate hnew]
          exact length_new
      · exact sized packet (List.mem_append_right _ hqueue)
    · cases h
  · cases h
    exact sized

theorem Sized.takeFromPool (sized : c.Sized) :
    c.takeFromPool.1.Sized ∧
      ∀ packet, c.takeFromPool.2 = some packet → packet.buf.length = udpBufferSize := by
  unfold CopyBuffer.takeFromPool
  cases hlast : c.pool.getLast? with
  | none => exact ⟨sized, fun packet h => by cases h⟩
  | some packet =>
      have hpacket : packet.buf.length = udpBufferSize :=
        sized packet (List.mem_append_left _ (List.mem_of_getLast? hlast))
      refine ⟨?_, fun p h => by cases h; exact hpacket⟩
      intro p hmem
      rcases List.mem_append.mp hmem with hpool | hqueue
      · exact sized p (List.mem_append_left _ (List.mem_of_mem_dropLast hpool))
      · rcases List.mem_append.mp hqueue with hold | hnew
        · exact sized p (List.mem_append_right _ hold)
        · rw [List.mem_singleton.mp hnew]
          exact hpacket

theorem Sized.borrowBack (sized : c.Sized) {c' : CopyBuffer} {back : Option PacketBuffer}
    (h : c.borrowBack = some (c', back)) :
    c'.Sized ∧ ∀ packet, back = some packet → packet.buf.length = udpBufferSize := by
  -- the two branches that take a buffer of the pool
  have htake : c.grow.map CopyBuffer.takeFromPool = some (c', back) →
      c'.Sized ∧ ∀ packet, back = some packet → packet.buf.length = udpBufferSize := by
    intro hmap
    obtain ⟨grown, hgrow, heq⟩ := Option.map_eq_some_iff.mp hmap
    have htaken := (sized.grow hgrow).takeFromPool
    rw [heq] at htaken
    exact htaken
  unfold CopyBuffer.borrowBack at h
  cases hlast : c.queue.getLast? with
  | none =>
      rw [hlast] at h
      exact htake h
  | some last =>
      rw [hlast] at h
      dsimp only at h
      split at h
      · exact htake h
      · cases h
        refine ⟨sized, fun packet hback => ?_⟩
        cases hback
        exact sized _ (List.mem_append_right _ (List.mem_of_getLast? hlast))

theorem Sized.fill (sized : c.Sized) {packet : PacketBuffer}
    (hpacket : packet.buf.length = udpBufferSize) {bytes : Bytes}
    (hbytes : bytes.length ≤ udpBufferSize) (addr : Address) :
    (c.setBack (packet.fill bytes addr)).Sized := by
  intro p hmem
  rcases List.mem_append.mp hmem with hpool | hqueue
  · exact sized p (List.mem_append_left _ hpool)
  · rcases List.mem_append.mp hqueue with hold | hnew
    · exact sized p (List.mem_append_right _ (List.mem_of_mem_dropLast hold))
    · rw [List.mem_singleton.mp hnew]
      show (bytes ++ packet.buf.drop bytes.length).length = udpBufferSize
      rw [List.length_append, List.length_drop, hpacket]
      omega

theorem Sized.popFront (sized : c.Sized) : c.popFront.Sized := by
  obtain ⟨pool, queue, size⟩ := c
  cases queue with
  | nil => exact sized
  | cons first rest =>
      intro p hmem
      rcases List.mem_append.mp hmem with hpool | hqueue
      · rcases List.mem_append.mp hpool with hold | hnew
        · exact sized p (List.mem_append_left _ hold)
        · rw [List.mem_singleton.mp hnew]
          exact sized first (List.mem_append_right _ List.mem_cons_self)
      · exact sized p (List.mem_append_right _ (List.mem_cons_of_mem _ hqueue))

end Sized

end CopyBuffer

/-- The calls that a pass of a loop makes, when its direction has these packets in flight. -/
def Calls (packets : List Packet) : Loop → Dir → PacketCall → Prop
  | .fill, .sendTo, call => call = .channelSendTo udpBufferSize
  | .fill, .recvFrom, call => call = .socketRecvFrom udpBufferSize
  | .drain, .sendTo, call =>
      ∃ data addr rest, packets = (data, addr) :: rest ∧ call = .socketSendTo data addr
  | .drain, .recvFrom, call =>
      ∃ data addr rest, packets = (data, .socketAddr addr) :: rest ∧
        call = .channelRecvFrom data addr

/-- The error that a call was answered with, if any. -/
def failure : Event packetInterface → Option IoError
  | ⟨.channelSendTo _, .ready (.error e)⟩ => some e
  | ⟨.socketSendTo _ _, .ready (.error e)⟩ => some e
  | ⟨.socketRecvFrom _, .ready (.error e)⟩ => some e
  | ⟨.channelRecvFrom _ _, .ready (.error e)⟩ => some e
  | _ => none

section Pass

variable {env : Environment packetInterface} {dir : Dir} {c : CopyBuffer}
variable {log : Log packetInterface}

/-- What a pass does: it makes no call and goes on, or it makes one call, whose error ends
the task. -/
def Passes (env : Environment packetInterface) (loop : Loop) (dir : Dir)
    (x : CopyState)
    (r : CopyState × Option (Outcome (IoResult Bool))) : Prop :=
  r.1.1.Sized ∧
    ((r.1.2 = x.2 ∧ endedBy r.2 = none) ∨
      ∃ call, Calls x.1.packets loop dir call ∧ r.1.2 = env.record x.2 call ∧
        endedBy r.2 = (failure ⟨call, env x.2 call⟩).map .error)

theorem fillPass_passes (wf : c.WellFormed 16) (sized : c.Sized) :
    Passes env .fill dir (c, log) (fillPass env dir (c, log)) := by
  obtain ⟨c', back, hback, _⟩ := wf.borrowBack
  obtain ⟨hsized, hroom⟩ := sized.borrowBack hback
  unfold fillPass
  simp only [hback]
  cases back with
  | none => exact ⟨hsized, .inl ⟨rfl, rfl⟩⟩
  | some packet =>
      have hlength := hroom packet rfl
      dsimp only
      rw [hlength]
      cases dir with
      | sendTo =>
          simp only [Dir.receive]
          rcases hanswer : env log (PacketCall.channelSendTo udpBufferSize)
            with (e | ⟨bytes, addr⟩) | _
          · refine ⟨hsized, .inr ⟨_, rfl, rfl, ?_⟩⟩
            rw [hanswer]
            rfl
          · refine ⟨hsized.fill hlength bytes.property addr, .inr ⟨_, rfl, rfl, ?_⟩⟩
            rw [hanswer]
            rfl
          · refine ⟨hsized, .inr ⟨_, rfl, rfl, ?_⟩⟩
            rw [hanswer]
            rfl
      | recvFrom =>
          simp only [Dir.receive]
          rcases hanswer : env log (PacketCall.socketRecvFrom udpBufferSize)
            with (e | ⟨bytes, addr⟩) | _
          · refine ⟨hsized, .inr ⟨_, rfl, rfl, ?_⟩⟩
            rw [hanswer]
            rfl
          · refine ⟨hsized.fill hlength bytes.property _, .inr ⟨_, rfl, rfl, ?_⟩⟩
            rw [hanswer]
            rfl
          · refine ⟨hsized, .inr ⟨_, rfl, rfl, ?_⟩⟩
            rw [hanswer]
            rfl

theorem drainPass_passes (wf : c.WellFormed 16) (sized : c.Sized)
    (sendable : ∀ packet ∈ c.packets, Sendable dir packet) :
    Passes env .drain dir (c, log) (drainPass env dir (c, log)) := by
  unfold drainPass
  cases hfront : c.borrowFront with
  | none => exact ⟨sized, .inl ⟨rfl, rfl⟩⟩
  | some packet =>
      cases hborrow : packet.borrow with
      | none =>
          simp only [hborrow]
          exact ⟨sized, .inl ⟨rfl, rfl⟩⟩
      | some sent =>
          obtain ⟨data, addr⟩ := sent
          obtain ⟨_, hpackets⟩ := wf.popFront hfront hborrow
          have hsendable : Sendable dir (data, addr) :=
            sendable _ (by rw [hpackets]; exact List.mem_cons_self)
          simp only [hborrow]
          cases dir with
          | sendTo =>
              simp only [Dir.send]
              rcases hanswer : env log (PacketCall.socketSendTo data addr) with (e | n) | _
              · refine ⟨sized, .inr ⟨_, ⟨data, addr, _, hpackets, rfl⟩, rfl, ?_⟩⟩
                rw [hanswer]
                rfl
              · refine ⟨sized.popFront, .inr ⟨_, ⟨data, addr, _, hpackets, rfl⟩, rfl, ?_⟩⟩
                rw [hanswer]
                rfl
              · refine ⟨sized, .inr ⟨_, ⟨data, addr, _, hpackets, rfl⟩, rfl, ?_⟩⟩
                rw [hanswer]
                rfl
          | recvFrom =>
              obtain ⟨s, rfl⟩ := hsendable
              simp only [Dir.send]
              rcases hanswer : env log (PacketCall.channelRecvFrom data s) with (e | n) | _
              · refine ⟨sized, .inr ⟨_, ⟨data, s, _, hpackets, rfl⟩, rfl, ?_⟩⟩
                rw [hanswer]
                rfl
              · refine ⟨sized.popFront, .inr ⟨_, ⟨data, s, _, hpackets, rfl⟩, rfl, ?_⟩⟩
                rw [hanswer]
                rfl
              · refine ⟨sized, .inr ⟨_, ⟨data, s, _, hpackets, rfl⟩, rfl, ?_⟩⟩
                rw [hanswer]
                rfl

end Pass

/-! ## Steps of the task -/

/-- An `IUdpChannel` with the state `σ`, over what answers `ι`. -/
structure Channel (σ ι : Type) where
  /-- `poll_send_to` into a buffer with room for so many bytes. -/
  pollSendTo : ι → (room : ℕ) → σ →
    σ × Poll (IoResult ({ b : Bytes // b.length ≤ room } × Address))
  /-- `poll_recv_from`. -/
  pollRecvFrom : ι → Bytes → SocketAddr → σ → σ × Poll (IoResult ℕ)

/-- What the socket at the other end answers: to a datagram it is given, and when it is
asked for one. -/
structure SocketAnswers where
  sendTo : Poll (IoResult ℕ)
  recvFrom : Poll (IoResult (Bytes × SocketAddr))

/-- A datagram that is received into a buffer is cut off at its end. -/
def SocketAnswers.received (answers : SocketAnswers) (room : ℕ) :
    Poll (IoResult ({ b : Bytes // b.length ≤ room } × SocketAddr)) :=
  match answers.recvFrom with
  | .ready (.ok (data, addr)) =>
      .ready (.ok (⟨data.take room, List.length_take_le _ _⟩, addr))
  | .ready (.error e) => .ready (.error e)
  | .pending => .pending

namespace Channel

variable {σ ι : Type} (chan : Channel σ ι)

/-- The surroundings of the relay during one step. -/
def environment (input : ι) (socket : SocketAnswers) (c : σ) : Environment packetInterface :=
  fun _ call =>
    match call with
    | .channelSendTo room => (chan.pollSendTo input room c).2
    | .socketSendTo _ _ => socket.sendTo
    | .socketRecvFrom room => socket.received room
    | .channelRecvFrom data addr => (chan.pollRecvFrom input data addr c).2

/-- What a call does to the channel. -/
def effect (input : ι) (call : PacketCall) (c : σ) : σ :=
  match call with
  | .channelSendTo room => (chan.pollSendTo input room c).1
  | .channelRecvFrom data addr => (chan.pollRecvFrom input data addr c).1
  | .socketSendTo _ _ | .socketRecvFrom _ => c

end Channel

namespace Task

/-- What is true of the task of a relay at every moment. -/
structure Running (t : Task) : Prop where
  relayed : Relayed t.relay.sendQueue t.relay.recvQueue t.log
  sized : ∀ dir, (t.relay.queue dir).Sized

theorem Running.refines {t : Task} (running : t.Running) (dir : Dir) :
    Refines dir (t.relay.queue dir) t.log := by
  cases dir with
  | sendTo => exact running.relayed.send
  | recvFrom => exact running.relayed.recv

/-- What a direction has received is what it has handed on and what is in flight. -/
theorem Running.balance {t : Task} (running : t.Running) (dir : Dir) :
    t.received dir = t.sent dir ++ t.inFlight dir :=
  (running.refines dir).inOrder.packets

theorem running_new : new.Running where
  relayed := relayed_new
  sized dir := by cases dir <;> exact CopyBuffer.sized_new 1 16

/-- Passes keep a task running. -/
theorem Running.pass {t : Task} (running : t.Running) (env : Environment packetInterface)
    (loop : Loop) (dir : Dir) :
    (t.pass env loop dir).Running ∧
      Passes env loop dir (t.relay.queue dir, t.log)
        (loop.pass env dir (t.relay.queue dir, t.log)) := by
  have hrefines := running.refines dir
  have hkeeps : Keeps dir (trace dir.other t.log) (t.relay.queue dir, t.log) := ⟨hrefines, rfl⟩
  have hpasses : Passes env loop dir (t.relay.queue dir, t.log)
      (loop.pass env dir (t.relay.queue dir, t.log)) := by
    cases loop with
    | fill => exact fillPass_passes hrefines.wellFormed (running.sized dir)
    | drain =>
        exact drainPass_passes hrefines.wellFormed (running.sized dir) hrefines.sendable
  have hkept : Keeps dir (trace dir.other t.log)
      (loop.pass env dir (t.relay.queue dir, t.log)).1 := by
    have hgoes : Goes (Keeps dir (trace dir.other t.log)) (Safe dir (trace dir.other t.log))
        (loop.pass env dir (t.relay.queue dir, t.log)) := by
      cases loop with
      | fill => exact fillPass_spec hkeeps
      | drain => exact drainPass_spec hkeeps
    rcases hr : loop.pass env dir (t.relay.queue dir, t.log) with ⟨x, _ | outcome⟩
    · rw [hr] at hgoes
      exact hgoes
    · rw [hr] at hgoes
      exact hgoes.1
  refine ⟨⟨?_, ?_⟩, hpasses⟩
  · cases dir with
    | sendTo => exact ⟨hkept.refines, running.relayed.recv.frame hkept.frame⟩
    | recvFrom => exact ⟨running.relayed.send.frame hkept.frame, hkept.refines⟩
  · intro dir'
    have hother := running.sized dir'
    cases dir <;> cases dir'
    · exact hpasses.1
    · exact hother
    · exact hother
    · exact hpasses.1

variable {σ ι : Type} (chan : Channel σ ι)

/-- One step of the task, and what it does to the channel. -/
def step (loop : Loop) (dir : Dir) (input : ι) (socket : SocketAnswers) (x : σ × Task) :
    Option (σ × Task) :=
  if x.2.ended.isSome then none
  else
    let t := x.2.pass (chan.environment input socket x.1) loop dir
    -- the pass has made at most one call
    some ((t.log.drop x.2.log.length).foldl (fun c event => chan.effect input event.1 c) x.1, t)

variable {chan}

/-- **What a step does.**  It makes no call, and then nothing has happened; or it makes one
call, which is added to the log and has its effect on the channel, and if it was answered
by an error the task ends. -/
theorem step_cases {loop : Loop} {dir : Dir} {input : ι} {socket : SocketAnswers} {c c' : σ}
    {t t' : Task} (running : t.Running)
    (h : step chan loop dir input socket (c, t) = some (c', t')) :
    t.ended = none ∧ t'.Running ∧
      ((c' = c ∧ t'.log = t.log ∧ t'.ended = none) ∨
        ∃ call, Calls (t.inFlight dir) loop dir call ∧ c' = chan.effect input call c ∧
          t'.log = t.log ++ [⟨call, chan.environment input socket c t.log call⟩] ∧
          t'.ended =
            (failure ⟨call, chan.environment input socket c t.log call⟩).map .error) := by
  obtain ⟨hrunning, hsized, hpasses⟩ :=
    running.pass (chan.environment input socket c) loop dir
  unfold step at h
  split at h
  · cases h
  · rename_i hended
    cases h
    refine ⟨by simpa using hended, hrunning, ?_⟩
    rcases hpasses with ⟨hlog, hend⟩ | ⟨call, hcall, hlog, hend⟩
    · refine .inl ⟨?_, hlog, hend⟩
      show ((t.pass _ loop dir).log.drop t.log.length).foldl _ c = c
      rw [show (t.pass (chan.environment input socket c) loop dir).log = t.log from hlog,
        List.drop_length]
      rfl
    · refine .inr ⟨call, hcall, ?_, hlog, hend⟩
      show ((t.pass _ loop dir).log.drop t.log.length).foldl _ c = _
      rw [show (t.pass (chan.environment input socket c) loop dir).log =
          t.log ++ [⟨call, chan.environment input socket c t.log call⟩] from hlog,
        List.drop_left]
      rfl

/-- What a call brings to a direction, -/
def brings (dir : Dir) (event : Event packetInterface) : List Packet :=
  Pipe.received (toEvent dir event).toList

/-- and what it takes from it. -/
def takes (dir : Dir) (event : Event packetInterface) : List Packet :=
  Pipe.sent (toEvent dir event).toList

/-- The direction that a call receives for. -/
def receives : PacketCall → Option Dir
  | .channelSendTo _ => some .sendTo
  | .socketRecvFrom _ => some .recvFrom
  | .socketSendTo _ _ | .channelRecvFrom _ _ => none

/-- The direction that a call hands on for. -/
def handsOn : PacketCall → Option Dir
  | .socketSendTo _ _ => some .sendTo
  | .channelRecvFrom _ _ => some .recvFrom
  | .channelSendTo _ | .socketRecvFrom _ => none

theorem brings_of_ne {call : PacketCall} {dir : Dir} (h : receives call ≠ some dir)
    (answer : packetInterface.Answer call) : brings dir ⟨call, answer⟩ = [] := by
  cases dir <;> cases call <;> first
    | exact absurd rfl h
    | rfl
    | (rcases answer with (e | n) | _ <;> rfl)

theorem takes_of_ne {call : PacketCall} {dir : Dir} (h : handsOn call ≠ some dir)
    (answer : packetInterface.Answer call) : takes dir ⟨call, answer⟩ = [] := by
  cases dir <;> cases call <;> first
    | exact absurd rfl h
    | rfl
    | (rcases answer with (e | n) | _ <;> rfl)

theorem received_snoc {t t' : Task} {event : Event packetInterface}
    (h : t'.log = t.log ++ [event]) (dir : Dir) :
    t'.received dir = t.received dir ++ brings dir event := by
  unfold received brings
  rw [h, trace_snoc, Pipe.received_append]

theorem sent_snoc {t t' : Task} {event : Event packetInterface}
    (h : t'.log = t.log ++ [event]) (dir : Dir) :
    t'.sent dir = t.sent dir ++ takes dir event := by
  unfold sent takes
  rw [h, trace_snoc, Pipe.sent_append]

/-- Without a call nothing is received. -/
theorem received_of_log {t t' : Task} (h : t'.log = t.log) (dir : Dir) :
    t'.received dir = t.received dir := by
  unfold received
  rw [h]

/-- Without a call nothing is handed on. -/
theorem sent_of_log {t t' : Task} (h : t'.log = t.log) (dir : Dir) :
    t'.sent dir = t.sent dir := by
  unfold sent
  rw [h]

/-- Without a call the packets in flight stay. -/
theorem inFlight_of_log {t t' : Task} (running : t.Running) (running' : t'.Running)
    (h : t'.log = t.log) (dir : Dir) : t'.inFlight dir = t.inFlight dir := by
  have hbalance := running'.balance dir
  rw [received_of_log h, sent_of_log h, running.balance dir] at hbalance
  exact (List.append_cancel_left hbalance).symm

/-- What a call takes is at the front of what is in flight, and what it brings is put at
the end. -/
theorem inFlight_snoc {t t' : Task} (running : t.Running) (running' : t'.Running)
    {event : Event packetInterface} (h : t'.log = t.log ++ [event]) (dir : Dir) :
    takes dir event ++ t'.inFlight dir = t.inFlight dir ++ brings dir event := by
  have hbalance := running'.balance dir
  rw [received_snoc h, sent_snoc h, running.balance dir, List.append_assoc,
    List.append_assoc] at hbalance
  exact (List.append_cancel_left hbalance).symm

end Task

end RabbitDigger.UdpRelay
