import RabbitDigger.Util.ForwardUdp
import Mathlib.Data.List.Chain

/-!
# Isolation and order of forwarded datagrams

What the connections of the UDP forwarder do with datagrams and replies, in every
interleaving.

**The invariant of a connection** (`Connected`) accounts for every datagram it has taken
(the relay has pulled it, or it waits in the channel) and for every reply it has put into
the shared channel (the relay counts it as handed on, or is still flushing it).  It speaks
about the connection's own datagrams and replies only, so the steps of other connections
leave it alone.

From it follow, for whole runs:

* `forwarded_inOrder`: the datagrams that a connection hands to its socket are a subsequence
  of those of its source, and replies are delivered in order, to that source, each offered
  until it is accepted;
* `handed_whole_iff`: a payload is handed on whole if and only if it fits the buffers of the
  relay, which are smaller than the receive buffer;
* `drop_only_if_full_iff`: a datagram is only dropped because of a full queue if and only if
  the connection in the cache has not ended.
-/

namespace RabbitDigger.ForwardUdp

open Polling UdpRelay Transition

/-! ## The back channel -/

/-- The answer is a success. -/
def Accepted {α : Type} : Poll (IoResult α) → Prop
  | .ready (.ok _) => True
  | _ => False

namespace BackChannel

/-- `poll_send_to` takes the first datagram of the channel, or nothing. -/
theorem pollSendTo_cases (hasSender : Bool) (answers : BackAnswers) (room : ℕ)
    (b : BackChannel) :
    ((b.pollSendTo hasSender answers room).1 = b ∧
        ¬ Accepted (b.pollSendTo hasSender answers room).2) ∨
      ∃ item addr rest, b.queue = (item, addr) :: rest ∧
        b.pollSendTo hasSender answers room = ({ b with queue := rest },
          .ready (.ok (⟨item.take room, List.length_take_le _ _⟩, .socketAddr addr))) := by
  unfold pollSendTo
  rcases hqueue : b.queue with _ | ⟨⟨item, addr⟩, rest⟩
  · refine .inl ⟨rfl, ?_⟩
    cases hasSender <;> exact id
  · dsimp only
    split
    · exact .inr ⟨item, addr, rest, rfl, rfl⟩
    · exact .inl ⟨rfl, id⟩

/-- `poll_flush` ends the flushing, or changes nothing. -/
theorem pollFlush_cases (answers : BackAnswers) (data : Bytes) (b : BackChannel) :
    ((b.pollFlush answers data).1 = b ∧ ¬ Accepted (b.pollFlush answers data).2) ∨
      b.pollFlush answers data = ({ b with flushing := false }, .ready (.ok data.length)) := by
  unfold pollFlush
  rcases answers.flush with (e | _) | _
  · exact .inl ⟨rfl, id⟩
  · exact .inr rfl
  · exact .inl ⟨rfl, id⟩

/-- What `poll_recv_from` does: nothing; it ends a flush; or it puts the packet into the
shared channel and begins a flush, which may end at once. -/
theorem pollRecvFrom_cases (i size : ℕ) (closed : Bool) (answers : BackAnswers) (data : Bytes)
    (target : SocketAddr) (b : BackChannel) (replies : List Reply)
    {r : (BackChannel × List Reply) × Poll (IoResult ℕ)}
    (h : pollRecvFrom i size closed answers data target (b, replies) = r) :
    (r.1 = (b, replies) ∧ ¬ Accepted r.2) ∨
      (b.flushing = true ∧ r = (({ b with flushing := false }, replies),
        .ready (.ok data.length))) ∨
      (b.flushing = false ∧ r.1.2 = replies ++ [(i, ⟨target, b.to', data⟩)] ∧
        ((r.1.1 = { b with flushing := true } ∧ ¬ Accepted r.2) ∨
          (r.1.1 = { b with flushing := false } ∧ r.2 = .ready (.ok data.length)))) := by
  subst h
  unfold pollRecvFrom
  dsimp only
  split
  · rename_i hflushing
    rcases pollFlush_cases answers data b with ⟨hb, hanswer⟩ | hflush
    · exact .inl ⟨by rw [hb], hanswer⟩
    · exact .inr (.inl ⟨hflushing, by rw [hflush]⟩)
  · rename_i hflushing
    split
    · exact .inl ⟨rfl, id⟩
    · split
      · refine .inr (.inr ⟨by simpa using hflushing, rfl, ?_⟩)
        rcases pollFlush_cases answers data { b with flushing := true }
          with ⟨hb, hanswer⟩ | hflush
        · exact .inl ⟨hb, hanswer⟩
        · exact .inr ⟨by rw [hflush], by rw [hflush]⟩
      · exact .inl ⟨rfl, id⟩

end BackChannel

/-! ## One connection -/

/-- **The invariant of a connection**, about the datagrams it has taken and the replies it
has put into the shared channel. -/
structure Connected (accepted : List Arrival) (outgoing : List UdpPacket)
    (conn : UdpConnection) : Prop where
  running : conn.task.Running
  /-- The relay has pulled the datagrams, or they wait in the channel. -/
  pulled : ∃ pulled waiting, accepted = pulled ++ waiting ∧
    conn.task.received .sendTo = pulled.map Arrival.relayed ∧
    conn.back.queue = waiting.map fun d => (d.data, d.to')
  /-- The relay has handed the replies on, or is flushing the last one. -/
  pushed : ∃ pending, outgoing.map UdpPacket.received = conn.task.sent .recvFrom ++ pending ∧
    pending <+: conn.task.inFlight .recvFrom ∧
    pending.length = if conn.back.flushing then 1 else 0
  addressed : ∀ p ∈ outgoing, p.to' = conn.back.to'

section Connection

variable {accepted : List Arrival} {outgoing : List UdpPacket} {conn : UdpConnection}

theorem connected_new (bindFrom : SocketAddr) (bindAddr : Address) :
    Connected [] [] (.new bindFrom bindAddr) where
  running := Task.running_new
  pulled := ⟨[], [], rfl, rfl, rfl⟩
  pushed := ⟨[], rfl, List.nil_prefix, rfl⟩
  addressed p hp := by cases hp

/-- The phase does not matter. -/
theorem Connected.setPhase (h : Connected accepted outgoing conn) (phase : Phase) :
    Connected accepted outgoing { conn with phase := phase } :=
  ⟨h.running, h.pulled, h.pushed, h.addressed⟩

/-- What `try_send` has done, if it has accepted a datagram. -/
theorem UdpConnection.send_eq_some {channelSize : ℕ} {conn' : UdpConnection}
    {packet : Bytes × SocketAddr} (h : conn.send channelSize packet = some conn') :
    conn.phase ≠ .ended ∧ conn.back.queue.length < channelSize ∧
      conn' = { conn with back := { conn.back with queue := conn.back.queue ++ [packet] } } := by
  unfold UdpConnection.send at h
  split at h
  · cases h
  · rename_i hnot
    cases h
    exact ⟨fun hphase => hnot (.inl hphase), by omega, rfl⟩

theorem Connected.send (h : Connected accepted outgoing conn) {channelSize : ℕ}
    {conn' : UdpConnection} {d : Arrival}
    (hsend : conn.send channelSize (d.data, d.to') = some conn') :
    Connected (accepted ++ [d]) outgoing conn' := by
  obtain ⟨_, _, rfl⟩ := UdpConnection.send_eq_some hsend
  refine ⟨h.running, ?_, h.pushed, h.addressed⟩
  obtain ⟨pulled, waiting, haccepted, hreceived, hqueue⟩ := h.pulled
  refine ⟨pulled, waiting ++ [d], ?_, hreceived, ?_⟩
  · rw [haccepted, List.append_assoc]
  · show conn.back.queue ++ [(d.data, d.to')] = _
    rw [hqueue, List.map_append]
    rfl

/-- A call that is not accepted takes nothing off its direction. -/
theorem takes_channelRecvFrom {data : Bytes} {addr : SocketAddr} {answer : Poll (IoResult ℕ)}
    (h : ¬ Accepted answer) :
    Task.takes .recvFrom ⟨.channelRecvFrom data addr, answer⟩ = [] := by
  rcases answer with (e | n) | _
  · rfl
  · exact absurd trivial h
  · rfl

theorem brings_channelSendTo {room : ℕ}
    {answer : Poll (IoResult ({ b : Bytes // b.length ≤ room } × Address))}
    (h : ¬ Accepted answer) : Task.brings .sendTo ⟨.channelSendTo room, answer⟩ = [] := by
  rcases answer with (e | ⟨bytes, addr⟩) | _
  · rfl
  · exact absurd trivial h
  · rfl

/-- What only moves packets into the relay from the socket, or out of it to the socket,
keeps the invariant. -/
theorem Connected.frame (h : Connected accepted outgoing conn) {task : UdpRelay.Task}
    (running : task.Running)
    (hreceived : task.received .sendTo = conn.task.received .sendTo)
    (hsent : task.sent .recvFrom = conn.task.sent .recvFrom)
    (hflight : conn.task.inFlight .recvFrom <+: task.inFlight .recvFrom) (phase : Phase) :
    Connected accepted outgoing { conn with task := task, phase := phase } := by
  refine ⟨running, ?_, ?_, h.addressed⟩
  · obtain ⟨pulled, waiting, haccepted, hpulled, hqueue⟩ := h.pulled
    exact ⟨pulled, waiting, haccepted, hreceived.trans hpulled, hqueue⟩
  · obtain ⟨pending, houtgoing, hprefix, hlength⟩ := h.pushed
    exact ⟨pending, by rw [houtgoing, hsent], hprefix.trans hflight, hlength⟩

/-- The relay pulls the first datagram of the channel. -/
theorem Connected.pull (h : Connected accepted outgoing conn) {task : UdpRelay.Task}
    (running : task.Running) {item : Bytes} {addr : SocketAddr}
    {rest : List (Bytes × SocketAddr)} (hqueue : conn.back.queue = (item, addr) :: rest)
    (hreceived : task.received .sendTo = conn.task.received .sendTo ++
      [(item.take UdpRelay.udpBufferSize, .socketAddr addr)])
    (hsent : task.sent .recvFrom = conn.task.sent .recvFrom)
    (hflight : conn.task.inFlight .recvFrom <+: task.inFlight .recvFrom) (phase : Phase) :
    Connected accepted outgoing
      { conn with
        back := { conn.back with queue := rest }
        task := task
        phase := phase } := by
  refine ⟨running, ?_, ?_, h.addressed⟩
  · obtain ⟨pulled, waiting, haccepted, hpulled, hwaiting⟩ := h.pulled
    rw [hqueue] at hwaiting
    cases waiting with
    | nil => cases hwaiting
    | cons d waiting =>
        obtain ⟨hd, hrest⟩ := List.cons.inj hwaiting
        cases hd
        refine ⟨pulled ++ [d], waiting, ?_, ?_, hrest⟩
        · rw [haccepted, List.append_assoc]
          rfl
        · rw [hreceived, hpulled, List.map_append]
          rfl
  · obtain ⟨pending, houtgoing, hprefix, hlength⟩ := h.pushed
    exact ⟨pending, by rw [houtgoing, hsent], hprefix.trans hflight, hlength⟩

/-- The relay asks the back channel for a datagram. -/
theorem Connected.ask (h : Connected accepted outgoing conn) {task : UdpRelay.Task}
    (running : task.Running) {hasSender : Bool} {answers : BackAnswers}
    (hreceived : task.received .sendTo = conn.task.received .sendTo ++
      Task.brings .sendTo ⟨.channelSendTo UdpRelay.udpBufferSize,
        (conn.back.pollSendTo hasSender answers UdpRelay.udpBufferSize).2⟩)
    (hsent : task.sent .recvFrom = conn.task.sent .recvFrom)
    (hflight : conn.task.inFlight .recvFrom <+: task.inFlight .recvFrom) (phase : Phase) :
    (conn.back.pollSendTo hasSender answers UdpRelay.udpBufferSize).1.to' = conn.back.to' ∧
      Connected accepted outgoing
        { conn with
          back := (conn.back.pollSendTo hasSender answers UdpRelay.udpBufferSize).1
          task := task
          phase := phase } := by
  rcases conn.back.pollSendTo_cases hasSender answers UdpRelay.udpBufferSize
    with ⟨hback, hanswer⟩ | ⟨item, addr, rest, hqueue, htaken⟩
  · rw [brings_channelSendTo hanswer, List.append_nil] at hreceived
    rw [hback]
    exact ⟨rfl, h.frame running hreceived hsent hflight phase⟩
  · rw [htaken] at hreceived ⊢
    exact ⟨rfl, h.pull running hqueue hreceived hsent hflight phase⟩

/-- A step that puts no reply into the shared channel. -/
theorem Connected.quiet {conn' : UdpConnection} (h : Connected accepted outgoing conn') (i : ℕ)
    (replies : List Reply) {to' : SocketAddr} (hto : conn'.back.to' = to') :
    ∃ new, replies = replies ++ new.map (fun p => (i, p)) ∧ conn'.back.to' = to' ∧
      Connected accepted (outgoing ++ new) conn' := by
  refine ⟨[], (List.append_nil _).symm, hto, ?_⟩
  rw [List.append_nil]
  exact h

/-- The relay hands its first reply on to the back channel. -/
theorem Connected.handOn (h : Connected accepted outgoing conn) {task : UdpRelay.Task}
    (running : task.Running)
    (hreceived : task.received .sendTo = conn.task.received .sendTo)
    {data : Bytes} {addr : SocketAddr} {rest : List Packet}
    (hfirst : conn.task.inFlight .recvFrom = (data, .socketAddr addr) :: rest)
    {i size : ℕ} {closed : Bool} {answers : BackAnswers} {replies : List Reply}
    {r : (BackChannel × List Reply) × Poll (IoResult ℕ)}
    (hpoll : BackChannel.pollRecvFrom i size closed answers data addr (conn.back, replies) = r)
    (hsent : task.sent .recvFrom = conn.task.sent .recvFrom ++
      Task.takes .recvFrom ⟨.channelRecvFrom data addr, r.2⟩)
    (hflight : Task.takes .recvFrom ⟨.channelRecvFrom data addr, r.2⟩ ++
      task.inFlight .recvFrom = conn.task.inFlight .recvFrom) (phase : Phase) :
    ∃ new, r.1.2 = replies ++ new.map (fun p => (i, p)) ∧ r.1.1.to' = conn.back.to' ∧
      Connected accepted (outgoing ++ new)
        { conn with
          back := r.1.1
          task := task
          phase := phase } := by
  obtain ⟨pulled, waiting, haccepted, hpulled, hqueue⟩ := h.pulled
  obtain ⟨pending, houtgoing, hprefix, hlength⟩ := h.pushed
  rcases BackChannel.pollRecvFrom_cases i size closed answers data addr conn.back replies hpoll
    with ⟨hsame, hanswer⟩ | ⟨hflushing, rfl⟩ | ⟨hflushing, hpush, hflush⟩
  · -- nothing has happened
    obtain ⟨⟨back, replies'⟩, answer⟩ := r
    cases hsame
    rw [takes_channelRecvFrom hanswer, List.append_nil] at hsent
    rw [takes_channelRecvFrom hanswer, List.nil_append] at hflight
    exact (h.frame running hreceived hsent (by rw [hflight]) phase).quiet i replies rfl
  · -- a flush has ended, so the pending reply counts as handed on
    rw [if_pos hflushing] at hlength
    rw [hfirst] at hprefix
    obtain ⟨p, rfl⟩ := List.length_eq_one_iff.mp hlength
    obtain ⟨tail, htail⟩ := hprefix
    cases htail
    refine ⟨[], by simp, rfl, running, ?_, ⟨[], ?_, List.nil_prefix, rfl⟩, ?_⟩
    · exact ⟨pulled, waiting, haccepted, hreceived.trans hpulled, hqueue⟩
    · rw [List.append_nil, List.append_nil, houtgoing]
      exact hsent.symm
    · rw [List.append_nil]
      exact h.addressed
  · rw [if_neg (by simp [hflushing]), List.length_eq_zero_iff] at hlength
    subst hlength
    rw [List.append_nil] at houtgoing
    have haddressed : ∀ p ∈ outgoing ++ [⟨addr, conn.back.to', data⟩],
        p.to' = conn.back.to' := by
      intro p hp
      rcases List.mem_append.mp hp with hold | hnew
      · exact h.addressed p hold
      · rw [List.mem_singleton.mp hnew]
    obtain ⟨⟨back, replies'⟩, answer⟩ := r
    rcases hflush with ⟨rfl, hanswer⟩ | ⟨rfl, rfl⟩
    · -- the reply is in the shared channel and is being flushed
      rw [takes_channelRecvFrom hanswer, List.append_nil] at hsent
      rw [takes_channelRecvFrom hanswer, List.nil_append] at hflight
      refine ⟨[⟨addr, conn.back.to', data⟩], hpush, rfl, running, ?_,
        ⟨[(data, .socketAddr addr)], ?_, ?_, rfl⟩, haddressed⟩
      · exact ⟨pulled, waiting, haccepted, hreceived.trans hpulled, hqueue⟩
      · rw [List.map_append, houtgoing, hsent]
        rfl
      · rw [hflight, hfirst]
        exact ⟨rest, rfl⟩
    · refine ⟨[⟨addr, conn.back.to', data⟩], hpush, rfl, running, ?_,
        ⟨[], ?_, List.nil_prefix, rfl⟩, haddressed⟩
      · exact ⟨pulled, waiting, haccepted, hreceived.trans hpulled, hqueue⟩
      · rw [List.map_append, houtgoing, List.append_nil]
        exact hsent.symm

/-- **The step lemma of a connection.**  A step of its relay keeps the invariant, with the
replies that it puts into the shared channel. -/
theorem Connected.step (h : Connected accepted outgoing conn) {i size : ℕ}
    {hasSender closed : Bool} {loop : Loop} {dir : Dir} {answers : BackAnswers}
    {socket : SocketAnswers} {replies replies' : List Reply} {back : BackChannel}
    {task : UdpRelay.Task}
    (hstep : Task.step (backChannel i size hasSender closed) loop dir answers socket
      ((conn.back, replies), conn.task) = some ((back, replies'), task)) (phase : Phase) :
    ∃ new, replies' = replies ++ new.map (fun p => (i, p)) ∧ back.to' = conn.back.to' ∧
      Connected accepted (outgoing ++ new)
        { conn with
          back := back
          task := task
          phase := phase } := by
  obtain ⟨_, running, ⟨hc, hlog, _⟩ | ⟨call, hcall, hc, hlog, _⟩⟩ :=
    Task.step_cases h.running hstep
  · -- no call was made
    cases hc
    have hflight := Task.inFlight_of_log h.running running hlog .recvFrom
    exact (h.frame running (Task.received_of_log hlog _) (Task.sent_of_log hlog _)
      (by rw [hflight]) phase).quiet i replies rfl
  · have hreceived := Task.received_snoc hlog .sendTo
    have hsent := Task.sent_snoc hlog .recvFrom
    have hflight := Task.inFlight_snoc h.running running hlog .recvFrom
    cases loop with
    | fill =>
        cases dir with
        | sendTo =>
            cases hcall
            rw [Task.takes_of_ne (by simp [Task.handsOn]), List.append_nil] at hsent
            rw [Task.takes_of_ne (by simp [Task.handsOn]),
              Task.brings_of_ne (by simp [Task.receives]), List.append_nil,
              List.nil_append] at hflight
            cases hc
            obtain ⟨hto, hconnected⟩ := h.ask running hreceived hsent (by rw [hflight]) phase
            exact hconnected.quiet i replies hto
        | recvFrom =>
            cases hcall
            cases hc
            rw [Task.brings_of_ne (by simp [Task.receives]), List.append_nil] at hreceived
            rw [Task.takes_of_ne (by simp [Task.handsOn]), List.append_nil] at hsent
            rw [Task.takes_of_ne (by simp [Task.handsOn]), List.nil_append] at hflight
            exact (h.frame running hreceived hsent ⟨_, hflight.symm⟩ phase).quiet i replies rfl
    | drain =>
        cases dir with
        | sendTo =>
            obtain ⟨data, addr, rest, _, rfl⟩ := hcall
            cases hc
            rw [Task.brings_of_ne (by simp [Task.receives]), List.append_nil] at hreceived
            rw [Task.takes_of_ne (by simp [Task.handsOn]), List.append_nil] at hsent
            rw [Task.takes_of_ne (by simp [Task.handsOn]),
              Task.brings_of_ne (by simp [Task.receives]), List.append_nil,
              List.nil_append] at hflight
            exact (h.frame running hreceived hsent (by rw [hflight]) phase).quiet i replies rfl
        | recvFrom =>
            obtain ⟨data, addr, rest, hfirst, rfl⟩ := hcall
            rw [Task.brings_of_ne (by simp [Task.receives]), List.append_nil] at hreceived
            rw [Task.brings_of_ne (by simp [Task.receives]), List.append_nil] at hflight
            change (back, replies') = (BackChannel.pollRecvFrom i size closed answers data addr
              (conn.back, replies)).1 at hc
            obtain ⟨new, hnew, hto, hconnected⟩ :=
              h.handOn running hreceived hfirst rfl hsent hflight phase
            rw [← hc] at hnew hto hconnected
            exact ⟨new, hnew, hto, hconnected⟩

end Connection

/-! ## Offers to the source -/

/-- What follows what: after a reply was accepted another one is taken, and after anything
else **the same reply is offered again**. -/
def Follows : BackEvent → BackEvent → Prop
  | .send _ (.ready (.ok _)), later => ∃ reply, later = .take reply
  | .take reply, later | .send reply _, later => ∃ answer, later = .send reply answer

/-- What is in the buffer after an event. -/
def buffered : Option BackEvent → Option Reply
  | none => none
  | some (.send _ (.ready (.ok _))) => none
  | some (.take reply) | some (.send reply _) => some reply

/-- Neither the connections nor their datagrams and replies change; entries of the cache may
vanish. -/
structure SameConnections (st st' : State) : Prop where
  connections : st'.connections = st.connections
  arrivals : st'.arrivals = st.arrivals
  outgoing : st'.outgoing = st.outgoing
  cache : ∀ entry ∈ st'.conn, entry ∈ st.conn

/-- How the forwarder offers replies to the source. -/
structure Offers (st : State) : Prop where
  chain : st.log.IsChain Follows
  sendBuf : st.sendBuf = buffered st.log.getLast?
  taken : st.taken = st.delivered ++ st.sendBuf.toList

theorem Offers.frame {st st' : State} (h : Offers st) (hlog : st'.log = st.log)
    (hbuf : st'.sendBuf = st.sendBuf) : Offers st' := by
  refine ⟨hlog ▸ h.chain, ?_, ?_⟩
  · rw [hbuf, hlog]
    exact h.sendBuf
  · unfold State.taken State.delivered
    rw [hlog, hbuf]
    exact h.taken

/-- A chain grows at its end. -/
theorem isChain_snoc {log : List BackEvent} {event : BackEvent} (h : log.IsChain Follows)
    (hlast : ∀ last ∈ log.getLast?, Follows last event) :
    (log ++ [event]).IsChain Follows := by
  rw [List.isChain_append]
  refine ⟨h, List.isChain_singleton _, ?_⟩
  intro last hmem first hfirst
  cases hfirst
  exact hlast last hmem

theorem Offers.takeBack {st st' : State} (h : Offers st) (hstep : st.takeBack = some st') :
    Offers st' ∧ SameConnections st st' := by
  unfold State.takeBack at hstep
  rcases hbuf : st.sendBuf with _ | reply
  · rcases hback : st.recvBack with _ | ⟨reply, rest⟩
    · rw [hbuf, hback] at hstep
      cases hstep
    · rw [hbuf, hback] at hstep
      cases hstep
      have hlog : st.log.getLast? = none ∨
          ∃ p n, st.log.getLast? = some (.send p (.ready (.ok n))) := by
        have hempty := h.sendBuf
        rw [hbuf] at hempty
        rcases hlast : st.log.getLast? with _ | ⟨p⟩ | ⟨p, (e | n) | _⟩
        · exact .inl rfl
        · rw [hlast] at hempty
          cases hempty
        · rw [hlast] at hempty
          cases hempty
        · exact .inr ⟨p, n, rfl⟩
        · rw [hlast] at hempty
          cases hempty
      have htaken := h.taken
      rw [hbuf, Option.toList_none, List.append_nil] at htaken
      refine ⟨⟨isChain_snoc h.chain ?_, ?_, ?_⟩, rfl, rfl, ?_, fun _ h => h⟩
      · intro last hmem
        rcases hlog with hnone | ⟨p, n, hsome⟩
        · rw [hnone] at hmem
          cases hmem
        · rw [hsome] at hmem
          cases hmem
          exact ⟨reply, rfl⟩
      · rw [List.getLast?_concat]
        rfl
      · unfold State.taken State.delivered at htaken ⊢
        rw [List.filterMap_append, List.filterMap_append, htaken]
        simp
      · unfold State.outgoing State.taken
        rw [List.filterMap_append, hback, List.append_assoc]
        rfl
  · rw [hbuf] at hstep
    cases hstep

/-- A reply that is in the buffer is offered to the source, and stays there unless the source
accepts it. -/
theorem Offers.offered {st st' : State} {reply : Reply} {answer : Poll (IoResult Unit)}
    (h : Offers st) (hbuf : st.sendBuf = some reply)
    (hlog : st'.log = st.log ++ [.send reply answer])
    (hbuf' : st'.sendBuf = buffered (some (.send reply answer))) : Offers st' := by
  have hlast : ∀ last ∈ st.log.getLast?, Follows last (.send reply answer) := by
    intro last hmem
    have hsome := h.sendBuf
    rw [hbuf, Option.mem_def.mp hmem] at hsome
    rcases last with ⟨p⟩ | ⟨p, (e | n) | _⟩
    · cases hsome
      exact ⟨answer, rfl⟩
    · cases hsome
      exact ⟨answer, rfl⟩
    · cases hsome
    · cases hsome
      exact ⟨answer, rfl⟩
  refine ⟨hlog ▸ isChain_snoc h.chain hlast, ?_, ?_⟩
  · rw [hbuf', hlog, List.getLast?_concat]
  · have htaken := h.taken
    unfold State.taken State.delivered at htaken ⊢
    rw [hlog, hbuf', List.filterMap_append, List.filterMap_append, htaken, hbuf]
    -- accepted, the reply moves from the buffer to what was delivered
    rcases answer with (e | n) | _
    · simp [buffered]
    · simp [buffered]
    · simp [buffered]

theorem Offers.sendBack {st st' : State} (h : Offers st) {answer : Poll (IoResult Unit)}
    (hstep : st.sendBack answer = some st') :
    Offers st' ∧ SameConnections st st' := by
  unfold State.sendBack at hstep
  rcases hbuf : st.sendBuf with _ | reply
  · rw [hbuf] at hstep
    cases hstep
  · rw [hbuf] at hstep
    have houtgoing : ∀ st' : State, st'.log = st.log ++ [.send reply answer] →
        st'.recvBack = st.recvBack → st'.outgoing = st.outgoing := by
      intro st' hlog hback
      unfold State.outgoing State.taken
      rw [hlog, hback, List.filterMap_append]
      simp
    rcases answer with (e | n) | _
    all_goals
      cases hstep
      refine ⟨h.offered hbuf rfl rfl, rfl, rfl, houtgoing _ rfl rfl, fun _ h => ?_⟩
    · cases h
    · exact h
    · exact h

/-! ## All connections -/

theorem ofConnection_append (i : ℕ) (replies later : List Reply) :
    ofConnection i (replies ++ later) = ofConnection i replies ++ ofConnection i later := by
  unfold ofConnection
  rw [List.filter_append, List.map_append]

theorem ofConnection_self (i : ℕ) (packets : List UdpPacket) :
    ofConnection i (packets.map fun p => (i, p)) = packets := by
  simp [ofConnection, List.filter_map, Function.comp_def]

theorem ofConnection_eq_nil {i : ℕ} {replies : List Reply}
    (h : ∀ reply ∈ replies, reply.1 ≠ i) : ofConnection i replies = [] := by
  unfold ofConnection
  rw [List.filter_eq_nil_iff.mpr (by simpa using h)]
  rfl

/-- **The invariant of the forwarder.** -/
structure Inv (st : State) : Prop where
  connected : ∀ i conn, st.connections[i]? = some conn →
    Connected (st.accepted i) (ofConnection i st.outgoing) conn
  arrivals : ∀ d ∈ st.arrivals, ∀ i, d.connection = some i → i < st.connections.length
  outgoing : ∀ reply ∈ st.outgoing, reply.1 < st.connections.length
  cached : ∀ entry ∈ st.conn, ∃ conn, st.connections[entry.2]? = some conn ∧
    conn.back.to' = entry.1
  offers : Offers st

theorem inv_new : Inv .new where
  connected i conn h := by cases h
  arrivals d hd := by cases hd
  outgoing reply hreply := by cases hreply
  cached entry hentry := by cases hentry
  offers := ⟨List.isChain_nil, rfl, rfl⟩

/-- One connection changes: it takes these datagrams and puts these replies into the shared
channel. -/
structure Changes (st st' : State) (i : ℕ) (conn conn' : UdpConnection)
    (arrived : List Arrival) (new : List UdpPacket) : Prop where
  before : st.connections[i]? = some conn
  after : st'.connections = st.connections.set i conn'
  to' : conn'.back.to' = conn.back.to'
  arrivals : st'.arrivals = st.arrivals ++ arrived
  takenBy : ∀ d ∈ arrived, d.connection = some i
  outgoing : st'.outgoing = st.outgoing ++ new.map fun p => (i, p)
  connected : Connected (st.accepted i) (ofConnection i st.outgoing) conn →
    Connected (st.accepted i ++ arrived) (ofConnection i st.outgoing ++ new) conn'
  cache : st'.conn = st.conn
  log : st'.log = st.log
  sendBuf : st'.sendBuf = st.sendBuf

/-- What happens to one connection does not touch the others. -/
theorem Inv.update {st st' : State} (inv : Inv st) {i : ℕ} {conn conn' : UdpConnection}
    {arrived : List Arrival} {new : List UdpPacket}
    (changes : Changes st st' i conn conn' arrived new) : Inv st' := by
  obtain ⟨hconn, hconnections, hto, harrivals, harrived, houtgoing, hkept, hcache, hlog, hbuf⟩ :=
    changes
  have hconnected := hkept (inv.connected i conn hconn)
  have hi : i < st.connections.length := (List.getElem?_eq_some_iff.mp hconn).1
  have hlength : st'.connections.length = st.connections.length := by
    rw [hconnections, List.length_set]
  refine ⟨?_, ?_, ?_, ?_, inv.offers.frame hlog hbuf⟩
  · intro j cj hj
    rw [hconnections] at hj
    unfold State.accepted
    rw [harrivals, houtgoing, List.filter_append, ofConnection_append]
    by_cases hij : i = j
    · subst hij
      rw [List.getElem?_set_self hi] at hj
      cases hj
      have hall : arrived.filter (fun d => d.connection = some i) = arrived :=
        List.filter_eq_self.mpr (by simpa using harrived)
      rw [ofConnection_self, hall]
      exact hconnected
    · rw [List.getElem?_set_ne hij] at hj
      have hnone : arrived.filter (fun d => d.connection = some j) = [] := by
        refine List.filter_eq_nil_iff.mpr fun d hd => ?_
        simpa [harrived d hd] using hij
      have hother : ofConnection j (new.map fun p => (i, p)) = [] := by
        refine ofConnection_eq_nil fun reply hreply => ?_
        obtain ⟨p, _, rfl⟩ := List.mem_map.mp hreply
        exact hij
      rw [hnone, hother, List.append_nil, List.append_nil]
      exact inv.connected j cj hj
  · intro d hd j hj
    rw [harrivals] at hd
    rw [hlength]
    rcases List.mem_append.mp hd with hold | hnew
    · exact inv.arrivals d hold j hj
    · rw [harrived d hnew] at hj
      cases hj
      exact hi
  · intro reply hreply
    rw [houtgoing] at hreply
    rw [hlength]
    rcases List.mem_append.mp hreply with hold | hnew
    · exact inv.outgoing reply hold
    · obtain ⟨p, _, rfl⟩ := List.mem_map.mp hnew
      exact hi
  · intro entry hentry
    obtain ⟨c, hc, hkey⟩ := inv.cached entry (hcache ▸ hentry)
    rw [hconnections]
    by_cases hij : i = entry.2
    · subst hij
      rw [hconn] at hc
      cases hc
      exact ⟨conn', List.getElem?_set_self hi, hto.trans hkey⟩
    · exact ⟨c, by rw [List.getElem?_set_ne hij, hc], hkey⟩

/-- The phase of a connection changes. -/
theorem changes_phase {st : State} {i : ℕ} {conn : UdpConnection}
    (hconn : st.connections[i]? = some conn) (phase : Phase) :
    Changes st { st with connections := st.connections.set i { conn with phase := phase } }
      i conn { conn with phase := phase } [] [] where
  before := hconn
  after := rfl
  to' := rfl
  arrivals := (List.append_nil _).symm
  takenBy := by simp
  outgoing := (List.append_nil _).symm
  connected h := by
    rw [List.append_nil, List.append_nil]
    exact h.setPhase phase
  cache := rfl
  log := rfl
  sendBuf := rfl

theorem Inv.frame {st st' : State} (inv : Inv st) (same : SameConnections st st')
    (offers : Offers st') : Inv st' := by
  obtain ⟨hconnections, harrivals, houtgoing, hcache⟩ := same
  refine ⟨?_, ?_, ?_, ?_, offers⟩
  · unfold State.accepted
    rw [hconnections, harrivals, houtgoing]
    exact inv.connected
  · rw [hconnections, harrivals]
    exact inv.arrivals
  · rw [hconnections, houtgoing]
    exact inv.outgoing
  · intro entry hentry
    rw [hconnections]
    exact inv.cached entry (hcache entry hentry)

/-- What `get` finds or makes: a connection of the source. -/
theorem Inv.get {st st' : State} (inv : Inv st) {bindFrom : SocketAddr} {i : ℕ}
    (h : st.get bindFrom = some (st', i)) :
    Inv st' ∧ st'.arrivals = st.arrivals ∧ ∃ conn, st'.connections[i]? = some conn ∧
      conn.back.to' = bindFrom ∧
      (∀ (j : ℕ) (c : UdpConnection), st.connections[j]? = some c →
        st'.connections[j]? = some c) ∧
      ((st' = st ∧ st.find bindFrom = some i) ∨
        (st.find bindFrom = none ∧ i = st.connections.length ∧
          conn = .new bindFrom (Address.anyAddrPort bindFrom))) := by
  unfold State.get at h
  rcases hfind : st.find bindFrom with _ | k
  · rw [hfind] at h
    dsimp only at h
    split at h
    · cases h
      refine ⟨⟨?_, ?_, ?_, ?_, inv.offers.frame rfl rfl⟩, rfl, _, List.getElem?_concat_length,
        rfl, ?_, .inr ⟨rfl, rfl, rfl⟩⟩
      · intro j conn hj
        change Connected (st.accepted j) (ofConnection j st.outgoing) conn
        change (st.connections ++ [_])[j]? = some conn at hj
        rw [List.getElem?_append] at hj
        split at hj
        · exact inv.connected j conn hj
        · -- the new connection has taken and put nothing
          rename_i hlt
          rw [List.getElem?_singleton] at hj
          split at hj
          · cases hj
            have haccepted : st.accepted j = [] := by
              refine List.filter_eq_nil_iff.mpr fun d hd => ?_
              have hbound := inv.arrivals d hd j
              simpa using fun hconnection => hlt (hbound hconnection)
            have houtgoing : ofConnection j st.outgoing = [] := by
              refine ofConnection_eq_nil fun reply hreply heq => ?_
              exact hlt (heq ▸ inv.outgoing reply hreply)
            rw [haccepted, houtgoing]
            exact connected_new _ _
          · cases hj
      · intro d hd j hj
        rw [List.length_append]
        exact Nat.lt_add_right _ (inv.arrivals d hd j hj)
      · intro reply hreply
        rw [List.length_append]
        exact Nat.lt_add_right _ (inv.outgoing reply hreply)
      · intro entry hentry
        rcases List.mem_cons.mp hentry with rfl | hold
        · exact ⟨_, List.getElem?_concat_length, rfl⟩
        · obtain ⟨conn, hconn, hkey⟩ := inv.cached entry hold
          have hlt := (List.getElem?_eq_some_iff.mp hconn).1
          exact ⟨conn, by rw [List.getElem?_append_left hlt, hconn], hkey⟩
      · intro j c hj
        have hlt := (List.getElem?_eq_some_iff.mp hj).1
        exact (List.getElem?_append_left hlt).trans hj
    · cases h
  · rw [hfind] at h
    cases h
    obtain ⟨entry, hentry, rfl⟩ := Option.map_eq_some_iff.mp hfind
    obtain ⟨conn, hconn, hto⟩ := inv.cached entry (List.mem_of_find?_eq_some hentry)
    have hkey : entry.1 = bindFrom :=
      SocketAddr.cmp_eq (by simpa using List.find?_some hentry)
    exact ⟨inv, rfl, conn, hconn, hto.trans hkey, fun _ _ h => h, .inl ⟨rfl, rfl⟩⟩

/-- What becomes of a datagram that is offered to a connection. -/
theorem forward_cases {channelSize : ℕ} {st st' : State} {i : ℕ} {from' to' : SocketAddr}
    {data : Bytes} (h : st.forward channelSize i from' to' data = some st') :
    ∃ conn, st.connections[i]? = some conn ∧
      ((conn.send channelSize (data, to') = none ∧
          st' = { st with arrivals := st.arrivals ++ [⟨from', to', data, none⟩] }) ∨
        ∃ conn', conn.send channelSize (data, to') = some conn' ∧
          Changes st st' i conn conn' [⟨from', to', data, some i⟩] []) := by
  unfold State.forward at h
  rcases hconn : st.connections[i]? with _ | conn
  · rw [hconn] at h
    cases h
  · rw [hconn] at h
    refine ⟨conn, rfl, ?_⟩
    dsimp only at h
    rcases hsend : conn.send channelSize (data, to') with _ | conn'
    · rw [hsend] at h
      cases h
      exact .inl ⟨rfl, rfl⟩
    · rw [hsend] at h
      cases h
      refine .inr ⟨conn', rfl, ?_⟩
      obtain ⟨_, _, hconn'⟩ := UdpConnection.send_eq_some hsend
      refine ⟨hconn, rfl, by rw [hconn'], rfl, by simp, (List.append_nil _).symm, ?_, rfl, rfl,
        rfl⟩
      intro hconnected
      rw [List.append_nil]
      exact hconnected.send (d := ⟨from', to', data, some i⟩) hsend

/-- What is dropped is in nobody's account. -/
theorem Inv.dropped {st : State} (inv : Inv st) (from' to' : SocketAddr) (data : Bytes) :
    Inv { st with arrivals := st.arrivals ++ [⟨from', to', data, none⟩] } := by
  refine ⟨?_, ?_, inv.outgoing, inv.cached, inv.offers.frame rfl rfl⟩
  · intro j cj hj
    change Connected ((st.arrivals ++ [_]).filter _) (ofConnection j st.outgoing) cj
    have hnone : [(⟨from', to', data, none⟩ : Arrival)].filter
        (fun d => d.connection = some j) = [] := by simp
    rw [List.filter_append, hnone, List.append_nil]
    exact inv.connected j cj hj
  · intro d hd j hj
    rcases List.mem_append.mp hd with hold | hnew
    · exact inv.arrivals d hold j hj
    · rw [List.mem_singleton.mp hnew] at hj
      cases hj

/-- What a step does that receives no datagram: the connections stay as they are, or one of
them changes. -/
theorem step_cases {channelSize : ℕ} {st st' : State} {event : Event} (inv : Inv st)
    (h : step channelSize st event = some st')
    (hevent : ∀ from' to' data, event ≠ .recv from' to' data) :
    (SameConnections st st' ∧ Offers st') ∨
      ∃ i conn conn' new, Changes st st' i conn conn' [] new := by
  unfold ForwardUdp.step at h
  split at h
  · cases h
  · cases event with
    | recv from' to' data => exact absurd rfl (hevent from' to' data)
    | recvError e =>
        cases h
        exact .inl ⟨⟨rfl, rfl, rfl, fun _ hentry => by cases hentry⟩, inv.offers.frame rfl rfl⟩
    | takeBack => exact .inl (inv.offers.takeBack h).symm
    | sendBack answer => exact .inl (inv.offers.sendBack h).symm
    | evict i =>
        dsimp only at h
        split at h
        · cases h
          exact .inl ⟨⟨rfl, rfl, rfl, fun _ hentry => List.mem_of_mem_filter hentry⟩,
            inv.offers.frame rfl rfl⟩
        · cases h
    | bind i answer =>
        dsimp only at h
        unfold State.bind at h
        rcases hconn : st.connections[i]? with _ | conn
        · rw [hconn] at h
          cases h
        · rw [hconn] at h
          dsimp only at h
          split at h
          · cases h
            exact .inr ⟨i, conn, _, [], changes_phase hconn _⟩
          · cases h
    | relay i loop dir answers socket =>
        dsimp only at h
        unfold State.relay at h
        rcases hconn : st.connections[i]? with _ | conn
        · rw [hconn] at h
          cases h
        · rw [hconn] at h
          dsimp only at h
          split at h
          · obtain ⟨⟨⟨back, replies⟩, task⟩, hstep, heq⟩ := Option.map_eq_some_iff.mp h
            cases heq
            obtain ⟨new, hreplies, hto, hconnected⟩ :=
              (inv.connected i conn hconn).step hstep
                (if task.ended.isSome then .ended else .relaying)
            refine .inr ⟨i, conn, _, new, hconn, rfl, hto, (List.append_nil _).symm, by simp,
              ?_, fun _ => ?_, rfl, rfl, rfl⟩
            · show st.taken ++ replies = st.taken ++ st.recvBack ++ _
              rw [hreplies, List.append_assoc]
            · rw [List.append_nil]
              exact hconnected
          · cases h
    | abort i =>
        dsimp only at h
        unfold State.abort at h
        rcases hconn : st.connections[i]? with _ | conn
        · rw [hconn] at h
          cases h
        · rw [hconn] at h
          dsimp only at h
          split at h
          · cases h
          · cases h
            exact .inr ⟨i, conn, _, [], changes_phase hconn _⟩

/-- **What happens to a datagram.**  It is offered to the connection that the cache has for
its source, or to a new one. -/
theorem recv_cases {channelSize : ℕ} {st st' : State} {from' to' : SocketAddr} {data : Bytes}
    (h : step channelSize st (.recv from' to' data) = some st') :
    ∃ st₁ i, st.get from' = some (st₁, i) ∧
      st₁.forward channelSize i from' to' data = some st' := by
  unfold ForwardUdp.step at h
  split at h
  · cases h
  · dsimp only at h
    unfold State.recvPacket at h
    split at h
    · obtain ⟨⟨st₁, i⟩, hget, hforward⟩ := Option.bind_eq_some_iff.mp h
      exact ⟨st₁, i, hget, hforward⟩
    · cases h

/-- **The step lemma of the forwarder.** -/
theorem Inv.step {channelSize : ℕ} {st st' : State} {event : Event} (inv : Inv st)
    (h : step channelSize st event = some st') : Inv st' := by
  by_cases hrecv : ∃ from' to' data, event = .recv from' to' data
  · obtain ⟨from', to', data, rfl⟩ := hrecv
    obtain ⟨st₁, i, hget, hforward⟩ := recv_cases h
    have inv₁ := (inv.get hget).1
    obtain ⟨conn, _, ⟨_, rfl⟩ | ⟨conn', _, changes⟩⟩ := forward_cases hforward
    · exact inv₁.dropped from' to' data
    · exact inv₁.update changes
  · push Not at hrecv
    rcases step_cases inv h hrecv with ⟨same, offers⟩ | ⟨i, conn, conn', new, changes⟩
    · exact inv.frame same offers
    · exact inv.update changes

theorem inv_of_reachable {channelSize : ℕ} {st : State}
    (reach : (system channelSize).Reachable st) : Inv st :=
  System.Reachable.invariant inv_new (fun _ _ _ inv h => inv.step h) reach

/-! ## Sources -/

/-- The sources of the connections. -/
def State.sources (st : State) : List SocketAddr :=
  st.connections.map fun conn => conn.back.to'

theorem State.sources_of_connection {st : State} {i : ℕ} {conn : UdpConnection}
    (h : st.connections[i]? = some conn) : st.sources[i]? = some conn.back.to' := by
  unfold State.sources
  rw [List.getElem?_map, h]
  rfl

theorem Changes.sources {st st' : State} {i : ℕ} {conn conn' : UdpConnection}
    {arrived : List Arrival} {new : List UdpPacket}
    (changes : Changes st st' i conn conn' arrived new) : st'.sources = st.sources := by
  unfold State.sources
  rw [changes.after]
  refine List.ext_getElem? fun j => ?_
  rw [List.getElem?_map, List.getElem?_map]
  by_cases hij : i = j
  · subst hij
    rw [List.getElem?_set_self (List.getElem?_eq_some_iff.mp changes.before).1, changes.before]
    exact congrArg some changes.to'
  · rw [List.getElem?_set_ne hij]

/-- Every datagram was taken by a connection of its source. -/
def Own (st : State) : Prop :=
  ∀ d ∈ st.arrivals, ∀ i, d.connection = some i → st.sources[i]? = some d.from'

theorem Own.mono {st st' : State} (own : Own st) (hsources : st.sources <+: st'.sources)
    (harrivals : st'.arrivals = st.arrivals) : Own st' := by
  intro d hd i hi
  rw [harrivals] at hd
  have hsome := own d hd i hi
  obtain ⟨later, hlater⟩ := hsources
  rw [← hlater, List.getElem?_append_left (List.getElem?_eq_some_iff.mp hsome).1, hsome]

theorem Own.get {st st' : State} (inv : Inv st) (own : Own st) {from' : SocketAddr} {i : ℕ}
    (h : st.get from' = some (st', i)) : Own st' ∧ st'.sources[i]? = some from' := by
  obtain ⟨_, harrivals, conn, hconn, hto, _, hwhich⟩ := inv.get h
  refine ⟨?_, hto ▸ State.sources_of_connection hconn⟩
  rcases hwhich with ⟨rfl, _⟩ | ⟨hnone, rfl, rfl⟩
  · exact own
  · refine own.mono ?_ harrivals
    unfold State.get at h
    rw [hnone] at h
    dsimp only at h
    split at h
    · cases h
      unfold State.sources
      rw [List.map_append]
      exact List.prefix_append _ _
    · cases h

theorem Own.step {channelSize : ℕ} {st st' : State} {event : Event} (inv : Inv st)
    (own : Own st) (h : step channelSize st event = some st') : Own st' := by
  by_cases hrecv : ∃ from' to' data, event = .recv from' to' data
  · obtain ⟨from', to', data, rfl⟩ := hrecv
    obtain ⟨st₁, i, hget, hforward⟩ := recv_cases h
    obtain ⟨own₁, hsource⟩ := own.get inv hget
    obtain ⟨conn, _, ⟨_, rfl⟩ | ⟨conn', _, changes⟩⟩ := forward_cases hforward
    · intro d hd j hj
      rcases List.mem_append.mp hd with hold | hnew
      · exact own₁ d hold j hj
      · rw [List.mem_singleton.mp hnew] at hj
        cases hj
    · intro d hd j hj
      rw [changes.arrivals] at hd
      rw [changes.sources]
      rcases List.mem_append.mp hd with hold | hnew
      · exact own₁ d hold j hj
      · rw [List.mem_singleton.mp hnew] at hj ⊢
        cases hj
        exact hsource
  · push Not at hrecv
    rcases step_cases inv h hrecv with ⟨same, _⟩ | ⟨i, conn, conn', new, changes⟩
    · refine own.mono ?_ same.arrivals
      unfold State.sources
      rw [same.connections]
    · refine own.mono ?_ ?_
      · rw [changes.sources]
      · rw [changes.arrivals, List.append_nil]

/-! ## Order -/

/-- What a run of the forwarder is like. -/
structure Orderly (st : State) : Prop where
  /-- What a connection has handed to its socket are datagrams of its source, in the order of
  their arrival and each once, with their targets; no two connections hand on the same one. -/
  datagrams : ∀ (i : ℕ) (conn : UdpConnection), st.connections[i]? = some conn →
    ∃ handed : List Arrival, handed.Sublist (st.arrivals.filter fun d => d.from' = conn.back.to') ∧
    (∀ d ∈ handed, d.connection = some i) ∧
    conn.task.sent .sendTo = handed.map Arrival.relayed
  /-- The replies delivered for a connection are those it has received, in order and each
  once, from where they came and to the source. -/
  replies : ∀ (i : ℕ) (conn : UdpConnection), st.connections[i]? = some conn →
    (ofConnection i st.delivered).map UdpPacket.received <+: conn.task.received .recvFrom ∧
    ∀ p ∈ ofConnection i st.delivered, p.to' = conn.back.to'
  /-- Every reply that was delivered is one of a connection. -/
  known : ∀ reply ∈ st.delivered, reply.1 < st.connections.length
  /-- A reply is offered until it is accepted, before the next one is taken. -/
  retried : st.log.IsChain Follows

/-- What was taken and delivered was put into the shared channel. -/
theorem Inv.delivered_prefix {st : State} (inv : Inv st) : st.delivered <+: st.outgoing := by
  unfold State.outgoing
  rw [inv.offers.taken, List.append_assoc]
  exact List.prefix_append _ _

theorem ofConnection_prefix {i : ℕ} {replies later : List Reply} (h : replies <+: later) :
    ofConnection i replies <+: ofConnection i later := by
  obtain ⟨rest, rfl⟩ := h
  rw [ofConnection_append]
  exact List.prefix_append _ _

/-- What a connection has handed on is the beginning of what it has taken. -/
theorem Connected.handed {accepted : List Arrival} {outgoing : List UdpPacket}
    {conn : UdpConnection} (h : Connected accepted outgoing conn) :
    ∃ handed, handed <+: accepted ∧ conn.task.sent .sendTo = handed.map Arrival.relayed := by
  obtain ⟨pulled, waiting, rfl, hreceived, _⟩ := h.pulled
  have hprefix : conn.task.sent .sendTo <+: pulled.map Arrival.relayed := by
    rw [← hreceived, h.running.balance]
    exact List.prefix_append _ _
  obtain ⟨handed, hhanded, hsent⟩ := List.prefix_map_iff.mp hprefix
  exact ⟨handed, hhanded.trans (List.prefix_append _ _), hsent⟩

/-- **Isolation and order.**  Every connection hands on a subsequence of the datagrams of its
source, and its replies are delivered to that source in order, each offered until it is
accepted. -/
theorem forwarded_inOrder (channelSize : ℕ) (st : State)
    (reach : (system channelSize).Reachable st) : Orderly st := by
  obtain ⟨inv, own⟩ : Inv st ∧ Own st := by
    refine System.Reachable.invariant (P := fun st => Inv st ∧ Own st)
      ⟨inv_new, fun d hd => by cases hd⟩ ?_ reach
    rintro st event st' ⟨inv, own⟩ h
    exact ⟨inv.step h, own.step inv h⟩
  refine ⟨?_, ?_, ?_, inv.offers.chain⟩
  · intro i conn hconn
    obtain ⟨handed, hprefix, hsent⟩ := (inv.connected i conn hconn).handed
    -- what the connection has taken is from its source
    have haccepted : st.accepted i =
        (st.arrivals.filter fun d => d.from' = conn.back.to').filter
          fun d => d.connection = some i := by
      unfold State.accepted
      rw [List.filter_filter]
      refine List.filter_congr fun d hd => ?_
      by_cases hi : d.connection = some i
      · have hsource := own d hd i hi
        rw [State.sources_of_connection hconn] at hsource
        simp [hi, (Option.some.inj hsource)]
      · simp [hi]
    refine ⟨handed, ?_, ?_, hsent⟩
    · rw [haccepted] at hprefix
      exact hprefix.sublist.trans List.filter_sublist
    · intro d hd
      have hmem := hprefix.subset hd
      simpa using (List.mem_filter.mp hmem).2
  · intro i conn hconn
    have hconnected := inv.connected i conn hconn
    have hdelivered := ofConnection_prefix (i := i) inv.delivered_prefix
    obtain ⟨pending, houtgoing, hpending, _⟩ := hconnected.pushed
    refine ⟨(hdelivered.map _).trans ?_, fun p hp => hconnected.addressed p
      (hdelivered.subset hp)⟩
    rw [houtgoing, hconnected.running.balance]
    exact (List.prefix_append_right_inj _).mpr hpending
  · intro reply hreply
    exact inv.outgoing reply (inv.delivered_prefix.subset hreply)

/-- Channels that are ready, and a socket that accepts everything and has nothing. -/
def readyAnswers : BackAnswers := ⟨true, true, .ready (.ok ())⟩

def acceptingSocket : SocketAnswers := ⟨.ready (.ok 1), .pending⟩

/-- Two IPv6 sources that differ in their scope only, each with a connection of its own; the
second one gets an answer, and the offer of the answer has to be repeated. -/
def twoScopes : List Event :=
  [.recv (.v6 1 5000 0 1) (.v4 8 53) [1], .recv (.v6 1 5000 0 2) (.v4 8 53) [2],
    .bind 1 (.ok ()), .bind 0 (.ok ()),
    .relay 1 .fill .sendTo readyAnswers acceptingSocket,
    .relay 0 .fill .sendTo readyAnswers acceptingSocket,
    .relay 1 .drain .sendTo readyAnswers acceptingSocket,
    .relay 0 .drain .sendTo readyAnswers acceptingSocket,
    .relay 1 .fill .recvFrom readyAnswers ⟨.pending, .ready (.ok ([9], .v4 8 53))⟩,
    .relay 1 .drain .recvFrom readyAnswers acceptingSocket,
    .takeBack, .sendBack .pending, .sendBack (.ready (.ok ()))]

theorem forwarded_inOrder_twoScopes :
    ∃ st, (system 128).Reachable st ∧
      st.connections.map (fun conn => (conn.back.to', conn.task.sent .sendTo)) =
        [(.v6 1 5000 0 1, [([1], .socketAddr (.v4 8 53))]),
          (.v6 1 5000 0 2, [([2], .socketAddr (.v4 8 53))])] ∧
      st.delivered = [(1, ⟨.v4 8 53, .v6 1 5000 0 2, [9]⟩)] ∧ Orderly st := by
  have hrun : ((system 128).run twoScopes).map (fun st =>
      st.connections.map fun conn => (conn.back.to', conn.task.sent .sendTo)) =
      some [(.v6 1 5000 0 1, [([1], .socketAddr (.v4 8 53))]),
        (.v6 1 5000 0 2, [([2], .socketAddr (.v4 8 53))])] := by decide +kernel
  have hback : ((system 128).run twoScopes).map State.delivered =
      some [(1, ⟨.v4 8 53, .v6 1 5000 0 2, [9]⟩)] := by decide +kernel
  obtain ⟨st, hst, hsent⟩ := Option.map_eq_some_iff.mp hrun
  rw [hst] at hback
  have hdelivered := Option.some.inj hback
  have reach := System.reachable_of_run _ _ hst
  exact ⟨st, reach, hsent, hdelivered, forwarded_inOrder 128 st reach⟩

/-! ## Payloads -/

/-- **Payloads are handed on whole if and only if they fit** the buffers of the relay, which
are smaller than the receive buffer. -/
theorem handed_whole_iff {channelSize : ℕ} {st : State}
    (reach : (system channelSize).Reachable st) {i : ℕ} {conn : UdpConnection}
    (hconn : st.connections[i]? = some conn) {k : ℕ} {payload : Bytes} {addr : Address}
    (hsent : (conn.task.sent .sendTo)[k]? = some (payload, addr)) :
    ∃ d, (st.accepted i)[k]? = some d ∧ addr = .socketAddr d.to' ∧
      (payload = d.data ↔ d.data.length ≤ UdpRelay.udpBufferSize) := by
  obtain ⟨handed, hprefix, heq⟩ :=
    ((inv_of_reachable reach).connected i conn hconn).handed
  rw [heq, List.getElem?_map, Option.map_eq_some_iff] at hsent
  obtain ⟨d, hd, hrelayed⟩ := hsent
  obtain ⟨hpayload, haddr⟩ := Prod.mk.inj hrelayed
  have hk := (List.getElem?_eq_some_iff.mp hd).1
  refine ⟨d, ?_, haddr.symm, ?_⟩
  · obtain ⟨rest, hrest⟩ := hprefix
    rw [← hrest, List.getElem?_append_left hk, hd]
  · rw [← hpayload, List.take_eq_self_iff]

/-- A datagram that is handed on at once. -/
def oneDatagram (data : Bytes) : List Event :=
  [.recv (.v4 1 5000) (.v4 8 53) data, .bind 0 (.ok ()),
    .relay 0 .fill .sendTo readyAnswers acceptingSocket,
    .relay 0 .drain .sendTo readyAnswers acceptingSocket]

theorem handed_whole_short : ∃ st conn, (system 128).Reachable st ∧
    st.connections[0]? = some conn ∧
    ∃ d, (st.accepted 0)[0]? = some d ∧
      (([1, 2, 3] : Bytes) = d.data ↔ d.data.length ≤ UdpRelay.udpBufferSize) := by
  have hrun : ((system 128).run (oneDatagram [1, 2, 3])).map (fun st =>
      st.connections[0]?.map fun conn => (conn.task.sent .sendTo)[0]?) =
      some (some (some ([1, 2, 3], .socketAddr (.v4 8 53)))) := by decide +kernel
  obtain ⟨st, hst, hview⟩ := Option.map_eq_some_iff.mp hrun
  obtain ⟨conn, hconn, hsent⟩ := Option.map_eq_some_iff.mp hview
  have reach := System.reachable_of_run _ _ hst
  obtain ⟨d, hd, _, hiff⟩ := handed_whole_iff reach hconn hsent
  exact ⟨st, conn, reach, hconn, d, hd, hiff⟩

/-- A datagram that is one byte longer than the buffers of the relay loses its last byte,
although the receive buffer has room for it. -/
theorem long_payload_truncated : ∃ st conn d payload, (system 128).Reachable st ∧
    st.connections[0]? = some conn ∧ (st.accepted 0)[0]? = some d ∧
    d.data.length = 2049 ∧ d.data.length ≤ recvBufferSize ∧
    (conn.task.sent .sendTo)[0]? = some (payload, .socketAddr d.to') ∧
    payload ≠ d.data := by
  have hrun : ((system 128).run (oneDatagram (List.replicate 2049 7))).map (fun st =>
      ((st.accepted 0)[0]?.map fun d => (d.data.length, d.to'),
        st.connections[0]?.map fun conn =>
          (conn.task.sent .sendTo)[0]?.map fun packet => (packet.1.length, packet.2))) =
      some (some (2049, .v4 8 53), some (some (2048, .socketAddr (.v4 8 53)))) := by
    decide +kernel
  obtain ⟨st, hst, hview⟩ := Option.map_eq_some_iff.mp hrun
  obtain ⟨harrival, hconnection⟩ := Prod.mk.inj hview
  obtain ⟨d, hd, hpair⟩ := Option.map_eq_some_iff.mp harrival
  obtain ⟨hlength, hto⟩ := Prod.mk.inj hpair
  obtain ⟨conn, hconn, hpacket⟩ := Option.map_eq_some_iff.mp hconnection
  obtain ⟨⟨payload, addr⟩, hsent, hcut⟩ := Option.map_eq_some_iff.mp hpacket
  obtain ⟨hshort, haddr⟩ := Prod.mk.inj hcut
  refine ⟨st, conn, d, payload, System.reachable_of_run _ _ hst, hconn, hd, hlength, ?_, ?_, ?_⟩
  · rw [hlength]
    decide
  · rw [hsent, hto]
    exact congrArg (fun addr => some (payload, addr)) haddr
  · rintro rfl
    exact absurd (hlength.symm.trans hshort) (by decide)

/-! ## Dropped datagrams -/

/-- The datagram is taken by a running connection of its source, the one that the cache has
afterwards; or it is dropped because the queue of this connection is full. -/
def DroppedOnlyIfFull (channelSize : ℕ) (st st' : State) (from' to' : SocketAddr)
    (data : Bytes) : Prop :=
  ∃ i conn, st'.find from' = some i ∧ st'.connections[i]? = some conn ∧
    conn.back.to' = from' ∧ conn.phase ≠ .ended ∧
    (st'.arrivals = st.arrivals ++ [⟨from', to', data, some i⟩] ∨
      (st'.arrivals = st.arrivals ++ [⟨from', to', data, none⟩] ∧
        channelSize ≤ conn.back.queue.length))

/-- What `get` answers, the cache finds. -/
theorem find_of_get {st st' : State} {from' : SocketAddr} {i : ℕ}
    (h : st.get from' = some (st', i)) : st'.find from' = some i := by
  unfold State.get at h
  rcases hfind : st.find from' with _ | k
  · rw [hfind] at h
    dsimp only at h
    split at h
    · cases h
      unfold State.find
      rw [List.find?_cons_of_pos (by simp [SocketAddr.cmp_self])]
      rfl
    · cases h
  · rw [hfind] at h
    cases h
    exact hfind

/-- **Datagrams are only dropped at full queues if and only if** the connection that the
cache has for the source, if any, has not ended. -/
theorem drop_only_if_full_iff {channelSize : ℕ} {st st' : State} {from' to' : SocketAddr}
    {data : Bytes} (reach : (system channelSize).Reachable st)
    (h : step channelSize st (.recv from' to' data) = some st') :
    DroppedOnlyIfFull channelSize st st' from' to' data ↔
      ∀ i conn, st.find from' = some i → st.connections[i]? = some conn →
        conn.phase ≠ .ended := by
  obtain ⟨st₁, i, hget, hforward⟩ := recv_cases h
  obtain ⟨_, harrivals, conn₁, hconn₁, hsource, _, hwhich⟩ := (inv_of_reachable reach).get hget
  obtain ⟨conn, hconn, hsend⟩ := forward_cases hforward
  obtain rfl := Option.some.inj (hconn₁.symm.trans hconn)
  have hfind₁ := find_of_get hget
  -- the connection afterwards, and what has become of the datagram
  obtain ⟨conn', hfind', hconn', hto, hphase, hfate⟩ : ∃ conn', st'.find from' = some i ∧
      st'.connections[i]? = some conn' ∧ conn'.back.to' = conn₁.back.to' ∧
      conn'.phase = conn₁.phase ∧
      ((st'.arrivals = st.arrivals ++ [⟨from', to', data, none⟩] ∧ conn' = conn₁ ∧
          (conn₁.phase = .ended ∨ channelSize ≤ conn₁.back.queue.length)) ∨
        (st'.arrivals = st.arrivals ++ [⟨from', to', data, some i⟩])) := by
    rcases hsend with ⟨hnone, rfl⟩ | ⟨conn', hsome, changes⟩
    · refine ⟨conn₁, hfind₁, hconn₁, rfl, rfl, .inl ⟨by rw [← harrivals], rfl, ?_⟩⟩
      unfold UdpConnection.send at hnone
      split at hnone
      · assumption
      · cases hnone
    · obtain ⟨_, _, heq⟩ := UdpConnection.send_eq_some hsome
      refine ⟨conn', ?_, ?_, changes.to', by rw [heq], .inr ?_⟩
      · unfold State.find
        rw [changes.cache]
        exact hfind₁
      · rw [changes.after]
        exact List.getElem?_set_self (List.getElem?_eq_some_iff.mp hconn₁).1
      · rw [changes.arrivals, harrivals]
  constructor
  · rintro ⟨j, conn, hfind, hconn, _, hrunning, _⟩ k old hold hkold
    obtain rfl := Option.some.inj (hfind'.symm.trans hfind)
    obtain rfl := Option.some.inj (hconn'.symm.trans hconn)
    rcases hwhich with ⟨rfl, hfound⟩ | ⟨hnone, _, _⟩
    · obtain rfl := Option.some.inj (hfound.symm.trans hold)
      obtain rfl := Option.some.inj (hconn₁.symm.trans hkold)
      exact hphase ▸ hrunning
    · rw [hnone] at hold
      cases hold
  · intro hown
    have hrunning : conn₁.phase ≠ .ended := by
      rcases hwhich with ⟨rfl, hfound⟩ | ⟨_, _, rfl⟩
      · exact hown i conn₁ hfound hconn₁
      · simp [UdpConnection.new]
    refine ⟨i, conn', hfind', hconn', hto.trans hsource, hphase ▸ hrunning, ?_⟩
    rcases hfate with ⟨hdropped, rfl, hended | hfull⟩ | htaken
    · exact absurd hended hrunning
    · exact .inr ⟨hdropped, hfull⟩
    · exact .inl htaken

/-- A running connection whose queue has room for one datagram only. -/
def fullQueue : List Event :=
  [.recv (.v4 1 5000) (.v4 8 53) [1], .bind 0 (.ok ()),
    .relay 0 .fill .sendTo readyAnswers acceptingSocket, .recv (.v4 1 5000) (.v4 8 53) [2]]

/-- The next datagram is dropped, because the queue is full. -/
theorem drop_only_if_full_third : ∃ st st' conn, (system 1).Reachable st ∧
    st.find (.v4 1 5000) = some 0 ∧ st.connections[0]? = some conn ∧ conn.phase = .relaying ∧
    step 1 st (.recv (.v4 1 5000) (.v4 8 53) [3]) = some st' ∧
    st'.arrivals.map Arrival.connection = [some 0, some 0, none] ∧
    DroppedOnlyIfFull 1 st st' (.v4 1 5000) (.v4 8 53) [3] := by
  obtain ⟨st, st', conn, hrun, hfind, hconn, hphase, hstep, harrivals⟩ :
      ∃ st st' conn, (system 1).run fullQueue = some st ∧ st.find (.v4 1 5000) = some 0 ∧
        st.connections[0]? = some conn ∧ conn.phase = .relaying ∧
        step 1 st (.recv (.v4 1 5000) (.v4 8 53) [3]) = some st' ∧
        st'.arrivals.map Arrival.connection = [some 0, some 0, none] :=
    ⟨_, _, _, rfl, rfl, rfl, rfl, rfl, rfl⟩
  have reach := System.reachable_of_run _ _ hrun
  refine ⟨st, st', conn, reach, hfind, hconn, hphase, hstep, harrivals,
    (drop_only_if_full_iff reach hstep).mpr fun i conn' hi hconn' => ?_⟩
  obtain rfl := Option.some.inj (hfind.symm.trans hi)
  obtain rfl := Option.some.inj (hconn.symm.trans hconn')
  rw [hphase]
  nofun

/-- A source whose connection could not be bound keeps sending. -/
def failedBind : List Event :=
  [.recv (.v4 1 5000) (.v4 8 53) [1], .bind 0 (.error .notEnabled),
    .recv (.v4 1 5000) (.v4 8 53) [2], .recv (.v4 1 5000) (.v4 8 53) [3]]

/-- Its datagrams are all dropped, although the queue is not full. -/
theorem dropped_by_ended_connection :
    ∃ st st' conn, (system 128).Reachable st ∧
      step 128 st (.recv (.v4 1 5000) (.v4 8 53) [4]) = some st' ∧
      st.find (.v4 1 5000) = some 0 ∧ st.connections[0]? = some conn ∧
      conn.phase = .ended ∧ conn.back.queue.length = 1 ∧
      st'.arrivals.map Arrival.connection = [some 0, none, none, none] ∧
      ¬ DroppedOnlyIfFull 128 st st' (.v4 1 5000) (.v4 8 53) [4] := by
  obtain ⟨st, st', conn, hrun, hstep, hfind, hconn, hphase, hqueue, htaken, hfind', hconn'⟩ :
      ∃ st st' conn, (system 128).run failedBind = some st ∧
        step 128 st (.recv (.v4 1 5000) (.v4 8 53) [4]) = some st' ∧
        st.find (.v4 1 5000) = some 0 ∧ st.connections[0]? = some conn ∧
        conn.phase = .ended ∧ conn.back.queue.length = 1 ∧
        st'.arrivals.map Arrival.connection = [some 0, none, none, none] ∧
        st'.find (.v4 1 5000) = some 0 ∧ st'.connections[0]? = some conn :=
    ⟨_, _, _, rfl, rfl, rfl, rfl, rfl, rfl, rfl, rfl, rfl⟩
  refine ⟨st, st', conn, System.reachable_of_run _ _ hrun, hstep, hfind, hconn, hphase, hqueue,
    htaken, ?_⟩
  rintro ⟨i, conn', hi, hconni, _, hrunning, _⟩
  obtain rfl := Option.some.inj (hfind'.symm.trans hi)
  obtain rfl := Option.some.inj (hconn'.symm.trans hconni)
  exact hrunning hphase

end RabbitDigger.ForwardUdp
