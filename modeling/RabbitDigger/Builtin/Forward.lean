import RabbitDigger.Relay.Task

/-!
# The UDP path of the forward server

`rd-std/src/builtin/forward.rs`: all clients of a forward server send to one listening socket,
and the server relays between a `ListenUdpChannel` over this socket and **one upstream socket**,
through which all datagrams go to the target and all answers come back.

An answer does not say which datagram it answers.  Here every answer carries the **number of
that datagram** (`Answer.datagram`), which the code does not see; with it `Returned` says what
the server is for: an answer is delivered to the client whose datagram it answers.  The channel
has one field `client`, the sender of the last datagram, and delivers everything there.  So the
answers are returned **as long as no other client interferes** while one is awaited
(`answers_returned`), and with two clients the answer for the first one goes to the second
(`answer_delivered_to_other_client`).
-/

namespace RabbitDigger.Forward

open Polling UdpRelay Transition

/-- A datagram with its sender or its destination. -/
abbrev Datagram := Bytes × SocketAddr

/-! ## The channel -/

/-- The loop of both functions: an attempt that fails is logged and made again.  Given the
answers to the attempts, this is what the loop ends with, if it has ended. -/
def untilOk {α : Type} : List (Poll (IoResult α)) → Option (Poll α)
  | [] => none
  | .ready (.error _) :: answers => untilOk answers
  | .ready (.ok a) :: _ => some (.ready a)
  | .pending :: _ => some .pending

/-- What the socket answers to the attempts of one call, until the loop ends. -/
structure Attempts (α : Type) where
  answers : List (Poll (IoResult α))
  ended : (untilOk answers).isSome

/-- What the loop ends with. -/
def Attempts.result {α : Type} (attempts : Attempts α) : Poll α :=
  (untilOk attempts.answers).get attempts.ended

/-- What the listening socket answers. -/
structure ListenAnswers where
  recvFrom : Attempts Datagram
  sendTo : Attempts ℕ

/-- `ListenUdpChannel`; of its socket, the datagrams that were received from it and those
that were sent through it. -/
structure ListenUdpChannel where
  client : Option SocketAddr
  target : Address
  received : List Datagram
  delivered : List Datagram
deriving Repr, DecidableEq

namespace ListenUdpChannel

/-- The channel that `serve_udp` makes. -/
def new (target : Address) : ListenUdpChannel where
  client := none
  target := target
  received := []
  delivered := []

/-- `poll_send_to`. -/
def pollSendTo (answers : ListenAnswers) (room : ℕ) (s : ListenUdpChannel) :
    ListenUdpChannel × Poll (IoResult ({ b : Bytes // b.length ≤ room } × Address)) :=
  match answers.recvFrom.result with
  | .pending => (s, .pending)
  | .ready (data, addr) =>
      ({ s with
          client := some addr
          received := s.received ++ [(data, addr)] },
        -- the socket cuts off what does not fit the buffer
        .ready (.ok (⟨data.take room, List.length_take_le _ _⟩, s.target)))

/-- `poll_recv_from`, which does not look at the sender of the answer. -/
def pollRecvFrom (answers : ListenAnswers) (data : Bytes) (_ : SocketAddr)
    (s : ListenUdpChannel) : ListenUdpChannel × Poll (IoResult ℕ) :=
  match s.client with
  | some client =>
      match answers.sendTo.result with
      | .pending => (s, .pending)
      | .ready n => ({ s with delivered := s.delivered ++ [(data, client)] }, .ready (.ok n))
  | none => (s, .ready (.ok 0))

/-- The client that has sent a datagram. -/
def clientOf (s : ListenUdpChannel) (datagram : ℕ) : Option SocketAddr :=
  s.received[datagram]?.map Prod.snd

end ListenUdpChannel

/-- `IUdpChannel for ListenUdpChannel`. -/
def listenChannel : Channel ListenUdpChannel ListenAnswers where
  pollSendTo := ListenUdpChannel.pollSendTo
  pollRecvFrom := ListenUdpChannel.pollRecvFrom

/-! ## The server -/

/-- An answer of the target. -/
structure Answer where
  /-- The number of the datagram that it answers, among those that the target has got. -/
  datagram : ℕ
  data : Bytes
  source : SocketAddr
deriving Repr, DecidableEq

/-- What the upstream socket answers. -/
structure Upstream where
  sendTo : Poll (IoResult ℕ)
  recvFrom : Poll (IoResult Answer)

/-- The code does not see the number. -/
def Upstream.socket (upstream : Upstream) : SocketAnswers where
  sendTo := upstream.sendTo
  recvFrom :=
    match upstream.recvFrom with
    | .ready (.ok answer) => .ready (.ok (answer.data, answer.source))
    | .ready (.error e) => .ready (.error e)
    | .pending => .pending

/-- Only what the target has got can be answered. -/
def Upstream.possible (upstream : Upstream) (task : UdpRelay.Task) : Bool :=
  match upstream.recvFrom with
  | .ready (.ok answer) => answer.datagram < (task.sent .sendTo).length
  | _ => true

/-- The relay of a forward server, and the answers that it has received. -/
structure State where
  listen : ListenUdpChannel
  task : UdpRelay.Task
  answers : List Answer

/-- A step of the relay, with what the sockets answer in it. -/
structure Event where
  loop : Loop
  dir : Dir
  listen : ListenAnswers
  upstream : Upstream

/-- The answers, if the task has gone on to this one. -/
def State.answersAfter (st : State) (task : UdpRelay.Task) : Poll (IoResult Answer) → List Answer
  | .ready (.ok answer) =>
      if (st.task.received .recvFrom).length < (task.received .recvFrom).length then
        st.answers ++ [answer]
      else st.answers
  | _ => st.answers

def step (st : State) (e : Event) : Option State :=
  if e.upstream.possible st.task then
    (UdpRelay.Task.step listenChannel e.loop e.dir e.listen e.upstream.socket
        (st.listen, st.task)).map fun (listen, task) =>
      { listen := listen
        task := task
        answers := st.answersAfter task e.upstream.recvFrom }
  else none

/-- The relay from its beginning. -/
def system (init : State) : System State Event where
  init := init
  step := step

/-- `ForwardServer`, as far as its UDP path reads it. -/
structure ForwardServer where
  bind : Address
  target : Address
  udp : Bool
deriving Repr, DecidableEq

/-- How far `serve_udp` gets. -/
inductive Served where
  /-- It waits forever. -/
  | waiting
  | failed (e : Error)
  /-- The relay begins. -/
  | relaying (init : State)

/-- `serve_udp`, given what the binds of the two nets answer. -/
def ForwardServer.serveUdp (std : StdNet) (listenNetBind netBind : Address → Except Error Unit)
    (server : ForwardServer) : Served :=
  if !server.udp then .waiting
  else
    match listenNetBind server.bind with
    | .error e => .failed e
    | .ok () =>
        match server.target.toAnyAddrPort std with
        | .error e => .failed (.io e)
        | .ok addr =>
            match netBind addr with
            | .error e => .failed e
            | .ok () => .relaying ⟨.new server.target, .new, []⟩

/-! ## What the server is for -/

/-- **Answers are returned**: what was delivered are the first answers, in order, and each of
them went to the client whose datagram it answers. -/
def Returned (st : State) : Prop :=
  ∀ (i : ℕ) (delivered : Datagram), st.listen.delivered[i]? = some delivered →
    ∃ answer, st.answers[i]? = some answer ∧
      delivered.1 = answer.data.take udpBufferSize ∧
      st.listen.clientOf answer.datagram = some delivered.2

/-! ## Steps -/

namespace ListenUdpChannel

variable {answers : ListenAnswers}

theorem pollSendTo_ready {data : Bytes} {addr : SocketAddr}
    (h : answers.recvFrom.result = .ready (data, addr)) (room : ℕ) (s : ListenUdpChannel) :
    s.pollSendTo answers room =
      ({ s with
          client := some addr
          received := s.received ++ [(data, addr)] },
        .ready (.ok (⟨data.take room, List.length_take_le _ _⟩, s.target))) := by
  unfold pollSendTo
  rw [h]

theorem pollSendTo_pending (h : answers.recvFrom.result = .pending) (room : ℕ)
    (s : ListenUdpChannel) : s.pollSendTo answers room = (s, .pending) := by
  unfold pollSendTo
  rw [h]

/-- `poll_recv_from` waits, or the answer is gone, to the client if there is one. -/
theorem pollRecvFrom_cases (answers : ListenAnswers) (data : Bytes) (addr : SocketAddr)
    (s : ListenUdpChannel) :
    s.pollRecvFrom answers data addr = (s, .pending) ∨
      ∃ n, s.pollRecvFrom answers data addr =
        ({ s with delivered := s.delivered ++ (s.client.map (data, ·)).toList },
          .ready (.ok n)) := by
  obtain ⟨client, target, received, delivered⟩ := s
  unfold pollRecvFrom
  cases client with
  | none =>
      refine .inr ⟨0, ?_⟩
      simp
  | some client =>
      cases answers.sendTo.result with
      | pending => exact .inl rfl
      | ready n => exact .inr ⟨n, rfl⟩

end ListenUdpChannel

/-- What a step adds to what the relay has received from the clients and from the target, and
to the answers that it has handed on. -/
structure Grows (t t' : UdpRelay.Task) (datagrams answers handed : List Packet) : Prop where
  running : t'.Running
  datagrams : t'.received .sendTo = t.received .sendTo ++ datagrams
  answers : t'.received .recvFrom = t.received .recvFrom ++ answers
  handed : t'.sent .recvFrom = t.sent .recvFrom ++ handed

/-- What a step can be. -/
inductive Stepped (st : State) (e : Event) : State → Prop where
  /-- Nothing that matters here; datagrams may have been sent to the target. -/
  | waits {task : UdpRelay.Task} (grows : Grows st.task task [] [] []) :
      Stepped st e { st with task := task }
  /-- A datagram of a client is received. -/
  | receives {task : UdpRelay.Task} {data : Bytes} {addr : SocketAddr}
      (fills : e.loop = .fill ∧ e.dir = .sendTo)
      (result : e.listen.recvFrom.result = .ready (data, addr))
      (grows : Grows st.task task [(data.take udpBufferSize, st.listen.target)] [] []) :
      Stepped st e
        { st with
          listen := { st.listen with
            client := some addr
            received := st.listen.received ++ [(data, addr)] }
          task := task }
  /-- An answer is received. -/
  | answered {task : UdpRelay.Task} {answer : Answer}
      (fills : e.loop = .fill ∧ e.dir = .recvFrom)
      (result : e.upstream.recvFrom = .ready (.ok answer))
      (possible : answer.datagram < (st.task.sent .sendTo).length)
      (grows : Grows st.task task []
        [(answer.data.take udpBufferSize, .socketAddr answer.source)] []) :
      Stepped st e { st with task := task, answers := st.answers ++ [answer] }
  /-- An answer is handed on, to the client if there is one. -/
  | hands {task : UdpRelay.Task} {data : Bytes} {addr : Address} {rest : List Packet}
      (front : st.task.inFlight .recvFrom = (data, addr) :: rest)
      (grows : Grows st.task task [] [] [(data, addr)]) :
      Stepped st e
        { st with
          listen := { st.listen with
            delivered := st.listen.delivered ++ (st.listen.client.map (data, ·)).toList }
          task := task }

section Steps

variable {st st' : State} {e : Event}

/-- A call that brings nothing and hands nothing on. -/
theorem Grows.silent {t t' : UdpRelay.Task} {event : Polling.Event packetInterface}
    (running : t'.Running) (hlog : t'.log = t.log ++ [event])
    (hbrings : ∀ dir, UdpRelay.Task.brings dir event = [])
    (htakes : UdpRelay.Task.takes .recvFrom event = []) : Grows t t' [] [] [] where
  running := running
  datagrams := by rw [UdpRelay.Task.received_snoc hlog, hbrings]
  answers := by rw [UdpRelay.Task.received_snoc hlog, hbrings]
  handed := by rw [UdpRelay.Task.sent_snoc hlog, htakes]

/-- Without a new answer the answers stay. -/
theorem State.answersAfter_of_grows {task : UdpRelay.Task} {datagrams handed : List Packet}
    (grows : Grows st.task task datagrams [] handed) (result : Poll (IoResult Answer)) :
    st.answersAfter task result = st.answers := by
  have hreceived : task.received .recvFrom = st.task.received .recvFrom := by
    rw [grows.answers, List.append_nil]
  unfold State.answersAfter
  split
  · rw [hreceived, if_neg (Nat.lt_irrefl _)]
  · rfl

/-- **What a step does.** -/
theorem step_cases (running : st.task.Running) (h : step st e = some st') : Stepped st e st' := by
  unfold step at h
  split at h
  case isFalse => cases h
  rename_i hpossible
  obtain ⟨⟨listen, task⟩, hstep, rfl⟩ := Option.map_eq_some_iff.mp h
  dsimp only
  -- most steps leave the channel as it is, and bring no answer
  have hwaits : ∀ grows : Grows st.task task [] [] [], listen = st.listen →
      Stepped st e ⟨listen, task, st.answersAfter task e.upstream.recvFrom⟩ := by
    rintro grows rfl
    rw [State.answersAfter_of_grows grows]
    exact .waits grows
  obtain ⟨_, hrunning, ⟨hlisten, hlog, _⟩ | ⟨call, hcall, hlisten, hlog, _⟩⟩ :=
    UdpRelay.Task.step_cases running hstep
  · refine hwaits ⟨hrunning, ?_, ?_, ?_⟩ hlisten
    · rw [UdpRelay.Task.received_of_log hlog, List.append_nil]
    · rw [UdpRelay.Task.received_of_log hlog, List.append_nil]
    · rw [UdpRelay.Task.sent_of_log hlog, List.append_nil]
  · obtain ⟨loop, dir, answers, upstream⟩ := e
    cases loop with
    | fill =>
        cases dir with
        | sendTo =>
            cases hcall
            change listen = (st.listen.pollSendTo answers udpBufferSize).1 at hlisten
            change task.log = _ ++ [⟨.channelSendTo _,
              (st.listen.pollSendTo answers udpBufferSize).2⟩] at hlog
            rcases hresult : answers.recvFrom.result with ⟨data, addr⟩ | _
            · rw [ListenUdpChannel.pollSendTo_ready hresult] at hlisten hlog
              subst hlisten
              have grows : Grows st.task task
                  [(data.take udpBufferSize, st.listen.target)] [] [] :=
                ⟨hrunning, UdpRelay.Task.received_snoc hlog _,
                  UdpRelay.Task.received_snoc hlog _, UdpRelay.Task.sent_snoc hlog _⟩
              rw [State.answersAfter_of_grows grows]
              exact .receives ⟨rfl, rfl⟩ hresult grows
            · rw [ListenUdpChannel.pollSendTo_pending hresult] at hlisten hlog
              exact hwaits (.silent hrunning hlog (by rintro (_ | _) <;> rfl) rfl) hlisten
        | recvFrom =>
            cases hcall
            change task.log = _ ++ [⟨.socketRecvFrom _,
              upstream.socket.received udpBufferSize⟩] at hlog
            unfold SocketAnswers.received Upstream.socket at hlog
            rcases hresult : upstream.recvFrom with (error | answer) | _
            · rw [hresult] at hlog
              rw [← hresult]
              exact hwaits (.silent hrunning hlog (by rintro (_ | _) <;> rfl) rfl) hlisten
            · rw [hresult] at hlog
              subst hlisten
              have grows : Grows st.task task []
                  [(answer.data.take udpBufferSize, .socketAddr answer.source)] [] :=
                ⟨hrunning, UdpRelay.Task.received_snoc hlog _,
                  UdpRelay.Task.received_snoc hlog _, UdpRelay.Task.sent_snoc hlog _⟩
              have hlonger : (st.task.received .recvFrom).length <
                  (task.received .recvFrom).length := by
                rw [grows.answers, List.length_append]
                exact Nat.lt_succ_self _
              have hdatagram : answer.datagram < (st.task.sent .sendTo).length := by
                simpa [Upstream.possible, hresult] using hpossible
              show Stepped st _ ⟨st.listen, task, if _ then _ else _⟩
              rw [if_pos hlonger]
              exact .answered ⟨rfl, rfl⟩ hresult hdatagram grows
            · rw [hresult] at hlog
              rw [← hresult]
              exact hwaits (.silent hrunning hlog (by rintro (_ | _) <;> rfl) rfl) hlisten
    | drain =>
        cases dir with
        | sendTo =>
            obtain ⟨data, addr, rest, _, rfl⟩ := hcall
            refine hwaits (.silent hrunning hlog ?_ ?_) hlisten
            · intro dir
              exact UdpRelay.Task.brings_of_ne (by simp [UdpRelay.Task.receives]) _
            · exact UdpRelay.Task.takes_of_ne (by simp [UdpRelay.Task.handsOn]) _
        | recvFrom =>
            obtain ⟨data, addr, rest, hfront, rfl⟩ := hcall
            change listen = (st.listen.pollRecvFrom answers data addr).1 at hlisten
            change task.log = _ ++ [⟨.channelRecvFrom data addr,
              (st.listen.pollRecvFrom answers data addr).2⟩] at hlog
            rcases st.listen.pollRecvFrom_cases answers data addr with hpoll | ⟨n, hpoll⟩
            · rw [hpoll] at hlisten hlog
              exact hwaits (.silent hrunning hlog (by rintro (_ | _) <;> rfl) rfl) hlisten
            · rw [hpoll] at hlisten hlog
              subst hlisten
              have grows : Grows st.task task [] [] [(data, .socketAddr addr)] :=
                ⟨hrunning, UdpRelay.Task.received_snoc hlog _,
                  UdpRelay.Task.received_snoc hlog _, UdpRelay.Task.sent_snoc hlog _⟩
              rw [State.answersAfter_of_grows grows]
              exact .hands hfront grows

end Steps

/-! ## What holds in every run -/

/-- **The invariant**: the relay has received the datagrams of the clients and the answers of
the target, every answer is one to a datagram that a client has sent, and what was handed on
was delivered. -/
structure Inv (st : State) : Prop where
  running : st.task.Running
  datagrams : st.task.received .sendTo =
    st.listen.received.map fun d => (d.1.take udpBufferSize, st.listen.target)
  answers : st.task.received .recvFrom =
    st.answers.map fun a => (a.data.take udpBufferSize, .socketAddr a.source)
  answered : ∀ a ∈ st.answers, a.datagram < st.listen.received.length
  client : st.listen.client = st.listen.received.getLast?.map Prod.snd
  delivered : st.listen.delivered.map Prod.fst = (st.task.sent .recvFrom).map Prod.fst

theorem ForwardServer.serveUdp_relaying {server : ForwardServer} {std : StdNet}
    {listenNetBind netBind : Address → Except Error Unit} {init : State}
    (h : server.serveUdp std listenNetBind netBind = .relaying init) :
    init = ⟨.new server.target, .new, []⟩ := by
  unfold ForwardServer.serveUdp at h
  split at h
  · cases h
  · split at h
    · cases h
    · split at h
      · cases h
      · split at h
        · cases h
        · cases h
          rfl

theorem inv_new (target : Address) : Inv ⟨.new target, .new, []⟩ where
  running := UdpRelay.Task.running_new
  datagrams := rfl
  answers := rfl
  answered a h := by cases h
  client := rfl
  delivered := rfl

section Runs

variable {st st' : State} {e : Event}

theorem ListenUdpChannel.clientOf_append {s : ListenUdpChannel} {k : ℕ}
    (h : k < s.received.length) (client : Option SocketAddr) (d : Datagram) :
    ({ s with client := client, received := s.received ++ [d] } : ListenUdpChannel).clientOf k =
      s.clientOf k := by
  unfold clientOf
  rw [List.getElem?_append_left h]

theorem Inv.delivered_length (inv : Inv st) :
    st.listen.delivered.length = (st.task.sent .recvFrom).length := by
  have hlengths := congrArg List.length inv.delivered
  rwa [List.length_map, List.length_map] at hlengths

/-- No more is delivered than was received. -/
theorem Inv.delivered_le (inv : Inv st) : st.listen.delivered.length ≤ st.answers.length := by
  have hbalance := congrArg List.length (inv.running.balance .recvFrom)
  rw [inv.answers, List.length_map, List.length_append] at hbalance
  rw [inv.delivered_length]
  omega

/-- The answer at the front of the queue is the first one that was not delivered, and there
is a client to deliver it to. -/
theorem Inv.front (inv : Inv st) {data : Bytes} {addr : Address} {rest : List Packet}
    (h : st.task.inFlight .recvFrom = (data, addr) :: rest) :
    ∃ answer client, st.answers[st.listen.delivered.length]? = some answer ∧
      data = answer.data.take udpBufferSize ∧ st.listen.client = some client := by
  have hlength := inv.delivered_length
  have hbalance := inv.running.balance .recvFrom
  rw [inv.answers, h] at hbalance
  have hget := congrArg (fun packets => packets[st.listen.delivered.length]?) hbalance
  rw [List.getElem?_map, hlength, List.getElem?_append_right (Nat.le_refl _), Nat.sub_self,
    List.getElem?_cons_zero] at hget
  obtain ⟨answer, hanswer, hpacket⟩ := Option.map_eq_some_iff.mp hget
  -- a datagram was answered, so one was received
  have hpos := inv.answered answer (List.mem_of_getElem? hanswer)
  have hne : st.listen.received ≠ [] := List.ne_nil_of_length_pos (by omega)
  refine ⟨answer, (st.listen.received.getLast hne).2, ?_, (congrArg Prod.fst hpacket).symm, ?_⟩
  · rw [hlength]
    exact hanswer
  · rw [inv.client, List.getLast?_eq_some_getLast hne]
    rfl

theorem Inv.step (inv : Inv st) (h : Stepped st e st') : Inv st' := by
  cases h with
  | waits grows =>
      refine ⟨grows.running, ?_, ?_, inv.answered, inv.client, ?_⟩
      · rw [grows.datagrams, List.append_nil]
        exact inv.datagrams
      · rw [grows.answers, List.append_nil]
        exact inv.answers
      · rw [grows.handed, List.append_nil]
        exact inv.delivered
  | receives fills result grows =>
      refine ⟨grows.running, ?_, ?_, ?_, ?_, ?_⟩
      · rw [grows.datagrams, inv.datagrams, List.map_append]
        rfl
      · rw [grows.answers, List.append_nil]
        exact inv.answers
      · intro a ha
        have hold := inv.answered a ha
        simp only [List.length_append]
        omega
      · simp
      · rw [grows.handed, List.append_nil]
        exact inv.delivered
  | answered fills result possible grows =>
      refine ⟨grows.running, ?_, ?_, ?_, inv.client, ?_⟩
      · rw [grows.datagrams, List.append_nil]
        exact inv.datagrams
      · rw [grows.answers, inv.answers, List.map_append]
        rfl
      · intro a ha
        rcases List.mem_append.mp ha with hold | hnew
        · exact inv.answered a hold
        · -- what the target has got was received from a client
          rw [List.mem_singleton.mp hnew]
          have hbalance := congrArg List.length (inv.running.balance .sendTo)
          rw [inv.datagrams, List.length_map, List.length_append] at hbalance
          show _ < st.listen.received.length
          omega
      · rw [grows.handed, List.append_nil]
        exact inv.delivered
  | hands front grows =>
      obtain ⟨answer, client, _, _, hclient⟩ := inv.front front
      refine ⟨grows.running, ?_, ?_, inv.answered, inv.client, ?_⟩
      · rw [grows.datagrams, List.append_nil]
        exact inv.datagrams
      · rw [grows.answers, List.append_nil]
        exact inv.answers
      · show (st.listen.delivered ++ (st.listen.client.map _).toList).map _ = _
        rw [hclient, grows.handed, List.map_append, List.map_append, inv.delivered]
        rfl

/-! ## Runs in which no other client interferes -/

/-- An answer is received while its client is the current one, and while answers wait to be
delivered no datagram of another client is received. -/
def undisturbed (st : State) (e : Event) : Bool :=
  match e.loop, e.dir with
  | .fill, .sendTo =>
      match e.listen.recvFrom.result with
      | .ready (_, addr) =>
          st.listen.delivered.length = st.answers.length || st.listen.client = some addr
      | .pending => true
  | .fill, .recvFrom =>
      match e.upstream.recvFrom with
      | .ready (.ok answer) => st.listen.clientOf answer.datagram = st.listen.client
      | _ => true
  | .drain, _ => true

/-- The answers that were not delivered are for the current client. -/
def Awaited (st : State) : Prop :=
  ∀ answer ∈ st.answers.drop st.listen.delivered.length,
    st.listen.clientOf answer.datagram = st.listen.client

theorem Returned.step (inv : Inv st) (returned : Returned st) (awaited : Awaited st)
    (h : Stepped st e st') : Returned st' := by
  cases h with
  | waits grows => exact returned
  | receives fills result grows =>
      intro i delivered hdelivered
      obtain ⟨answer, hanswer, hdata, hclient⟩ := returned i delivered hdelivered
      refine ⟨answer, hanswer, hdata, ?_⟩
      rw [ListenUdpChannel.clientOf_append (inv.answered answer (List.mem_of_getElem? hanswer))]
      exact hclient
  | answered fills result possible grows =>
      intro i delivered hdelivered
      obtain ⟨answer, hanswer, hfits⟩ := returned i delivered hdelivered
      refine ⟨answer, ?_, hfits⟩
      obtain ⟨hlt, _⟩ := List.getElem?_eq_some_iff.mp hanswer
      rw [← hanswer]
      exact List.getElem?_append_left hlt
  | @hands task data addr rest front grows =>
      obtain ⟨answer, client, hanswer, hdata, hclient⟩ := inv.front front
      intro i delivered hdelivered
      rw [hclient] at hdelivered
      rcases Nat.lt_or_ge i st.listen.delivered.length with hlt | hge
      · exact returned i delivered ((List.getElem?_append_left hlt).symm.trans hdelivered)
      · -- the answer that is delivered now is for the current client
        obtain ⟨hlast, hvalue⟩ := List.getElem?_eq_some_iff.mp hdelivered
        have hi : i = st.listen.delivered.length := by
          simp at hlast
          omega
        subst hi
        have hnew : delivered = (data, client) := by
          rw [← hvalue]
          simp
        refine ⟨answer, hanswer, hnew ▸ hdata, ?_⟩
        have hfirst : (st.answers.drop st.listen.delivered.length)[0]? = some answer := by
          rw [List.getElem?_drop]
          exact hanswer
        rw [hnew, ← hclient]
        exact awaited answer (List.mem_of_getElem? hfirst)

theorem Awaited.step (inv : Inv st) (awaited : Awaited st) (hallowed : undisturbed st e = true)
    (h : Stepped st e st') : Awaited st' := by
  cases h with
  | waits grows => exact awaited
  | receives fills result grows =>
      intro answer hmem
      have hknown := inv.answered answer (List.mem_of_mem_drop hmem)
      rw [ListenUdpChannel.clientOf_append hknown, awaited answer hmem]
      unfold undisturbed at hallowed
      rw [fills.1, fills.2, result] at hallowed
      simp only [Bool.or_eq_true, decide_eq_true_eq] at hallowed
      rcases hallowed with hnone | hsame
      · rw [hnone, List.drop_length] at hmem
        cases hmem
      · exact hsame
  | answered fills result possible grows =>
      intro answer hmem
      rw [List.drop_append_of_le_length inv.delivered_le] at hmem
      rcases List.mem_append.mp hmem with hold | hnew
      · exact awaited answer hold
      · unfold undisturbed at hallowed
        rw [fills.1, fills.2, result] at hallowed
        rw [List.mem_singleton.mp hnew]
        simpa using hallowed
  | hands front grows =>
      intro answer hmem
      apply awaited answer
      rw [List.length_append, ← List.drop_drop] at hmem
      exact List.mem_of_mem_drop hmem

/-- **Answers are returned** in every run of the relay that `serve_udp` begins in which an
answer is received only while its client is the current one, and in which no datagram of
another client is received while answers wait to be delivered. -/
theorem answers_returned (std : StdNet) (listenNetBind netBind : Address → Except Error Unit)
    (server : ForwardServer) (init st : State)
    (hserve : server.serveUdp std listenNetBind netBind = .relaying init)
    (reach : (system init).Reach (fun st e => undisturbed st e = true) st) : Returned st := by
  have hinit := ForwardServer.serveUdp_relaying hserve
  have hall : Inv st ∧ Returned st ∧ Awaited st := by
    refine System.Reach.invariant (P := fun st => Inv st ∧ Returned st ∧ Awaited st)
      ?_ ?_ reach
    · show Inv init ∧ Returned init ∧ Awaited init
      rw [hinit]
      refine ⟨inv_new _, ?_, ?_⟩
      · intro i delivered h
        cases h
      · intro answer h
        cases h
    · rintro st e st' ⟨inv, returned, awaited⟩ hallowed hstep
      have hstepped := step_cases inv.running hstep
      exact ⟨inv.step hstepped, returned.step inv awaited hstepped,
        awaited.step inv hallowed hstepped⟩
  exact hall.2.1

end Runs

/-! ## With one client and with two -/

/-- A server for the target `8.8.8.8:53`. -/
def dnsServer : ForwardServer where
  bind := .socketAddr (.v4 0 53)
  target := .socketAddr (.v4 0x08080808 53)
  udp := true

/-- The relay of this server as it begins. -/
def dnsInit : State := ⟨.new dnsServer.target, .new, []⟩

/-- Nothing is answered. -/
def noListen : ListenAnswers := ⟨⟨[.pending], rfl⟩, ⟨[.pending], rfl⟩⟩

def noUpstream : Upstream := ⟨.pending, .pending⟩

/-- A datagram of a client is received, -/
def fromClient (data : Bytes) (client : SocketAddr) : Event :=
  ⟨.fill, .sendTo, ⟨⟨[.ready (.ok (data, client))], rfl⟩, ⟨[.pending], rfl⟩⟩, noUpstream⟩

/-- the target gets one, -/
def toTarget : Event := ⟨.drain, .sendTo, noListen, ⟨.ready (.ok 1), .pending⟩⟩

/-- an answer is received, -/
def fromTarget (datagram : ℕ) (data : Bytes) : Event :=
  ⟨.fill, .recvFrom, noListen,
    ⟨.pending, .ready (.ok ⟨datagram, data, .v4 0x08080808 53⟩)⟩⟩

/-- and it is delivered, at the second attempt. -/
def toClient : Event :=
  ⟨.drain, .recvFrom,
    ⟨⟨[.pending], rfl⟩,
      ⟨[.ready (.error { kind := .connectionRefused, message := "refused" }), .ready (.ok 1)],
        rfl⟩⟩,
    noUpstream⟩

/-- Two clients, one after the other. -/
def inTurn : List Event :=
  [fromClient [1] (.v4 1 5000), toTarget, fromTarget 0 [10], toClient,
    fromClient [2] (.v4 2 6000), toTarget, fromTarget 1 [20], toClient]

theorem answers_returned_inTurn :
    ∃ st, (system dnsInit).Reach (fun st e => undisturbed st e = true) st ∧
      st.listen.delivered = [([10], .v4 1 5000), ([20], .v4 2 6000)] ∧ Returned st := by
  have hreplay : ((system dnsInit).replay undisturbed inTurn).map
      (fun st => st.listen.delivered) = some [([10], .v4 1 5000), ([20], .v4 2 6000)] := by
    decide +kernel
  obtain ⟨st, hst, hdelivered⟩ := Option.map_eq_some_iff.mp hreplay
  have reach := System.reach_of_replay _ undisturbed inTurn hst
  exact ⟨st, reach, hdelivered,
    answers_returned ⟨fun _ => none, fun _ => none⟩ (fun _ => .ok ()) (fun _ => .ok ())
      dnsServer dnsInit st rfl reach⟩

/-- Two clients at once; the target answers both. -/
def atOnce : List Event :=
  [fromClient [1] (.v4 1 5000), fromClient [2] (.v4 2 6000), toTarget, toTarget,
    fromTarget 0 [10], fromTarget 1 [20], toClient, toClient]

/-- The answer to the datagram of the first client is delivered to the second. -/
theorem answer_delivered_to_other_client :
    ∃ st, (system dnsInit).Reachable st ∧
      st.listen.received = [([1], .v4 1 5000), ([2], .v4 2 6000)] ∧
      st.answers.map Answer.datagram = [0, 1] ∧
      st.listen.delivered = [([10], .v4 2 6000), ([20], .v4 2 6000)] ∧
      ¬ Returned st := by
  have hrun : ((system dnsInit).run atOnce).map (fun st =>
      (st.listen.received, st.answers.map Answer.datagram, st.listen.delivered)) =
      some ([([1], .v4 1 5000), ([2], .v4 2 6000)], [0, 1],
        [([10], .v4 2 6000), ([20], .v4 2 6000)]) := by
    decide +kernel
  obtain ⟨st, hst, hview⟩ := Option.map_eq_some_iff.mp hrun
  obtain ⟨hreceived, hview⟩ := Prod.mk.inj hview
  obtain ⟨hanswers, hdelivered⟩ := Prod.mk.inj hview
  refine ⟨st, System.reachable_of_run _ _ hst, hreceived, hanswers, hdelivered, ?_⟩
  intro returned
  obtain ⟨answer, hanswer, _, hclient⟩ := returned 0 _ (by rw [hdelivered]; rfl)
  have hzero : answer.datagram = 0 := by
    have hfirst := congrArg (fun answers => answers[0]?) hanswers
    rw [List.getElem?_map, hanswer] at hfirst
    exact Option.some.inj hfirst
  unfold ListenUdpChannel.clientOf at hclient
  rw [hzero, hreceived] at hclient
  exact absurd hclient (by decide)

end RabbitDigger.Forward
