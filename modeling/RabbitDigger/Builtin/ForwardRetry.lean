import RabbitDigger.Builtin.Forward
import RabbitDigger.Builtin.LocalUdp

/-!
# The attempts of the forward server

`rd-std/src/builtin/forward.rs`: both functions of `ListenUdpChannel` ask the listening socket in
a loop.  An attempt that fails is logged and **made again at once**; only a value or `Pending`
leaves the loop.  `Builtin.Forward` describes a call by the attempts of it, up to the one that
ends the loop; here the loop itself is looked at, over every behaviour of the socket, and the
calls that return are shown to be the calls described there (`pollSendTo_refines`,
`pollRecvFrom_refines`).

Nothing in the loop counts.  So a call returns **if and only if some attempt of it does not
fail** (`call_returns_iff`): a socket that answers every attempt with an error keeps the relay
inside one poll forever (`refused_forever`).  A socket of tokio answers `Pending` when the task has
spent its budget, so over such a socket a call is left, but not before that.

Whether an error can go away between two attempts is up to the socket.  The one of the local net
does not help: `Udp::poll_send_to_ready` stays in `Sending` when the kernel refuses a packet, so
that every further attempt is the same `sendto` again (`local_attempted`).
-/

namespace RabbitDigger.Forward

open Polling

/-! ## The loops -/

/-- What the channel asks of its socket. -/
inductive ListenCall where
  /-- `udp.poll_recv_from` into a buffer with room for so many bytes. -/
  | recvFrom (room : ℕ)
  | sendTo (data : Bytes) (target : Address)
deriving Repr, DecidableEq

/-- The calls of the channel with their answers. -/
def listenInterface : Interface where
  Call := ListenCall
  Answer
    | .recvFrom _ => Poll (IoResult Datagram)
    | .sendTo _ _ => Poll (IoResult ℕ)

namespace Retry

section Calls

variable (env : Environment listenInterface)

/-- An attempt of `poll_send_to`. -/
def recvAttempt (room : ℕ) (log : Log listenInterface) :
    Log listenInterface × Outcome (IoResult Datagram) :=
  (env.record log (ListenCall.recvFrom room), .returned (env log (ListenCall.recvFrom room)))

/-- An attempt of `poll_recv_from`. -/
def sendAttempt (data : Bytes) (client : SocketAddr) (log : Log listenInterface) :
    Log listenInterface × Outcome (IoResult ℕ) :=
  (env.record log (ListenCall.sendTo data (.socketAddr client)),
    .returned (env log (ListenCall.sendTo data (.socketAddr client))))

/-- `poll_send_to`, for at most `n` attempts. -/
def pollSendTo (n room : ℕ) (x : ListenUdpChannel × Log listenInterface) :
    (ListenUdpChannel × Log listenInterface) ×
      Outcome (IoResult ({ b : Bytes // b.length ≤ room } × Address)) :=
  match retry (recvAttempt env room) n x.2 with
  | (log, .returned (.ready (.ok (data, addr)))) =>
      (({ x.1 with
            client := some addr
            received := x.1.received ++ [(data, addr)] }, log),
        .returned (.ready (.ok (⟨data.take room, List.length_take_le _ _⟩, x.1.target))))
  -- no loop ends like this
  | (log, .returned (.ready (.error e))) => ((x.1, log), .returned (.ready (.error e)))
  | (log, .returned .pending) => ((x.1, log), .returned .pending)
  | (log, .panicked) => ((x.1, log), .panicked)
  | (log, .running) => ((x.1, log), .running)

/-- `poll_recv_from`, for at most `n` attempts. -/
def pollRecvFrom (n : ℕ) (data : Bytes) (_ : SocketAddr)
    (x : ListenUdpChannel × Log listenInterface) :
    (ListenUdpChannel × Log listenInterface) × Outcome (IoResult ℕ) :=
  match x.1.client with
  | some client =>
      match retry (sendAttempt env data client) n x.2 with
      | (log, .returned (.ready (.ok sent))) =>
          (({ x.1 with delivered := x.1.delivered ++ [(data, client)] }, log),
            .returned (.ready (.ok sent)))
      -- no loop ends like this
      | (log, .returned (.ready (.error e))) => ((x.1, log), .returned (.ready (.error e)))
      | (log, .returned .pending) => ((x.1, log), .returned .pending)
      | (log, .panicked) => ((x.1, log), .panicked)
      | (log, .running) => ((x.1, log), .running)
  | none => (x, .returned (.ready (.ok 0)))

end Calls

/-! ## The calls that return -/

section Refines

variable {σ α : Type} {ask : σ → Poll (IoResult α)} {next : σ → σ} {s s' : σ} {n : ℕ}

/-- An attempt that asks, and gets an answer at once. -/
def asking (ask : σ → Poll (IoResult α)) (next : σ → σ) (s : σ) : σ × Outcome (IoResult α) :=
  (next s, .returned (ask s))

/-- An answer without an error. -/
def withoutError : Poll α → Poll (IoResult α)
  | .ready a => .ready (.ok a)
  | .pending => .pending

/-- **A loop that is left has made attempts that end it**, and returns what they end with. -/
theorem attempts_of_retry {answer : Poll (IoResult α)}
    (h : retry (asking ask next) n s = (s', .returned answer)) :
    ∃ attempts : Attempts α, answer = withoutError attempts.result ∧
      ∀ j, j < attempts.answers.length →
        attempts.answers[j]? = some (ask (attempted (asking ask next) j s)) := by
  induction n generalizing s with
  | zero => cases h
  | succ n ih =>
      -- the attempts after a failed one are those of the rest of the loop
      rcases hask : ask s with (e | a) | _
      · have hpass : retryPass (asking ask next) s = (next s, none) := by
          simp [retryPass, asking, hask]
        unfold retry at h
        rw [loopN_succ_none hpass] at h
        obtain ⟨attempts, hanswer, hattempts⟩ := ih h
        refine ⟨⟨.ready (.error e) :: attempts.answers, attempts.ended⟩, hanswer, ?_⟩
        intro j hj
        cases j with
        | zero => exact congrArg some hask.symm
        | succ j => exact hattempts j (Nat.lt_of_succ_lt_succ hj)
      all_goals
        have hpass : retryPass (asking ask next) s = (next s, some (.returned (ask s))) := by
          simp [retryPass, asking, hask]
        unfold retry at h
        rw [loopN_succ_some hpass, hask] at h
        cases h
        refine ⟨⟨[ask s], by rw [hask]; rfl⟩, ?_, fun j hj => ?_⟩
        · simp [Attempts.result, withoutError, untilOk, hask]
        · cases Nat.lt_one_iff.mp hj
          rfl

end Refines

section Returns

variable {env : Environment listenInterface} {n room : ℕ} {data : Bytes} {source : SocketAddr}
variable {x x' : ListenUdpChannel × Log listenInterface}

/-- A `poll_send_to` that returns is one of `ListenUdpChannel.pollSendTo`. -/
theorem pollSendTo_refines {answer : Poll (IoResult ({ b : Bytes // b.length ≤ room } × Address))}
    (h : pollSendTo env n room x = (x', .returned answer)) :
    ∃ attempts : Attempts Datagram, ∀ sendTo : Attempts ℕ,
      x.1.pollSendTo ⟨attempts, sendTo⟩ room = (x'.1, answer) := by
  unfold pollSendTo at h
  rcases hretry : retry (recvAttempt env room) n x.2 with ⟨log, answer' | _ | _⟩
  all_goals rw [hretry] at h
  · obtain ⟨attempts, rfl, -⟩ := attempts_of_retry hretry
    refine ⟨attempts, fun sendTo => ?_⟩
    unfold ListenUdpChannel.pollSendTo
    cases hresult : attempts.result
    all_goals
      rw [hresult] at h
      cases h
      rfl
  · cases h
  · cases h

/-- A `poll_recv_from` that returns is one of `ListenUdpChannel.pollRecvFrom`. -/
theorem pollRecvFrom_refines {answer : Poll (IoResult ℕ)}
    (h : pollRecvFrom env n data source x = (x', .returned answer)) :
    ∃ attempts : Attempts ℕ, ∀ recvFrom : Attempts Datagram,
      x.1.pollRecvFrom ⟨recvFrom, attempts⟩ data source = (x'.1, answer) := by
  unfold pollRecvFrom at h
  cases hclient : x.1.client with
  | none =>
      rw [hclient] at h
      cases h
      refine ⟨⟨[.pending], rfl⟩, fun recvFrom => ?_⟩
      unfold ListenUdpChannel.pollRecvFrom
      rw [hclient]
  | some client =>
      simp only [hclient] at h
      rcases hretry : retry (sendAttempt env data client) n x.2 with ⟨log, answer' | _ | _⟩
      all_goals rw [hretry] at h
      · obtain ⟨attempts, rfl, -⟩ := attempts_of_retry hretry
        refine ⟨attempts, fun recvFrom => ?_⟩
        unfold ListenUdpChannel.pollRecvFrom
        cases hresult : attempts.result
        all_goals
          rw [hresult] at h
          cases h
          simp only [hclient]
      · cases h
      · cases h

theorem pollSendTo_returns_iff :
    (∃ answer, (pollSendTo env n room x).2 = .returned answer) ↔
      ∃ answer, (retry (recvAttempt env room) n x.2).2 = .returned answer := by
  unfold pollSendTo
  rcases retry (recvAttempt env room) n x.2 with ⟨log, ((e | ⟨data, addr⟩) | _) | _ | _⟩
  all_goals simp

theorem pollRecvFrom_returns_iff {client : SocketAddr} (hclient : x.1.client = some client) :
    (∃ answer, (pollRecvFrom env n data source x).2 = .returned answer) ↔
      ∃ answer, (retry (sendAttempt env data client) n x.2).2 = .returned answer := by
  unfold pollRecvFrom
  simp only [hclient]
  rcases retry (sendAttempt env data client) n x.2 with ⟨log, ((e | sent) | _) | _ | _⟩
  all_goals simp

theorem attempted_recv (room k : ℕ) (log : Log listenInterface) :
    attempted (recvAttempt env room) k log = env.repeated (ListenCall.recvFrom room) k log := by
  induction k generalizing log with
  | zero => rfl
  | succ k ih => exact ih _

theorem attempted_send (data : Bytes) (client : SocketAddr) (k : ℕ) (log : Log listenInterface) :
    attempted (sendAttempt env data client) k log
      = env.repeated (ListenCall.sendTo data (.socketAddr client)) k log := by
  induction k generalizing log with
  | zero => rfl
  | succ k ih => exact ih _

end Returns

/-- **A call returns if and only if some attempt of it does not fail**, for every behaviour of
the socket: `poll_send_to` if one of its `poll_recv_from`s gives a datagram or `Pending`, and
`poll_recv_from` if there is no client yet or one of its `poll_send_to`s is accepted or
pending. -/
theorem call_returns_iff (env : Environment listenInterface) (s : ListenUdpChannel)
    (log : Log listenInterface) :
    (∀ room, (∃ n answer, (pollSendTo env n room (s, log)).2 = .returned answer) ↔
      ∃ k, ∀ e, env (env.repeated (ListenCall.recvFrom room) k log) (ListenCall.recvFrom room)
        ≠ .ready (.error e)) ∧
    ∀ data source,
      (∃ n answer, (pollRecvFrom env n data source (s, log)).2 = .returned answer) ↔
        ∀ client, s.client = some client → ∃ k, ∀ e,
          env (env.repeated (ListenCall.sendTo data (.socketAddr client)) k log)
            (ListenCall.sendTo data (.socketAddr client)) ≠ .ready (.error e) := by
  constructor
  · intro room
    simp only [pollSendTo_returns_iff]
    rw [retry_returns_iff fun log => ⟨_, rfl⟩]
    refine exists_congr fun k => forall_congr' fun e => not_congr ?_
    rw [attempted_recv]
    exact ⟨Outcome.returned.inj, congrArg _⟩
  · intro data source
    cases hclient : s.client with
    | none =>
        refine iff_of_true ⟨0, .ready (.ok 0), ?_⟩ fun client h => by cases h
        unfold pollRecvFrom
        simp only [hclient]
    | some client =>
        simp only [pollRecvFrom_returns_iff (x := (s, log)) hclient]
        rw [retry_returns_iff fun log => ⟨_, rfl⟩]
        constructor
        · rintro ⟨k, hk⟩ client' h
          cases h
          refine ⟨k, fun e he => hk e ?_⟩
          rw [attempted_send]
          exact congrArg _ he
        · intro h
          obtain ⟨k, hk⟩ := h client rfl
          refine ⟨k, fun e he => hk e ?_⟩
          rw [attempted_send] at he
          exact Outcome.returned.inj he

/-! ## Over the socket of the local net -/

section Local

open LocalUdp

variable {env : Environment localUdpInterface} {data : Bytes} {client dest : SocketAddr}
variable {state : UdpState} {log : Log localUdpInterface}

/-- Where the next packet of the socket goes.  The channel sends to socket addresses only, so
its socket never waits for a lookup. -/
def heading (client : SocketAddr) : UdpState → Option SocketAddr
  | .idle => some client
  | .sending addr => some addr
  | .lookupHost _ => none

/-- `poll_send_to` goes on in `Sending`. -/
theorem enter_of_heading (hheading : heading client state = some dest) :
    enter (.socketAddr client) state = .sending dest := by
  cases state with
  | idle | sending =>
      cases hheading
      rfl
  | lookupHost fut => cases hheading

/-- A packet that the kernel refuses leaves the socket in `Sending`, to the same address. -/
theorem local_fails (hheading : heading client state = some dest) {e : IoError}
    (h : env log (LocalUdpCall.sendTo data dest) = .ready (.error e)) :
    LocalUdp.pollSendTo env (data, .socketAddr client) (state, log) =
      ((.sending dest, env.record log (LocalUdpCall.sendTo data dest)),
        .returned (.ready (.error e))) := by
  have hpass : LocalUdp.pass env data (.sending dest, log) =
      ((.sending dest, env.record log (LocalUdpCall.sendTo data dest)),
        some (.returned (.ready (.error e)))) := by
    simp only [LocalUdp.pass, h]
  unfold LocalUdp.pollSendTo pollSendToReady
  simp only [enter_of_heading hheading, loopN_succ_some hpass 2]

/-- After attempts that were all refused the socket stands where it stood. -/
theorem local_attempted (env : Environment localUdpInterface) (data : Bytes)
    (log : Log localUdpInterface) (hheading : heading client state = some dest) (k : ℕ)
    (hfails : ∀ j < k, ∃ e, env (env.repeated (LocalUdpCall.sendTo data dest) j log)
      (LocalUdpCall.sendTo data dest) = .ready (.error e)) :
    ∃ state', heading client state' = some dest ∧
      attempted (LocalUdp.pollSendTo env (data, .socketAddr client)) k (state, log)
        = (state', env.repeated (LocalUdpCall.sendTo data dest) k log) := by
  induction k generalizing state log with
  | zero => exact ⟨state, hheading, rfl⟩
  | succ k ih =>
      obtain ⟨e, he⟩ : ∃ e, env log (LocalUdpCall.sendTo data dest) = .ready (.error e) :=
        hfails 0 (Nat.succ_pos k)
      obtain ⟨state', hstate', hattempted⟩ := ih
        (env.record log (LocalUdpCall.sendTo data dest))
        (show heading client (.sending dest) = some dest from rfl)
        fun j hj => hfails (j + 1) (Nat.succ_lt_succ hj)
      refine ⟨state', hstate', ?_⟩
      unfold attempted
      rw [local_fails hheading he]
      exact hattempted

end Local

/-! ## A socket that refuses everything -/

/-- A socket that answers every attempt with an error. -/
def refusing : Environment listenInterface := fun _ call =>
  match call with
  | .recvFrom _ => .ready (.error ⟨.other, "refused"⟩)
  | .sendTo _ _ => .ready (.error ⟨.other, "refused"⟩)

/-- A kernel that refuses every packet, as for a client with port 0, until the task has spent its
budget and tokio answers `Pending`. -/
def refusingKernel (budget : ℕ) : Environment localUdpInterface := fun log call =>
  match call with
  | .pollLookup _ _ => .pending
  | .sendTo _ _ =>
      if log.length < budget then .ready (.error ⟨.invalidInput, "Invalid argument"⟩) else .pending

/-- A channel that has got a datagram from port 0. -/
def portZero : ListenUdpChannel where
  client := some (.v4 10 0)
  target := .domain "target" 53
  received := [([1], .v4 10 0)]
  delivered := []

/-- **Neither call ever returns**; and over the local net the answer to this client uses up
whatever budget there is. -/
theorem refused_forever :
    (¬ ∃ n answer, (pollSendTo refusing n 2048 (portZero, [])).2 = .returned answer) ∧
      (¬ ∃ n answer,
        (pollRecvFrom refusing n [2] (.v4 20 53) (portZero, [])).2 = .returned answer) ∧
      ∀ budget answer, (retry (LocalUdp.pollSendTo (refusingKernel budget)
        ([2], .socketAddr (.v4 10 0))) budget (.idle, [])).2 ≠ .returned answer := by
  refine ⟨?_, ?_, ?_⟩
  · rintro ⟨n, answer, h⟩
    unfold pollSendTo at h
    rw [retry_running fun k _ => ⟨_, rfl⟩] at h
    cases h
  · rintro ⟨n, answer, h⟩
    unfold pollRecvFrom at h
    simp only [portZero] at h
    rw [retry_running fun k _ => ⟨_, rfl⟩] at h
    cases h
  · intro budget answer h
    have hrefused : ∀ k < budget, refusingKernel budget ((refusingKernel budget).repeated
        (LocalUdpCall.sendTo [2] (.v4 10 0)) k []) (LocalUdpCall.sendTo [2] (.v4 10 0)) = _ :=
      fun k hk => if_pos
        (((Environment.length_repeated _ _ k []).trans (Nat.zero_add k)).trans_lt hk)
    rw [retry_running] at h
    · cases h
    · intro k hk
      obtain ⟨state, hstate, hattempted⟩ := local_attempted (refusingKernel budget) [2] []
        (show heading (.v4 10 0) .idle = _ from rfl) k fun j hj => ⟨_, hrefused j (hj.trans hk)⟩
      rw [hattempted, local_fails hstate (hrefused k hk)]
      exact ⟨_, rfl⟩

end Retry

end RabbitDigger.Forward
