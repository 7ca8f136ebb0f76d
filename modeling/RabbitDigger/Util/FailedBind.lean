import RabbitDigger.Foundation.Polling
import RabbitDigger.Interface.Address

/-!
# The lazily bound UDP socket when it cannot be bound

`rd-std/src/util/udp_connector.rs` with **both halves**: `poll_send_to` starts the bind future
and polls it, and `poll_recv_from` waits for a permit of a semaphore that is added when the
future is over.  The connector is arbitrary here, so its future is seen through the answers
to its polls only (`Util.UdpConnector` looks at the future of the rule net).

When the future fails, `poll_send_to` adds the permit *before* `udp?` leaves with the error,
and the state stays `Binding` with a future that is over:

* the next `poll_send_to` polls the future again, which panics;
* the next `poll_recv_from` gets the permit, drops it, finds the state unchanged and goes
  round again, **as long as the semaphore gives it the permit**.

Without a permit the semaphore asks to wait.  With one it may do so too: an acquire that it holds
since an earlier call shares the budget of the task.  So what it answers then is left to the
surroundings, and after a failed bind the calls return if and only if there is no `poll_send_to`
among them and every `poll_recv_from` is asked to wait at some time (`calls_after_failed_bind`).

A permit that is dropped is released, so to acquire one changes nothing
(`Connector.recvPass`).
-/

namespace RabbitDigger.FailedBind

open Polling

/-- What the bind future, the semaphore and the bound socket are asked. -/
inductive Call where
  /-- `fut.poll_unpin(cx)` -/
  | bind
  /-- `self.semaphore.poll_acquire(cx)`, when there is a permit -/
  | acquire
  /-- `udp.poll_send_to(cx, buf, target)` -/
  | sendTo (buf : Bytes) (target : Address)
  /-- `udp.poll_recv_from(cx, buf)` -/
  | recvFrom (room : ℕ)
deriving Repr, DecidableEq

/-- The calls with their answers; a datagram never exceeds the room for it. -/
def interface : Interface where
  Call := Call
  Answer
    | .bind => Poll (Except Error Unit)
    | .acquire => Poll Unit
    | .sendTo _ _ => Poll (IoResult ℕ)
    | .recvFrom room => Poll (IoResult ({ data : Bytes // data.length ≤ room } × SocketAddr))

/-- `State`; `Idle` holds the connector until it is taken. -/
inductive State where
  | idle (connector : Bool)
  | binding (completed : Bool)
  | binded
deriving Repr, DecidableEq

/-- `UdpConnector`. -/
structure Connector where
  /-- The permits of the semaphore. -/
  permits : ℕ
  state : State
deriving Repr, DecidableEq

namespace Connector

/-- `UdpConnector::new`. -/
def new : Connector := ⟨0, .idle true⟩

/-- One pass of the loop in `poll_send_to`. -/
def sendPass (env : Environment interface) (arg : Bytes × Address)
    (x : Connector × Log interface) :
    (Connector × Log interface) × Option (Outcome (IoResult ℕ)) :=
  match x.1.state with
  | .binded =>
      ((x.1, env.record x.2 (.sendTo arg.1 arg.2)),
        some (.returned (env x.2 (.sendTo arg.1 arg.2))))
  | .binding true =>
      -- the future is polled after completion
      (x, some .panicked)
  | .binding false =>
      let log := env.record x.2 .bind
      match env x.2 .bind with
      | .pending => ((x.1, log), some (.returned .pending))
      | .ready (.error e) =>
          -- the permit is added before `udp?` leaves with the error
          ((⟨x.1.permits + 1, .binding true⟩, log),
            some (.returned (.ready (.error e.toIoError))))
      | .ready (.ok ()) => ((⟨x.1.permits + 1, .binded⟩, log), none)
  | .idle false =>
      -- `expect("connector shouldn't be None")`
      (x, some .panicked)
  | .idle true => ((⟨x.1.permits, .binding false⟩, x.2), none)

/-- `poll_send_to`, looked at after `n` passes. -/
def pollSendTo (n : ℕ) (env : Environment interface) (arg : Bytes × Address)
    (x : Connector × Log interface) : (Connector × Log interface) × Outcome (IoResult ℕ) :=
  loopN (sendPass env arg) n x

/-- What `poll_recv_from` delivers. -/
abbrev Received (room : ℕ) := { data : Bytes // data.length ≤ room } × SocketAddr

/-- One pass of the loop in `poll_recv_from`.  The permit is dropped at once, so the semaphore
is as before. -/
def recvPass (env : Environment interface) (room : ℕ) (x : Connector × Log interface) :
    (Connector × Log interface) × Option (Outcome (IoResult (Received room))) :=
  match x.1.state with
  | .binded =>
      ((x.1, env.record x.2 (.recvFrom room)), some (.returned (env x.2 (.recvFrom room))))
  | .idle _ | .binding _ =>
      if x.1.permits = 0 then (x, some (.returned .pending))
      else
        match env x.2 .acquire with
        | .pending => ((x.1, env.record x.2 .acquire), some (.returned .pending))
        | .ready () => ((x.1, env.record x.2 .acquire), none)

/-- `poll_recv_from`, looked at after `n` passes. -/
def pollRecvFrom (n : ℕ) (env : Environment interface) (room : ℕ)
    (x : Connector × Log interface) :
    (Connector × Log interface) × Outcome (IoResult (Received room)) :=
  loopN (recvPass env room) n x

end Connector

open Connector

/-- A call on the connector. -/
inductive Request where
  | sendTo (arg : Bytes × Address)
  | recvFrom (room : ℕ)
deriving Repr, DecidableEq

/-- **A call returns as it should after a failed bind**, and leaves `x'`: `poll_send_to` an
error, and `poll_recv_from` an error or "not yet". -/
inductive Returns (env : Environment interface) (x x' : Connector × Log interface) :
    Request → Prop where
  | sendTo {arg : Bytes × Address} (n : ℕ) (e : IoError) :
      pollSendTo n env arg x = (x', .returned (.ready (.error e))) → Returns env x x' (.sendTo arg)
  | recvError {room : ℕ} (n : ℕ) (e : IoError) :
      pollRecvFrom n env room x = (x', .returned (.ready (.error e))) →
      Returns env x x' (.recvFrom room)
  | recvPending {room : ℕ} (n : ℕ) :
      pollRecvFrom n env room x = (x', .returned .pending) → Returns env x x' (.recvFrom room)

/-- All of the calls do, one after the other. -/
inductive AllReturn (env : Environment interface) :
    Connector × Log interface → List Request → Prop where
  | nil (x : Connector × Log interface) : AllReturn env x []
  | cons {x x' : Connector × Log interface} {call : Request} {calls : List Request} :
      Returns env x x' call → AllReturn env x' calls → AllReturn env x (call :: calls)

/-! ## The failing call -/

/-- An answer of the bind future that is an error. -/
def failure (e : Error) : Event interface := ⟨.bind, .ready (.error e)⟩

variable {env : Environment interface} {arg : Bytes × Address} {e : Error}

/-- The future is over, and the semaphore says that there is a socket. -/
structure Stuck (c : Connector) : Prop where
  state : c.state = .binding true
  permits : c.permits ≠ 0

/-- How a call ends in which the future fails. -/
def FailsWith (e : Error) (x : Connector × Log interface) (r : Outcome (IoResult ℕ)) : Prop :=
  failure e ∈ x.2 → Stuck x.1 ∧ r = .returned (.ready (.error e.toIoError))

/-- A pass that asks something else does not record a failure of the future. -/
theorem failure_notMem_record {log : Log interface} {call : Call} (h : failure e ∉ log)
    (hne : (⟨call, env log call⟩ : Event interface) ≠ failure e) :
    failure e ∉ env.record log call := by
  show failure e ∉ log ++ [⟨call, env log call⟩]
  rw [List.mem_append, List.mem_singleton]
  rintro (hmem | heq)
  · exact h hmem
  · exact hne heq.symm

/-- What a pass does about the failure: it is left with the error, or there is none yet. -/
theorem sendPass_failsWith (x : Connector × Log interface) (h : failure e ∉ x.2) :
    Goes (fun x => failure e ∉ x.2) (FailsWith e) (sendPass env arg x) := by
  unfold sendPass
  split
  next =>
      -- the bound socket is asked, not the future
      intro hmem
      exact absurd hmem (failure_notMem_record h fun heq => by cases congrArg Sigma.fst heq)
  next => exact fun hmem => absurd hmem h
  next =>
      have hrecord : ∀ answer : Poll (Except Error Unit), env x.2 .bind = answer →
          answer ≠ .ready (.error e) → failure e ∉ env.record x.2 .bind := by
        intro answer hanswer hne
        refine failure_notMem_record h fun heq => hne ?_
        rw [← hanswer]
        exact eq_of_heq (Sigma.mk.inj heq).2
      rcases hanswer : env x.2 .bind with (e' | _) | _
      · by_cases he : e' = e
        · subst he
          exact fun _ => ⟨⟨rfl, Nat.succ_ne_zero _⟩, rfl⟩
        · exact fun hmem => absurd hmem (hrecord _ hanswer (by simp [he]))
      · exact hrecord _ hanswer nofun
      · exact fun hmem => absurd hmem (hrecord _ hanswer nofun)
  next => exact fun hmem => absurd hmem h
  next => exact h

/-- **The call in which the future fails** returns its error and leaves the connector
stuck. -/
theorem pollSendTo_failsWith (env : Environment interface) (arg : Bytes × Address) (n : ℕ)
    {x : Connector × Log interface} (h : failure e ∉ x.2) :
    FailsWith e (pollSendTo n env arg x).1 (pollSendTo n env arg x).2 :=
  loopN_rule (sendPass env arg) sendPass_failsWith (fun _ hx hmem => absurd hmem hx) n x h

/-! ## The calls after it -/

variable {x : Connector × Log interface}

/-- `poll_send_to` polls the future again and panics. -/
theorem pollSendTo_stuck (h : Stuck x.1) (arg : Bytes × Address) (n : ℕ) :
    pollSendTo (n + 1) env arg x = (x, .panicked) :=
  loopN_succ_some (by simp only [sendPass, h.state]) n

/-- A `poll_recv_from` goes round until the semaphore asks it to wait. -/
inductive Waits (env : Environment interface) : Log interface → Log interface → Prop where
  | pending {log : Log interface} : env log .acquire = .pending →
      Waits env log (env.record log .acquire)
  | again {log log' : Log interface} : env log .acquire = .ready () →
      Waits env (env.record log .acquire) log' → Waits env log log'

/-- All of the calls are of `poll_recv_from` and do, one after the other. -/
inductive AllWait (env : Environment interface) : Log interface → List Request → Prop where
  | nil (log : Log interface) : AllWait env log []
  | cons {log log' : Log interface} {room : ℕ} {calls : List Request} :
      Waits env log log' → AllWait env log' calls → AllWait env log (.recvFrom room :: calls)

/-- A pass of `poll_recv_from` asks the semaphore. -/
theorem recvPass_pending (h : Stuck x.1) (room : ℕ) (hanswer : env x.2 .acquire = .pending) :
    recvPass env room x = ((x.1, env.record x.2 .acquire), some (.returned .pending)) := by
  simp only [recvPass, h.state, if_neg h.permits, hanswer]

theorem recvPass_ready (h : Stuck x.1) (room : ℕ) (hanswer : env x.2 .acquire = .ready ()) :
    recvPass env room x = ((x.1, env.record x.2 .acquire), none) := by
  simp only [recvPass, h.state, if_neg h.permits, hanswer]

/-- **If `poll_recv_from` returns, the semaphore has asked it to wait.** -/
theorem waits_of_pollRecvFrom (h : Stuck x.1) {room n : ℕ} {x' : Connector × Log interface}
    {r : Poll (IoResult (Received room))} (hcall : pollRecvFrom n env room x = (x', .returned r)) :
    r = .pending ∧ x'.1 = x.1 ∧ Waits env x.2 x'.2 := by
  induction n generalizing x with
  | zero => cases congrArg Prod.snd hcall
  | succ n ih =>
      cases hanswer : env x.2 .acquire with
      | pending =>
          rw [pollRecvFrom, loopN_succ_some (recvPass_pending h room hanswer)] at hcall
          cases hcall
          exact ⟨rfl, rfl, .pending hanswer⟩
      | ready _ =>
          rw [pollRecvFrom, loopN_succ_none (recvPass_ready h room hanswer)] at hcall
          obtain ⟨hr, hsame, hwaits⟩ :=
            ih (x := (x.1, env.record x.2 .acquire)) ⟨h.state, h.permits⟩ hcall
          exact ⟨hr, hsame, .again hanswer hwaits⟩

/-- And then it returns. -/
theorem pollRecvFrom_of_waits {c : Connector} (h : Stuck c) (room : ℕ) {log log' : Log interface}
    (hwaits : Waits env log log') :
    ∃ n, pollRecvFrom n env room (c, log) = ((c, log'), .returned .pending) := by
  induction hwaits with
  | pending hanswer =>
      exact ⟨1, loopN_succ_some (recvPass_pending (x := (c, _)) h room hanswer) 0⟩
  | again hanswer _ ih =>
      obtain ⟨n, hn⟩ := ih
      exact ⟨n + 1, (loopN_succ_none (recvPass_ready (x := (c, _)) h room hanswer) n).trans hn⟩

/-- Which calls return. -/
theorem returns_iff (h : Stuck x.1) {x' : Connector × Log interface} {call : Request} :
    Returns env x x' call ↔ ∃ room, call = .recvFrom room ∧ x'.1 = x.1 ∧ Waits env x.2 x'.2 := by
  constructor
  · rintro (⟨n, e, hcall⟩ | ⟨n, e, hcall⟩ | ⟨n, hcall⟩)
    · cases n with
      | zero => cases congrArg Prod.snd hcall
      | succ n =>
          rw [pollSendTo_stuck h] at hcall
          cases congrArg Prod.snd hcall
    · cases (waits_of_pollRecvFrom h hcall).1
    · exact ⟨_, rfl, (waits_of_pollRecvFrom h hcall).2⟩
  · rintro ⟨room, rfl, hsame, hwaits⟩
    obtain ⟨n, hn⟩ := pollRecvFrom_of_waits h room hwaits
    exact .recvPending n (hn.trans (congrArg (fun c => ((c, x'.2), _)) hsame.symm))

/-- **Which calls all return.** -/
theorem allReturn_iff (h : Stuck x.1) {later : List Request} :
    AllReturn env x later ↔ AllWait env x.2 later := by
  constructor
  · intro hall
    induction hall with
    | nil x => exact .nil x.2
    | cons hreturns _ ih =>
        obtain ⟨room, rfl, hsame, hwaits⟩ := (returns_iff h).mp hreturns
        exact .cons hwaits (ih (hsame ▸ h))
  · intro hall
    obtain ⟨c, log⟩ := x
    change AllWait env log later at hall
    induction hall with
    | nil log => exact .nil _
    | @cons log log' room calls hwaits _ ih =>
        have hreturns : Returns env (c, log) (c, log') (.recvFrom room) :=
          (returns_iff h).mpr ⟨room, rfl, rfl, hwaits⟩
        exact .cons hreturns (ih h)

/-- **After a failed bind, which calls return.**  Whatever has happened to the connector before:
a `poll_send_to` in which the bind future fails returns the error of the future; and of the calls
that are made after it, every one returns (`poll_send_to` an error, `poll_recv_from` an error or
"not yet") exactly if all are calls of `poll_recv_from` that the semaphore asks to wait at some
time, although it has a permit. -/
theorem calls_after_failed_bind (env : Environment interface) (arg : Bytes × Address) (n : ℕ)
    (x x' : Connector × Log interface) (r : Outcome (IoResult ℕ)) (e : Error)
    (hcall : pollSendTo n env arg x = (x', r)) (hbefore : failure e ∉ x.2)
    (hfail : failure e ∈ x'.2) :
    r = .returned (.ready (.error e.toIoError)) ∧
      ∀ later : List Request, AllReturn env x' later ↔ AllWait env x'.2 later := by
  have hfails := pollSendTo_failsWith env arg n hbefore
  rw [hcall] at hfails
  obtain ⟨hstuck, hr⟩ := hfails hfail
  exact ⟨hr, fun later => allReturn_iff hstuck⟩

/-- A connector whose future fails at once, and a semaphore that gives its permit `turns`
times. -/
def refusing (turns : ℕ) : Environment interface
  | _, .bind => .ready (.error .notEnabled)
  | log, .acquire => if log.length ≤ turns then .ready () else .pending
  | _, .sendTo _ _ => .pending
  | _, .recvFrom _ => .pending

theorem calls_after_failed_bind_refusing :
    (pollSendTo 2 (refusing 1) ([1], .domain "a" 53) (.new, [])).2
        = .returned (.ready (.error Error.notEnabled.toIoError)) ∧
      AllReturn (refusing 1) (pollSendTo 2 (refusing 1) ([1], .domain "a" 53) (.new, [])).1
        [.recvFrom 2048, .recvFrom 64] := by
  have h := calls_after_failed_bind (refusing 1) ([1], .domain "a" 53) 2 (.new, []) _ _
    .notEnabled rfl List.not_mem_nil (List.mem_singleton.mpr rfl)
  exact ⟨h.1, (h.2 _).mpr (.cons (.again rfl (.pending rfl)) (.cons (.pending rfl) (.nil _)))⟩

/-- A semaphore without an acquire of an earlier call: it gives its permit each time. -/
def generous : Environment interface
  | _, .bind => .ready (.error .notEnabled)
  | _, .acquire => .ready ()
  | _, .sendTo _ _ => .pending
  | _, .recvFrom _ => .pending

theorem pollRecvFrom_generous {c : Connector} (h : Stuck c) (room n : ℕ) (log : Log interface) :
    (pollRecvFrom n generous room (c, log)).2 = .running := by
  induction n generalizing log with
  | zero => rfl
  | succ n ih =>
      rw [pollRecvFrom, loopN_succ_none (recvPass_ready (x := (c, log)) h room rfl)]
      exact ih _

/-- **After a failed bind the next `poll_send_to` panics, and the next `poll_recv_from` loops
forever.** -/
theorem later_calls_never_return :
    ∃ x : Connector × Log interface,
      pollSendTo 2 generous ([1], .domain "a" 53) (.new, [])
        = (x, .returned (.ready (.error Error.notEnabled.toIoError))) ∧
      (pollSendTo 1 generous ([2], .domain "b" 53) x).2 = .panicked ∧
      ∀ n, (pollRecvFrom n generous 2048 x).2 = .running :=
  ⟨(⟨1, .binding true⟩, [failure .notEnabled]), rfl, rfl,
    fun n => pollRecvFrom_generous ⟨rfl, Nat.one_ne_zero⟩ 2048 n _⟩

end RabbitDigger.FailedBind
