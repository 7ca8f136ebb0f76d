import RabbitDigger.Foundation.Session
import RabbitDigger.Interface.Address

/-!
# The lazily bound UDP socket

`rd-std/src/util/udp_connector.rs`, with the connector that the rule net
installs (`RuleNet::udp_bind`).  The first `poll_send_to` starts a future that
picks a rule, binds a socket and **sends the packet on it**; when that future
resolves the same `poll_send_to` goes on in state `Binded` — and sends the packet
again.

The main result says exactly what this does to a run: once the connector's own
send has been accepted, the datagrams on the wire are the acknowledged ones with
one more in front (`transmitted_binded`); so the two sequences agree if and only
if no send of the connector is ever accepted (`transmitted_eq_acknowledged_iff`).
-/

namespace RabbitDigger

open Polling

/-! ## The surroundings -/

/-- Who asks the bound socket to send: the connector's future, or
`UdpConnector::poll_send_to` itself in state `Binded`. -/
inductive Sender where
  | connector
  | socket
deriving Repr, DecidableEq

/-- What the connector and the bound socket are asked. -/
inductive ConnectorCall where
  /-- `rule.get_rule(&ctx, &target_addr)` -/
  | getRule (target : Address)
  /-- `rule_item.target.udp_bind(&mut ctx, &bind_addr)` -/
  | udpBind
  /-- `udp.poll_send_to(cx, buf, target)` on the bound socket -/
  | sendTo (sender : Sender) (buf : Bytes) (target : Address)
deriving Repr, DecidableEq

/-- The calls of the connector with their answers. -/
def connectorInterface : Interface where
  Call := ConnectorCall
  Answer
    | .getRule _ => Poll (Except Error Unit)
    | .udpBind => Poll (Except Error Unit)
    | .sendTo _ _ _ => Poll (IoResult ℕ)

/-- The datagrams that the bound socket accepted, in order. -/
def transmitted (log : Log connectorInterface) : List (Bytes × Address) :=
  log.filterMap fun
    | ⟨.sendTo _ buf target, .ready (.ok _)⟩ => some (buf, target)
    | _ => none

/-- Some send that the connector itself made was accepted. -/
def connectorSent (log : Log connectorInterface) : Bool :=
  log.any fun
    | ⟨.sendTo .connector _ _, .ready (.ok _)⟩ => true
    | _ => false

@[simp] theorem transmitted_append (log log' : Log connectorInterface) :
    transmitted (log ++ log') = transmitted log ++ transmitted log' :=
  List.filterMap_append

@[simp] theorem connectorSent_append (log log' : Log connectorInterface) :
    connectorSent (log ++ log') = (connectorSent log || connectorSent log') :=
  List.any_append

theorem connectorSent_eq_false_iff (log : Log connectorInterface) :
    connectorSent log = false ↔
      ∀ buf target n, (⟨.sendTo .connector buf target, .ready (.ok n)⟩ :
        Event connectorInterface) ∉ log := by
  unfold connectorSent
  rw [List.any_eq_false]
  constructor
  · intro h buf target n mem
    exact h _ mem rfl
  · rintro h ⟨call, answer⟩ mem
    cases call with
    | getRule | udpBind => simp
    | sendTo sender buf target =>
        cases sender with
        | socket => simp
        | connector =>
            cases answer with
            | pending => simp
            | ready result =>
                cases result with
                | error e => simp
                | ok n => exact absurd mem (h buf target n)

/-! ## The future of the connector -/

/-- Where the `async move` block of `RuleNet::udp_bind` is suspended. -/
inductive ConnectorStage where
  | matching
  | binding
  | sending
  | completed
deriving Repr, DecidableEq

/-- The future: the packet it has captured and its suspension point. -/
structure ConnectorFut where
  buf : Bytes
  target : Address
  stage : ConnectorStage
deriving Repr, DecidableEq

namespace ConnectorFut

variable (env : Environment connectorInterface) (fut : ConnectorFut)
variable (log : Log connectorInterface)

/-- `udp.send_to(&buf, &target_addr).await?; Ok(udp)`. -/
def awaitSend : (ConnectorFut × Log connectorInterface) × Poll (Except Error Unit) :=
  let call := ConnectorCall.sendTo .connector fut.buf fut.target
  let log' := env.record log call
  match env log call with
  | .pending => (({ fut with stage := .sending }, log'), .pending)
  | .ready (.error e) =>
      (({ fut with stage := .completed }, log'), .ready (.error (.io e)))
  | .ready (.ok _) => (({ fut with stage := .completed }, log'), .ready (.ok ()))

/-- `rule_item.target.udp_bind(..).await?`, and what follows. -/
def awaitBind : (ConnectorFut × Log connectorInterface) × Poll (Except Error Unit) :=
  let log' := env.record log .udpBind
  match env log .udpBind with
  | .pending => (({ fut with stage := .binding }, log'), .pending)
  | .ready (.error e) => (({ fut with stage := .completed }, log'), .ready (.error e))
  | .ready (.ok _) => awaitSend env fut log'

/-- `rule.get_rule(..).await?`, and what follows. -/
def awaitRule : (ConnectorFut × Log connectorInterface) × Poll (Except Error Unit) :=
  let call := ConnectorCall.getRule fut.target
  let log' := env.record log call
  match env log call with
  | .pending => (({ fut with stage := .matching }, log'), .pending)
  | .ready (.error e) => (({ fut with stage := .completed }, log'), .ready (.error e))
  | .ready (.ok _) => awaitBind env fut log'

/-- `Future::poll`: resumes at the suspension point; `none` is the panic of an
`async` block that is polled after completion. -/
def poll : Option
    ((ConnectorFut × Log connectorInterface) × Poll (Except Error Unit)) :=
  match fut.stage with
  | .matching => some (awaitRule env fut log)
  | .binding => some (awaitBind env fut log)
  | .sending => some (awaitSend env fut log)
  | .completed => none

end ConnectorFut

/-! ## `UdpConnector` -/

/-- `State`; `Idle` holds the connector until it is taken. -/
inductive ConnectorState where
  | idle (connector : Bool)
  | binding (fut : ConnectorFut)
  | binded
deriving Repr, DecidableEq

/-- A UdpConnector is a UdpSocket that lazily binds when first packet is about
to send. -/
structure UdpConnector where
  /-- The permits of the semaphore that receivers wait on. -/
  permits : ℕ
  state : ConnectorState
deriving Repr, DecidableEq

namespace UdpConnector

/-- `UdpConnector::new`. -/
def new : UdpConnector := ⟨0, .idle true⟩

/-- One pass of the loop in `poll_send_to`. -/
def pass (env : Environment connectorInterface) (arg : Bytes × Address)
    (x : UdpConnector × Log connectorInterface) :
    (UdpConnector × Log connectorInterface) × Option (Outcome (IoResult ℕ)) :=
  match x.1.state with
  | .binded =>
      let call := ConnectorCall.sendTo .socket arg.1 arg.2
      ((x.1, env.record x.2 call), some (.returned (env x.2 call)))
  | .binding fut =>
      match fut.poll env x.2 with
      | none => (x, some .panicked)
      | some ((fut', log), .pending) =>
          (({ x.1 with state := .binding fut' }, log), some (.returned .pending))
      | some ((fut', log), .ready (.error e)) =>
          -- the permit is added before `udp?` leaves with the error
          (({ permits := x.1.permits + 1, state := .binding fut' }, log),
            some (.returned (.ready (.error e.toIoError))))
      | some ((_, log), .ready (.ok ())) =>
          (({ permits := x.1.permits + 1, state := .binded }, log), none)
  | .idle false => (x, some .panicked)
  | .idle true =>
      (({ x.1 with state := .binding ⟨arg.1, arg.2, .matching⟩ }, x.2), none)

/-- `poll_send_to`.  The state only moves forward, so three passes are all the
loop can make. -/
def pollSendTo : Poller connectorInterface UdpConnector (Bytes × Address) (IoResult ℕ) :=
  fun env arg x => loopN (pass env arg) 3 x

/-- A run of `poll_send_to` calls. -/
abbrev Run := Session connectorInterface UdpConnector (Bytes × Address) (IoResult ℕ)

/-- The packets whose `poll_send_to` returned `Ok`, in order. -/
def acknowledged (s : Run) : List (Bytes × Address) :=
  s.served.filterMap fun call =>
    match call.result with
    | .ok _ => some call.arg
    | .error _ => none

end UdpConnector

/-! ## What the future adds to the wire -/

namespace ConnectorFut

variable (env : Environment connectorInterface) (fut : ConnectorFut)
variable (log : Log connectorInterface)

/-- What a poll of the future does to the wire: it resolves to a socket exactly
when its own send is accepted, and that send is its only datagram. -/
def Effect (fut : ConnectorFut) (log log' : Log connectorInterface) :
    Poll (Except Error Unit) → Prop
  | .ready (.ok ()) =>
      transmitted log' = transmitted log ++ [(fut.buf, fut.target)] ∧
        connectorSent log' = true
  | _ => transmitted log' = transmitted log ∧
      connectorSent log' = connectorSent log

variable {env fut log} in
/-- A call that puts nothing on the wire can be left out of the account. -/
theorem Effect.of_quiet {log₁ log' : Log connectorInterface}
    {answer : Poll (Except Error Unit)} (hwire : transmitted log₁ = transmitted log)
    (hsent : connectorSent log₁ = connectorSent log)
    (h : Effect fut log₁ log' answer) : Effect fut log log' answer := by
  unfold Effect at h ⊢
  rw [hwire, hsent] at h
  exact h

theorem awaitSend_effect :
    Effect fut log (awaitSend env fut log).1.2 (awaitSend env fut log).2 := by
  unfold awaitSend
  dsimp only [Environment.record]
  cases env log (ConnectorCall.sendTo .connector fut.buf fut.target) with
  | pending => simp [Effect, transmitted, connectorSent]
  | ready result =>
      cases result with
      | error | ok => simp [Effect, transmitted, connectorSent]

theorem awaitBind_effect :
    Effect fut log (awaitBind env fut log).1.2 (awaitBind env fut log).2 := by
  unfold awaitBind
  dsimp only [Environment.record]
  cases env log ConnectorCall.udpBind with
  | pending => simp [Effect, transmitted, connectorSent]
  | ready result =>
      cases result with
      | error e => simp [Effect, transmitted, connectorSent]
      | ok u =>
          exact Effect.of_quiet (by simp [transmitted]) (by simp [connectorSent])
            (awaitSend_effect env fut _)

theorem awaitRule_effect :
    Effect fut log (awaitRule env fut log).1.2 (awaitRule env fut log).2 := by
  unfold awaitRule
  dsimp only [Environment.record]
  cases env log (ConnectorCall.getRule fut.target) with
  | pending => simp [Effect, transmitted, connectorSent]
  | ready result =>
      cases result with
      | error e => simp [Effect, transmitted, connectorSent]
      | ok u =>
          exact Effect.of_quiet (by simp [transmitted]) (by simp [connectorSent])
            (awaitBind_effect env fut _)

variable {env fut log} in
/-- The spec of the future's `poll`. -/
theorem poll_effect {fut' : ConnectorFut} {log' : Log connectorInterface}
    {answer : Poll (Except Error Unit)}
    (h : fut.poll env log = some ((fut', log'), answer)) :
    Effect fut log log' answer := by
  unfold poll at h
  cases hstage : fut.stage with
  | matching =>
      have heffect := awaitRule_effect env fut log
      simp only [hstage, Option.some.injEq] at h
      rwa [h] at heffect
  | binding =>
      have heffect := awaitBind_effect env fut log
      simp only [hstage, Option.some.injEq] at h
      rwa [h] at heffect
  | sending =>
      have heffect := awaitSend_effect env fut log
      simp only [hstage, Option.some.injEq] at h
      rwa [h] at heffect
  | completed => simp [hstage] at h

end ConnectorFut

/-! ## The wire and the acknowledgements -/

namespace UdpConnector

/-- The invariant, with `acked` the packets acknowledged by earlier calls: until
the socket is bound nothing is on the wire and nothing is acknowledged; from then
on the wire is **one packet ahead**. -/
def Wire (past : Log connectorInterface) (acked : List (Bytes × Address))
    (x : UdpConnector × Log connectorInterface) : Prop :=
  match x.1.state with
  | .binded =>
      (∃ first, transmitted (past ++ x.2) = first :: acked) ∧
        connectorSent (past ++ x.2) = true
  | .binding _ | .idle _ =>
      transmitted (past ++ x.2) = [] ∧ connectorSent (past ++ x.2) = false ∧
        acked = []

/-- The packets acknowledged once a poll for `arg` has ended with `outcome`. -/
def ackedAfter (acked : List (Bytes × Address)) (arg : Bytes × Address) :
    Outcome (IoResult ℕ) → List (Bytes × Address)
  | .returned (.ready (.ok _)) => acked ++ [arg]
  | _ => acked

variable {env : Environment connectorInterface} {arg : Bytes × Address}
variable {past : Log connectorInterface} {acked : List (Bytes × Address)}
variable {x x' : UdpConnector × Log connectorInterface}

/-- **The step lemma.**  A pass keeps the invariant, with the packet acknowledged
if it leaves the loop with `Ok`. -/
theorem Wire.pass (wire : Wire past acked x) :
    Goes (Wire past acked) (fun x' outcome => Wire past (ackedAfter acked arg outcome) x')
      (UdpConnector.pass (env.after past) arg x) := by
  obtain ⟨⟨permits, state⟩, log⟩ := x
  cases state with
  | binded =>
      obtain ⟨⟨first, hfirst⟩, hsent⟩ := wire
      have hsent' : ∀ answer, connectorSent (past ++ (log ++
          [⟨ConnectorCall.sendTo .socket arg.1 arg.2, answer⟩])) = true := by
        intro answer
        rw [← List.append_assoc, connectorSent_append, hsent, Bool.true_or]
      refine ⟨⟨first, ?_⟩, hsent' _⟩
      dsimp only [Environment.record]
      rw [← List.append_assoc, transmitted_append, hfirst, List.cons_append]
      congr 1
      cases env.after past log (ConnectorCall.sendTo .socket arg.1 arg.2) with
      | pending => simp [transmitted, ackedAfter]
      | ready result => cases result <;> simp [transmitted, ackedAfter]
  | idle connector =>
      cases connector with
      | true | false => exact wire
  | binding fut =>
      obtain ⟨hnone, hsent, rfl⟩ := wire
      rw [transmitted_append] at hnone
      rw [connectorSent_append] at hsent
      obtain ⟨hpast, hlog⟩ := List.append_eq_nil_iff.mp hnone
      simp only [UdpConnector.pass]
      rcases hpoll : fut.poll (env.after past) log with
        _ | ⟨⟨fut', log'⟩, (e | ⟨⟨⟩⟩) | _⟩
      · simp [Goes, Wire, ackedAfter, hnone, hsent]
      · obtain ⟨hwire, hsent'⟩ := ConnectorFut.poll_effect hpoll
        simp [Goes, Wire, ackedAfter, hwire, hsent', hnone, hsent]
      · obtain ⟨hwire, hsent'⟩ := ConnectorFut.poll_effect hpoll
        refine ⟨⟨(fut.buf, fut.target), ?_⟩, ?_⟩
        · rw [transmitted_append, hpast, hwire, hlog]
          rfl
        · rw [connectorSent_append, hsent', Bool.or_true]
      · obtain ⟨hwire, hsent'⟩ := ConnectorFut.poll_effect hpoll
        simp [Goes, Wire, ackedAfter, hwire, hsent', hnone, hsent]

/-- How far the state is from `Binded`. -/
def distance (x : UdpConnector × Log connectorInterface) : ℕ :=
  match x.1.state with
  | .idle _ => 2
  | .binding _ => 1
  | .binded => 0

/-- A pass that goes round again moves the state forward. -/
theorem distance_pass (h : pass env arg x = (x', none)) :
    distance x' < distance x := by
  obtain ⟨⟨permits, state⟩, log⟩ := x
  cases state with
  | binded => simp [pass] at h
  | idle connector =>
      cases connector with
      | false => simp [pass] at h
      | true =>
          simp only [pass, Prod.mk.injEq, and_true] at h
          subst h
          simp [distance]
  | binding fut =>
      simp only [pass] at h
      rcases hpoll : fut.poll env log with _ | ⟨⟨fut', log'⟩, (_ | ⟨⟨⟩⟩) | _⟩
      · simp [hpoll] at h
      · simp [hpoll] at h
      · simp only [hpoll, Prod.mk.injEq, and_true] at h
        subst h
        simp [distance]
      · simp [hpoll] at h

/-- One poll, whatever it answers, keeps the invariant. -/
theorem Wire.pollSendTo (wire : Wire past acked x) {outcome : Outcome (IoResult ℕ)}
    (h : UdpConnector.pollSendTo (env.after past) arg x = (x', outcome)) :
    Wire past (ackedAfter acked arg outcome) x' := by
  have hdist : distance x < 3 := by
    unfold distance
    split <;> omega
  have hloop := loopN_leaves (UdpConnector.pass (env.after past) arg) (m := distance)
    (fun _ wire => Wire.pass wire) (fun _ _ _ h => distance_pass h) 3 x wire hdist
  unfold UdpConnector.pollSendTo at h
  rwa [h] at hloop

/-- The invariant holds throughout every run. -/
theorem wire_of_reach {s : Run}
    (reach : Session.Reach pollSendTo env UdpConnector.new s) :
    Wire s.past (acknowledged s) (s.state, s.current) := by
  induction reach with
  | start => exact ⟨rfl, rfl, rfl⟩
  | @call s arg _ _ ih =>
      rcases hpoll : UdpConnector.pollSendTo (env.after s.past) arg
        (s.state, s.current) with ⟨⟨state, events⟩, (result | _) | _ | _⟩
      · have hnext := ih.pollSendTo hpoll
        rw [Session.call_ready hpoll]
        simp only [Wire, Session.current, List.append_nil]
        simp only [Wire] at hnext
        cases result with
        | ok | error => simpa [acknowledged, ackedAfter] using hnext
      · rw [Session.call_pending hpoll]
        exact ih.pollSendTo hpoll
      · rw [Session.call_panicked hpoll]
        exact ih.pollSendTo hpoll
      · rw [Session.call_running hpoll]
        exact ih.pollSendTo hpoll

/-- Once the socket is bound, the wire carries one packet more than was
acknowledged. -/
theorem transmitted_binded {s : Run}
    (reach : Session.Reach pollSendTo env UdpConnector.new s)
    (hbound : s.state.state = .binded) :
    ∃ first, transmitted s.log = first :: acknowledged s := by
  have wire := wire_of_reach reach
  simp only [Wire, hbound] at wire
  exact wire.1

/-- **When the wire carries exactly what was acknowledged.**  In every run in
which a pending `poll_send_to` is repeated until it is ready, for every pattern
of answers: the datagrams transmitted on the bound socket are the packets whose
`poll_send_to` returned `Ok`, once each and in order, if and only if no send made
by the connector itself was accepted, that is, if the bind future has never
resolved to a socket. -/
theorem transmitted_eq_acknowledged_iff (env : Environment connectorInterface)
    (s : Run) (reach : Session.Reach pollSendTo env UdpConnector.new s) :
    transmitted s.log = acknowledged s ↔
      ∀ buf target n, (⟨.sendTo .connector buf target, .ready (.ok n)⟩ :
        Event connectorInterface) ∉ s.log := by
  rw [← connectorSent_eq_false_iff]
  have wire := wire_of_reach reach
  cases hstate : s.state.state with
  | binded =>
      obtain ⟨first, hfirst⟩ := transmitted_binded reach hstate
      simp only [Wire, hstate] at wire
      have hsent : connectorSent s.log = true := wire.2
      simp [hfirst, hsent]
  | binding | idle =>
      simp only [Wire, hstate] at wire
      change transmitted s.log = [] ∧ connectorSent s.log = false ∧ _ at wire
      obtain ⟨hnone, hsent, hacked⟩ := wire
      simp [hnone, hsent, hacked]

/-- A socket that is bound at once and accepts everything. -/
def eagerSocket : Environment connectorInterface := fun _ call =>
  match call with
  | .getRule _ => .ready (.ok ())
  | .udpBind => .ready (.ok ())
  | .sendTo _ buf _ => .ready (.ok buf.length)

/-- The first packet of every run against such a socket is transmitted twice. -/
theorem first_packet_sent_twice :
    ∃ s, Session.Reach pollSendTo eagerSocket UdpConnector.new s ∧
      acknowledged s = [([1], .domain "a" 53)] ∧
      transmitted s.log = [([1], .domain "a" 53), ([1], .domain "a" 53)] ∧
      transmitted s.log ≠ acknowledged s :=
  ⟨_, .call ([1], .domain "a" 53) .start (by decide), rfl, rfl, by decide⟩

/-- A bind that fails: nothing is transmitted and nothing is acknowledged. -/
theorem transmitted_eq_acknowledged_failed_bind :
    ∃ env s, Session.Reach pollSendTo env UdpConnector.new s ∧ s.log ≠ [] ∧
      transmitted s.log = acknowledged s := by
  let env : Environment connectorInterface := fun _ call =>
    match call with
    | .getRule _ => .ready (.error .notMatched)
    | .udpBind => .pending
    | .sendTo _ _ _ => .pending
  have reach : Session.Reach pollSendTo env UdpConnector.new
      ((Session.start .new).call pollSendTo env ([1], .domain "a" 53)) :=
    .call _ .start (by decide)
  refine ⟨env, _, reach, by decide, ?_⟩
  refine (transmitted_eq_acknowledged_iff env _ reach).mpr fun buf target n mem => ?_
  have hlog : ((Session.start .new : Run).call pollSendTo env
      ([1], .domain "a" 53)).log = [⟨.getRule (.domain "a" 53),
        .ready (.error .notMatched)⟩] := rfl
  rw [hlog, List.mem_singleton] at mem
  cases mem

end UdpConnector

end RabbitDigger
