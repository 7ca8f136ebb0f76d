import RabbitDigger.Foundation.Session
import RabbitDigger.Interface.Address

/-!
# The UDP socket of the local net

`rd-std/src/builtin/local.rs`: `Udp::poll_send_to` is a state machine.  From
`Idle` it takes the target of the call, looks its host up if need be, and hands
the packet to the kernel; every call is meant to start from `Idle`.

The two early returns by `?` do not go back there.  A lookup that fails leaves
`LookupHost` with a future that has completed — the next call polls it again and
panics — and a kernel send that fails leaves `Sending` with the old address — the
next call sends *its* packet there.

`faithful_iff` is the exact account: a run is as it should be (`Faithful`) if and
only if none of the answers in it is a failure (`Failure`).
-/

namespace RabbitDigger

open Polling

/-! ## The surroundings -/

/-- What the socket asks: a poll of the host lookup, a send by the kernel. -/
inductive LocalUdpCall where
  | pollLookup (domain : String) (port : UInt16)
  | sendTo (buf : Bytes) (addr : SocketAddr)
deriving Repr, DecidableEq

/-- The calls of the socket with their answers. -/
def localUdpInterface : Interface where
  Call := LocalUdpCall
  Answer
    | .pollLookup _ _ => Poll (IoResult (List SocketAddr))
    | .sendTo _ _ => Poll (IoResult ℕ)

namespace LocalUdp

/-- The datagrams the kernel accepted. -/
def accepted (events : Log localUdpInterface) : List (Bytes × SocketAddr) :=
  events.filterMap fun
    | ⟨.sendTo buf addr, .ready (.ok _)⟩ => some (buf, addr)
    | _ => none

/-- A failed answer: a lookup that errs or finds nothing, a send that errs. -/
def Failure : Event localUdpInterface → Prop
  | ⟨.pollLookup _ _, .ready (.error _)⟩ => True
  | ⟨.pollLookup _ _, .ready (.ok [])⟩ => True
  | ⟨.sendTo _ _, .ready (.error _)⟩ => True
  | _ => False

/-! ## The state machine -/

/-- The future of `Resolver::lookup_host`. -/
structure LookupFut where
  domain : String
  port : UInt16
  completed : Bool
deriving Repr, DecidableEq

/-- `UdpState`. -/
inductive UdpState where
  | idle
  | lookupHost (fut : LookupFut)
  | sending (addr : SocketAddr)
deriving Repr, DecidableEq

/-- One pass of the loop in `poll_send_to_ready`. -/
def pass (env : Environment localUdpInterface) (buf : Bytes)
    (x : UdpState × Log localUdpInterface) :
    (UdpState × Log localUdpInterface) × Option (Outcome (IoResult Unit)) :=
  match x.1 with
  | .idle => (x, some (.returned (.ready (.ok ()))))
  | .lookupHost fut =>
      if fut.completed then (x, some .panicked)
      else
        let call := LocalUdpCall.pollLookup fut.domain fut.port
        let log := env.record x.2 call
        let done := UdpState.lookupHost { fut with completed := true }
        match env x.2 call with
        | .pending => ((x.1, log), some (.returned .pending))
        | .ready (.error e) => ((done, log), some (.returned (.ready (.error e))))
        | .ready (.ok []) => ((done, log), some (.returned (.ready (.error noAddr))))
        | .ready (.ok (addr :: _)) => ((.sending addr, log), none)
  | .sending addr =>
      let call := LocalUdpCall.sendTo buf addr
      let log := env.record x.2 call
      match env x.2 call with
      | .pending => ((x.1, log), some (.returned .pending))
      | .ready (.error e) => ((x.1, log), some (.returned (.ready (.error e))))
      | .ready (.ok _) => ((.idle, log), none)

/-- `poll_send_to_ready`. -/
def pollSendToReady (env : Environment localUdpInterface) (buf : Bytes)
    (x : UdpState × Log localUdpInterface) :
    (UdpState × Log localUdpInterface) × Outcome (IoResult Unit) :=
  loopN (pass env buf) 3 x

/-- The state in which `poll_send_to` enters `poll_send_to_ready`. -/
def enter (target : Address) : UdpState → UdpState
  | .idle =>
      match target with
      | .socketAddr s => .sending s
      | .domain domain port => .lookupHost ⟨domain, port, false⟩
  | state => state

/-- `poll_send_to`. -/
def pollSendTo : Poller localUdpInterface UdpState (Bytes × Address) (IoResult ℕ) :=
  fun env arg x =>
    match pollSendToReady env arg.1 (enter arg.2 x.1, x.2) with
    | (x', .returned (.ready (.ok ()))) => (x', .returned (.ready (.ok arg.1.length)))
    | (x', .returned (.ready (.error e))) => (x', .returned (.ready (.error e)))
    | (x', .returned .pending) => (x', .returned .pending)
    | (x', .panicked) => (x', .panicked)
    | (x', .running) => (x', .running)

/-- A run of `poll_send_to` calls. -/
abbrev Run := Session localUdpInterface UdpState (Bytes × Address) (IoResult ℕ)

/-! ## What a run should be like -/

/-- `addr` is where a packet for `target` belongs, given the events of its call:
the socket address itself, or the first address of the lookup of its domain. -/
def Resolves (events : Log localUdpInterface) : Address → SocketAddr → Prop
  | .socketAddr s, addr => addr = s
  | .domain domain port, addr =>
      ∃ others, (⟨.pollLookup domain port, .ready (.ok (addr :: others))⟩ :
        Event localUdpInterface) ∈ events

/-- Everything a call asked the kernel to send is its own buffer, for its own
target. -/
def OwnSends (arg : Bytes × Address) (events : Log localUdpInterface) : Prop :=
  ∀ buf addr answer,
    (⟨.sendTo buf addr, answer⟩ : Event localUdpInterface) ∈ events →
      buf = arg.1 ∧ Resolves events arg.2 addr

/-- A run in which every call starts afresh. -/
structure Faithful (s : Run) : Prop where
  /-- No completed lookup is polled again (and no poll hangs). -/
  unbroken : s.broken = false
  /-- A call that has returned, with `Ok` or with `Err`, has gone back to `Idle`. -/
  idle : ∀ call ∈ s.served, call.after = .idle
  /-- No packet goes to the target of another call. -/
  own : ∀ call ∈ s.served, OwnSends call.arg call.events
  ownOutstanding : ∀ call ∈ s.outstanding, OwnSends call.1 call.2
  /-- A call that returned `Ok` has sent its buffer to its target, once. -/
  sent : ∀ call ∈ s.served, ∀ n, call.result = .ok n →
    n = call.arg.1.length ∧ ∃ addr, Resolves call.events call.arg.2 addr ∧
      accepted call.events = [(call.arg.1, addr)]

/-! ## The events of a call -/

section Events

variable {arg : Bytes × Address} {events : Log localUdpInterface}
variable {event : Event localUdpInterface}

theorem Resolves.append {target : Address} {addr : SocketAddr}
    (h : Resolves events target addr) (later : Log localUdpInterface) :
    Resolves (events ++ later) target addr := by
  cases target with
  | socketAddr s => exact h
  | domain domain port =>
      obtain ⟨others, mem⟩ := h
      exact ⟨others, List.mem_append_left _ mem⟩

/-- Another event keeps the sends of a call its own, if it is a lookup or a send
of the packet to where it belongs. -/
theorem OwnSends.snoc (own : OwnSends arg events)
    (h : ∀ buf addr answer, event = ⟨.sendTo buf addr, answer⟩ →
      buf = arg.1 ∧ Resolves events arg.2 addr) :
    OwnSends arg (events ++ [event]) := by
  intro buf addr answer mem
  rcases List.mem_append.mp mem with mem | mem
  · obtain ⟨hbuf, haddr⟩ := own buf addr answer mem
    exact ⟨hbuf, haddr.append _⟩
  · obtain ⟨hbuf, haddr⟩ := h buf addr answer (List.mem_singleton.mp mem).symm
    exact ⟨hbuf, haddr.append _⟩

theorem notFailure_snoc (h : ∀ event ∈ events, ¬ Failure event)
    (hnew : ¬ Failure event) : ∀ e ∈ events ++ [event], ¬ Failure e := by
  intro e mem
  rcases List.mem_append.mp mem with mem | mem
  · exact h e mem
  · rw [List.mem_singleton.mp mem]
    exact hnew

end Events

/-! ## One poll -/

/-- Inside the loop, with no failure so far: the sends are the call's own, and
the state says what is left to do. -/
structure Mid (arg : Bytes × Address) (x : UdpState × Log localUdpInterface) :
    Prop where
  fine : ∀ event ∈ x.2, ¬ Failure event
  own : OwnSends arg x.2
  state : match x.1 with
    | .idle => ∃ addr, Resolves x.2 arg.2 addr ∧ accepted x.2 = [(arg.1, addr)]
    | .lookupHost fut => fut.completed = false ∧
        arg.2 = .domain fut.domain fut.port ∧ accepted x.2 = []
    | .sending addr => Resolves x.2 arg.2 addr ∧ accepted x.2 = []

/-- How the loop may be left, from a state as in `Mid`. -/
def Left {R : Type} (arg : Bytes × Address) (x : UdpState × Log localUdpInterface) :
    Outcome (IoResult R) → Prop
  | .returned (.ready (.ok _)) => x.1 = .idle ∧ Mid arg x
  | .returned (.ready (.error _)) => x.1 ≠ .idle ∧ ∃ event ∈ x.2, Failure event
  | .returned .pending => x.1 ≠ .idle ∧ Mid arg x
  | .panicked => False
  | .running => False

variable {env : Environment localUdpInterface} {arg : Bytes × Address}
variable {x x' : UdpState × Log localUdpInterface}

/-- **The step lemma.**  A pass from a state as in `Mid` goes on in such a state,
or it leaves as `Left` says. -/
theorem Mid.pass (mid : Mid arg x) :
    Goes (Mid arg) (Left arg) (LocalUdp.pass env arg.1 x) := by
  obtain ⟨state, log⟩ := x
  obtain ⟨fine, own, hstate⟩ := mid
  cases state with
  | idle => exact ⟨rfl, fine, own, hstate⟩
  | lookupHost fut =>
      obtain ⟨hlive, htarget, hnone⟩ := hstate
      simp only [LocalUdp.pass, hlive, Bool.false_eq_true, if_false,
        Environment.record]
      have hown : ∀ answer, OwnSends arg
          (log ++ [⟨LocalUdpCall.pollLookup fut.domain fut.port, answer⟩]) :=
        fun answer => own.snoc fun buf addr answer' h => by cases h
      rcases env log (LocalUdpCall.pollLookup fut.domain fut.port)
        with (e | (_ | ⟨addr, others⟩)) | _
      · exact ⟨by simp, _, List.mem_append_right _ (List.mem_singleton_self _), trivial⟩
      · exact ⟨by simp, _, List.mem_append_right _ (List.mem_singleton_self _), trivial⟩
      · refine ⟨notFailure_snoc fine id, hown _, ?_, ?_⟩
        · rw [htarget]
          exact ⟨others, by simp⟩
        · simpa [accepted] using hnone
      · refine ⟨by simp, notFailure_snoc fine id, hown _, hlive, htarget, ?_⟩
        simpa [accepted] using hnone
  | sending addr =>
      obtain ⟨hresolves, hnone⟩ := hstate
      simp only [LocalUdp.pass, Environment.record]
      have hown : ∀ answer, OwnSends arg
          (log ++ [⟨LocalUdpCall.sendTo arg.1 addr, answer⟩]) := fun answer =>
        own.snoc fun buf addr' answer' h => by
          cases h
          exact ⟨rfl, hresolves⟩
      rcases env log (LocalUdpCall.sendTo arg.1 addr) with (e | n) | _
      · exact ⟨by simp, _, List.mem_append_right _ (List.mem_singleton_self _), trivial⟩
      · refine ⟨notFailure_snoc fine id, hown _, addr, hresolves.append _, ?_⟩
        simpa [accepted] using hnone
      · refine ⟨by simp, notFailure_snoc fine id, hown _, hresolves.append _, ?_⟩
        simpa [accepted] using hnone

/-- How far the state is from `Idle`. -/
def distance (x : UdpState × Log localUdpInterface) : ℕ :=
  match x.1 with
  | .lookupHost _ => 2
  | .sending _ => 1
  | .idle => 0

/-- A pass that goes round again comes closer to `Idle`. -/
theorem distance_pass {buf : Bytes} (h : pass env buf x = (x', none)) :
    distance x' < distance x := by
  obtain ⟨state, log⟩ := x
  cases state with
  | idle => simp [pass] at h
  | lookupHost fut =>
      unfold pass at h
      dsimp only at h
      split at h
      · simp at h
      · split at h <;> simp only [Prod.mk.injEq, reduceCtorEq, and_false, and_true] at h
        subst h
        show 1 < 2
        decide
  | sending addr =>
      unfold pass at h
      dsimp only at h
      split at h <;> simp only [Prod.mk.injEq, reduceCtorEq, and_false, and_true] at h
      subst h
      show 0 < 1
      decide

/-- A pass only adds to the log. -/
theorem prefix_pass (env : Environment localUdpInterface) (buf : Bytes)
    (x : UdpState × Log localUdpInterface) : x.2 <+: (pass env buf x).1.2 := by
  obtain ⟨state, log⟩ := x
  unfold pass Environment.record
  dsimp only
  repeat' split
  all_goals first | exact List.prefix_rfl | exact List.prefix_append _ _

/-- The spec of `poll_send_to_ready`: it returns, as `Left` says. -/
theorem Mid.pollSendToReady (mid : Mid arg x) {outcome : Outcome (IoResult Unit)}
    (h : LocalUdp.pollSendToReady env arg.1 x = (x', outcome)) :
    Left arg x' outcome := by
  have hdist : distance x < 3 := by
    unfold distance
    split <;> decide
  have hloop := loopN_leaves (LocalUdp.pass env arg.1) (m := distance)
    (fun _ mid => Mid.pass mid) (fun _ _ _ h => distance_pass h) 3 x mid hdist
  unfold LocalUdp.pollSendToReady at h
  rwa [h] at hloop

/-- Inside a call, with no failure so far: `poll_send_to` enters the loop in a
state as in `Mid`. -/
def Busy (arg : Bytes × Address) (x : UdpState × Log localUdpInterface) : Prop :=
  Mid arg (enter arg.2 x.1, x.2)

/-- A call made in `Idle` starts with its own target. -/
theorem busy_of_idle (arg : Bytes × Address) : Busy arg (.idle, []) := by
  obtain ⟨buf, target⟩ := arg
  refine ⟨by simp, fun _ _ _ mem => by simp at mem, ?_⟩
  cases target with
  | socketAddr addr => exact ⟨rfl, rfl⟩
  | domain name port => exact ⟨rfl, rfl, rfl⟩

/-- A call that is suspended is not in `Idle`, so its next poll goes on where it
stands. -/
theorem Mid.busy (mid : Mid arg x) (hstate : x.1 ≠ .idle) : Busy arg x := by
  obtain ⟨state, log⟩ := x
  cases state with
  | idle => exact absurd rfl hstate
  | lookupHost | sending => exact mid

/-- The spec of `poll_send_to`. -/
theorem Busy.pollSendTo (busy : Busy arg x) {outcome : Outcome (IoResult ℕ)}
    (h : LocalUdp.pollSendTo env arg x = (x', outcome)) :
    Left arg x' outcome ∧
      ∀ n, outcome = .returned (.ready (.ok n)) → n = arg.1.length := by
  unfold LocalUdp.pollSendTo at h
  rcases hready : LocalUdp.pollSendToReady env arg.1 (enter arg.2 x.1, x.2)
    with ⟨y, ((e | ⟨⟨⟩⟩) | _) | _ | _⟩
  all_goals
    have hleft := Mid.pollSendToReady busy hready
    simp only [hready, Prod.mk.injEq] at h
    obtain ⟨rfl, rfl⟩ := h
  · exact ⟨hleft, fun n h => by simp at h⟩
  · refine ⟨hleft, fun n h => ?_⟩
    simpa using h.symm
  · exact ⟨hleft, fun n h => by simp at h⟩
  · exact hleft.elim
  · exact hleft.elim

/-- Polls only add to the log of their call. -/
theorem prefix_pollSendTo (env : Environment localUdpInterface)
    (arg : Bytes × Address) (x : UdpState × Log localUdpInterface) :
    x.2 <+: (pollSendTo env arg x).1.2 := by
  have hready : x.2 <+: (pollSendToReady env arg.1 (enter arg.2 x.1, x.2)).1.2 :=
    loopN_keeps (P := fun y : UdpState × Log localUdpInterface => x.2 <+: y.2)
      (fun y hy => hy.trans (prefix_pass env arg.1 y)) 3 List.prefix_rfl
  unfold pollSendTo
  split <;> simpa [*] using hready

/-! ## All runs -/

variable {s : Run}

/-- In a run without failures every call starts afresh. -/
theorem run_of_no_failure (reach : Session.Reach pollSendTo env .idle s)
    (fine : ∀ event ∈ s.log, ¬ Failure event) :
    s.broken = false ∧ (s.outstanding = none → s.state = .idle) ∧
      (∀ arg events, s.outstanding = some (arg, events) → Busy arg (s.state, events)) ∧
      ∀ call ∈ s.served, Mid call.arg (.idle, call.events) ∧ call.after = .idle ∧
        ∀ n, call.result = .ok n → n = call.arg.1.length := by
  refine Session.Reach.rule (A := fun state => state = UdpState.idle) (B := Busy)
    ?init ?enter prefix_pollSendTo ?pending ?ready ?returns reach fine
  case init => rfl
  case enter =>
    rintro arg state rfl
    exact busy_of_idle arg
  case pending =>
    intro env arg x x' busy _ h
    obtain ⟨⟨hstate, mid⟩, -⟩ := busy.pollSendTo h
    exact mid.busy hstate
  case ready =>
    intro env arg x x' result busy hfine h
    obtain ⟨hleft, hlength⟩ := busy.pollSendTo h
    cases result with
    | error e =>
        obtain ⟨-, event, mem, failure⟩ := hleft
        exact absurd failure (hfine event mem)
    | ok n =>
        obtain ⟨hidle, mid⟩ := hleft
        obtain ⟨state, events⟩ := x'
        cases hidle
        refine ⟨rfl, mid, rfl, fun k hk => ?_⟩
        cases hk
        exact hlength n rfl
  case returns =>
    intro env arg x x' outcome busy _ h
    obtain ⟨hleft, -⟩ := busy.pollSendTo h
    cases outcome with
    | returned answer => exact ⟨answer, rfl⟩
    | panicked | running => exact hleft.elim

/-- A run with a failure has a call that returned and did not go back to `Idle`:
the one that met the first failure. -/
theorem stuck_of_failure (reach : Session.Reach pollSendTo env .idle s)
    (hfail : ∃ event ∈ s.log, Failure event) :
    ∃ call ∈ s.served, call.after ≠ .idle := by
  induction reach with
  | start => simp [Session.log, Session.current, Session.start] at hfail
  | @call s arg reach admits ih =>
      by_cases hbefore : ∃ event ∈ s.log, Failure event
      · obtain ⟨call, mem, hcall⟩ := ih hbefore
        exact ⟨call, (Session.served_call _ _ _ s).subset mem, hcall⟩
      · push Not at hbefore
        obtain ⟨-, idle, busy, -⟩ := run_of_no_failure reach hbefore
        have hbusy : Busy arg (s.state, s.current) :=
          Session.busy_of_admits (A := fun state => state = .idle)
            (by rintro arg state rfl; exact busy_of_idle arg) idle busy admits
        obtain ⟨event, mem, failure⟩ := hfail
        rw [Session.log_call] at mem
        have hpast : ∀ event ∈ s.past, ¬ Failure event := fun event mem =>
          hbefore event (List.mem_append_left _ mem)
        rcases hpoll : pollSendTo (env.after s.past) arg (s.state, s.current)
          with ⟨⟨state, events⟩, outcome⟩
        rw [hpoll] at mem
        have hevents : event ∈ events := by
          rcases List.mem_append.mp mem with mem | mem
          · exact absurd failure (hpast event mem)
          · exact mem
        obtain ⟨hleft, -⟩ := hbusy.pollSendTo hpoll
        -- only an error can leave the loop with a failure in the log
        rcases outcome with (result | _) | _ | _
        · cases result with
          | error e =>
              rw [Session.call_ready hpoll]
              exact ⟨_, List.mem_append_right _ (List.mem_singleton_self _), hleft.1⟩
          | ok n => exact absurd failure (hleft.2.fine event hevents)
        · exact absurd failure (hleft.2.fine event hevents)
        · exact hleft.elim
        · exact hleft.elim

/-- **A run is as it should be if and only if nothing in it fails.** -/
theorem faithful_iff (env : Environment localUdpInterface) (s : Run)
    (reach : Session.Reach pollSendTo env .idle s) :
    Faithful s ↔ ∀ event ∈ s.log, ¬ Failure event := by
  constructor
  · intro faithful event mem failure
    obtain ⟨call, hcall, hafter⟩ := stuck_of_failure reach ⟨event, mem, failure⟩
    exact hafter (faithful.idle call hcall)
  · intro fine
    obtain ⟨unbroken, -, busy, served⟩ := run_of_no_failure reach fine
    refine ⟨unbroken, fun call mem => (served call mem).2.1,
      fun call mem => (served call mem).1.own, ?_, ?_⟩
    · rintro ⟨arg, events⟩ mem
      exact (busy arg events mem).own
    · intro call mem n hn
      obtain ⟨mid, -, hlength⟩ := served call mem
      exact ⟨hlength n hn, mid.state⟩

/-- A kernel that refuses the first packet and takes every later one. -/
def refuseFirst : Environment localUdpInterface := fun log call =>
  match call with
  | .pollLookup _ _ => .pending
  | .sendTo buf _ =>
      if log = [] then .ready (.error ⟨.other, "refused"⟩) else .ready (.ok buf.length)

/-- The packet after a refused one is acknowledged, and goes to the target of the
refused one. -/
theorem packet_sent_to_earlier_target :
    ∃ s, Session.Reach pollSendTo refuseFirst .idle s ∧
      s.served.map (fun call => (call.arg, call.result)) =
        [(([1], .socketAddr (.v4 10 53)), .error ⟨.other, "refused"⟩),
          (([2], .socketAddr (.v4 20 53)), .ok 1)] ∧
      accepted s.log = [([2], .v4 10 53)] ∧ ¬ Faithful s := by
  refine ⟨_, .call ([2], .socketAddr (.v4 20 53))
    (.call ([1], .socketAddr (.v4 10 53)) .start (by decide)) (by decide),
    rfl, rfl, fun faithful => ?_⟩
  have hafter := faithful.idle _ (List.mem_cons_self ..)
  revert hafter
  decide

/-- A lookup that has to be waited for, and the send of its packet. -/
theorem faithful_lookup_and_send :
    ∃ env s, Session.Reach pollSendTo env .idle s ∧ s.served.length = 1 ∧
      accepted s.log = [([1], .v4 10 53)] ∧ Faithful s := by
  let env : Environment localUdpInterface := fun log call =>
    match call with
    | .pollLookup _ _ => if log = [] then .pending else .ready (.ok [.v4 10 53])
    | .sendTo buf _ => .ready (.ok buf.length)
  have reach : Session.Reach pollSendTo env .idle
      (((Session.start .idle).call pollSendTo env ([1], .domain "a" 53)).call
        pollSendTo env ([1], .domain "a" 53)) :=
    .call _ (.call _ .start (by decide)) (by decide)
  refine ⟨env, _, reach, rfl, rfl, (faithful_iff env _ reach).mpr ?_⟩
  have hlog : (((Session.start .idle : Run).call pollSendTo env
      ([1], .domain "a" 53)).call pollSendTo env ([1], .domain "a" 53)).log
      = [⟨.pollLookup "a" 53, .pending⟩,
          ⟨.pollLookup "a" 53, .ready (.ok [.v4 10 53])⟩,
          ⟨.sendTo [1] (.v4 10 53), .ready (.ok 1)⟩] := rfl
  rw [hlog]
  intro event mem
  simp only [List.mem_cons, List.not_mem_nil, or_false] at mem
  rcases mem with rfl | rfl | rfl <;> exact id

end LocalUdp

end RabbitDigger
