import RabbitDigger.Builtin.Nets
import RabbitDigger.Foundation.Progress
import RabbitDigger.Foundation.Tally

/-!
# The race of the local net

`tcp_connect_happy_eyeballs` of `rd-std/src/builtin/local.rs` connects to all addresses that a
name resolves to (`call`); a lookup that fails is its answer, and one that hangs holds it up.  The
addresses are interleaved, IPv6 first (`LocalNet.eyeballs`); the attempt of
the `i`-th one **sleeps for `i` times 250 milliseconds** and then calls `tcp_connect_single`, which
may have a timeout.  The attempts are polled through a `FuturesUnordered`: the first connection
that comes about is the answer and drops all other attempts, and if there is none the answer is
the error that came last.

The model has a clock, in milliseconds, and one event for every poll of an attempt.  An attempt is
a lazy future: its `sleep` begins when it is polled for the first time.  Timers never fire before
their time; how long after it they do is left open.

* `happy_eyeballs_sound`: whatever the addresses answer and in whichever order the attempts are
  polled, no place in the list is tried before its turn or twice, the answer is the first
  connection that came about, and an error is the last one after **all** addresses have failed.
* `happy_eyeballs_ends`: if no timer is later than `late` milliseconds and attempts have a timeout,
  then the address whose turn is the `i`-th is tried by then, and the race is over in time.
* `run_tcpConnectHappyEyeballs`: in `Builtin.Nets` the whole race is one operation, and what is
  said about programs with this operation is said about this race.

`begun` and `outcomes` are there for the statements only: nothing in the model depends on them.
-/

namespace RabbitDigger.HappyEyeballs

open Polling Transition Tally

/-! ## One attempt -/

/-- The delay between two attempts, in milliseconds. -/
def attemptDelay : ℕ := 250

/-- How far the attempt for an address is. -/
inductive Attempt where
  /-- It has not been polled yet. -/
  | created
  /-- In `sleep`, up to this time. -/
  | sleeping (wakes : ℕ)
  /-- In `connect`, with the time at which its timeout elapses. -/
  | connecting (elapses : Option ℕ)
  | connected (stream : ℕ)
  | failed (error : Error)
deriving DecidableEq

/-- What an attempt meets with during a poll. -/
structure Answers where
  /-- The timer of `sleep` has fired, if its time has come. -/
  fired : Bool
  /-- `Socket::new` and `set_socket`. -/
  socket : Except Error Unit
  /-- `TcpSocket::connect`. -/
  connect : Poll (IoResult ℕ)
  /-- The timer of the timeout has fired, if its time has come. -/
  elapsed : Bool

namespace Attempt

/-- `socket.connect(addr)`, within its timeout.  The connection is polled before the timer. -/
def pollConnect (now : ℕ) (answers : Answers) (elapses : Option ℕ) : Attempt :=
  match answers.connect with
  | .ready (.ok stream) => .connected stream
  | .ready (.error e) => .failed (.io e)
  | .pending =>
      if answers.elapsed ∧ elapses.any (· ≤ now) then .failed .timeout
      else .connecting elapses

/-- `tcp_connect_single`; the timeout is in seconds. -/
def tcpConnectSingle (connectTimeout : Option ℕ) (now : ℕ) (answers : Answers) : Attempt :=
  match answers.socket with
  | .error e => .failed e
  | .ok _ => pollConnect now answers (connectTimeout.map fun secs => now + 1000 * secs)

/-- `sleep(…)`, and what comes after it. -/
def pollSleep (connectTimeout : Option ℕ) (now : ℕ) (answers : Answers) (wakes : ℕ) : Attempt :=
  if answers.fired ∧ wakes ≤ now then tcpConnectSingle connectTimeout now answers
  else .sleeping wakes

/-- A poll of the `i`-th attempt. -/
def poll (connectTimeout : Option ℕ) (now i : ℕ) (answers : Answers) : Attempt → Attempt
  | .created => pollSleep connectTimeout now answers (now + i * attemptDelay)
  | .sleeping wakes => pollSleep connectTimeout now answers wakes
  | .connecting elapses => pollConnect now answers elapses
  | attempt => attempt

/-- How an attempt has ended. -/
def outcome : Attempt → Option (Except Error ℕ)
  | .connected stream => some (.ok stream)
  | .failed e => some (.error e)
  | _ => none

/-- It has called `tcp_connect_single`. -/
def hasBegun : Attempt → Bool
  | .created | .sleeping _ => false
  | _ => true

end Attempt

/-! ## The race -/

/-- The variables of `tcp_connect_happy_eyeballs` after `resolve`, with the time since then. -/
structure State where
  now : ℕ
  /-- The attempts of `unordered`, in the order of their addresses. -/
  attempts : List Attempt
  lastErr : Option Error
  /-- What was returned. -/
  result : Option (Except Error ℕ)
  /-- When `tcp_connect_single` was called for which address. -/
  begun : List (ℕ × ℕ)
  /-- What `unordered.next()` has given. -/
  outcomes : List (ℕ × Except Error ℕ)

/-- The error when there is no address. -/
def noAddress : Error := .io { kind := .invalidInput, message := Nets.noAddressText }

namespace State

/-- `unordered.next()` gives nothing when all attempts are over. -/
def settle (st : State) : State :=
  if st.attempts.all fun attempt => attempt.outcome.isSome then
    { st with result := some (.error (st.lastErr.getD noAddress)) }
  else st

/-- The attempts have just been collected. -/
def new (addrs : List SocketAddr) : State :=
  settle
    { now := 0
      attempts := addrs.map fun _ => .created
      lastErr := none
      result := none
      begun := []
      outcomes := [] }

/-- An attempt after it has been polled. -/
def put (st : State) (i : ℕ) (before after : Attempt) : State :=
  { st with
    attempts := st.attempts.set i after
    begun := if after.hasBegun ∧ ¬ before.hasBegun then st.begun ++ [(i, st.now)] else st.begun }

/-- The body of the loop, for what an attempt gives. -/
def next (st : State) (i : ℕ) : Except Error ℕ → State
  | .ok stream =>
      { st with
        result := some (.ok stream)
        outcomes := st.outcomes ++ [(i, .ok stream)] }
  | .error e =>
      settle
        { st with
          lastErr := some e
          outcomes := st.outcomes ++ [(i, .error e)] }

/-- `unordered` polls an attempt that is not over. -/
def poll (connectTimeout : Option ℕ) (st : State) (i : ℕ) (answers : Answers) : Option State :=
  match st.attempts[i]? with
  | none => none
  | some before =>
      if before.outcome.isSome then none
      else
        let after := before.poll connectTimeout st.now i answers
        match after.outcome with
        | none => some (st.put i before after)
        | some result => some ((st.put i before after).next i result)

end State

/-- What can happen. -/
inductive Event where
  /-- A millisecond passes. -/
  | tick
  | poll (i : ℕ) (answers : Answers)

/-- One step, until there is a result. -/
def step (connectTimeout : Option ℕ) (st : State) (event : Event) : Option State :=
  if st.result.isSome then none
  else
    match event with
    | .tick => some { st with now := st.now + 1 }
    | .poll i answers => st.poll connectTimeout i answers

/-- The race to the addresses that a name resolves to. -/
def system (connectTimeout : Option ℕ) (addrs : List SocketAddr) : System State Event where
  init := .new (Nets.LocalNet.eyeballs addrs)
  step := step connectTimeout

/-! ## The call -/

/-- How far `tcp_connect_happy_eyeballs` is. -/
inductive Phase where
  /-- In `resolve`. -/
  | resolving
  /-- `resolve` has failed. -/
  | unresolved (error : Error)
  | racing (addrs : List SocketAddr) (race : State)

/-- What `resolve` has returned. -/
def Phase.resolved : Phase → Option (Except Error (List SocketAddr))
  | .resolving => none
  | .unresolved e => some (.error e)
  | .racing addrs _ => some (.ok addrs)

/-- What was returned. -/
def Phase.result : Phase → Option (Except Error ℕ)
  | .resolving => none
  | .unresolved e => some (.error e)
  | .racing _ race => race.result

/-- What can happen during a call. -/
inductive CallEvent where
  | resolved (answer : Except Error (List SocketAddr))
  | race (event : Event)

/-- One step of a call. -/
def callStep (connectTimeout : Option ℕ) : Phase → CallEvent → Option Phase
  | .resolving, .resolved (.ok addrs) =>
      some (.racing addrs (system connectTimeout addrs).init)
  | .resolving, .resolved (.error e) => some (.unresolved e)
  | .racing addrs race, .race event =>
      ((system connectTimeout addrs).step race event).map (.racing addrs)
  | _, _ => none

/-- `tcp_connect_happy_eyeballs`.  `Address::resolve` looks nothing up for a socket address. -/
def call (std : StdNet) (connectTimeout : Option ℕ) (addr : Address) : System Phase CallEvent where
  init :=
    match addr.normalize std with
    | .inl s => .racing [s] (system connectTimeout [s]).init
    | .inr _ => .resolving
  step := callStep connectTimeout

/-- The race of a call is a race to the addresses that were resolved. -/
def Phase.Races (std : StdNet) (connectTimeout : Option ℕ) (addr : Address)
    (Allowed : State → Event → Prop) : Phase → Prop
  | .resolving | .unresolved _ => ∃ host, addr.normalize std = .inr host
  | .racing addrs race => (∀ s, addr.normalize std = .inl s → addrs = [s]) ∧
      (system connectTimeout addrs).Reach Allowed race

/-- What happens to the race of a call is what happens to a race. -/
theorem races_of_reach {std : StdNet} {connectTimeout : Option ℕ} {addr : Address}
    {AllowedCall : Phase → CallEvent → Prop} {Allowed : State → Event → Prop}
    (hallowed : ∀ addrs race event, AllowedCall (.racing addrs race) (.race event) →
      Allowed race event) {phase : Phase}
    (reach : (call std connectTimeout addr).Reach AllowedCall phase) :
    phase.Races std connectTimeout addr Allowed := by
  refine reach.invariant ?_ fun phase event phase' h hevent hstep => ?_
  · unfold call
    dsimp only
    split
    · rename_i s hs
      exact ⟨fun s' hs' => by cases hs.symm.trans hs'; rfl, .init⟩
    · rename_i host hhost
      exact ⟨host, hhost⟩
  · cases phase with
    | resolving =>
        obtain ⟨host, hhost⟩ := h
        rcases event with (e | addrs) | event
        · cases hstep
          exact ⟨host, hhost⟩
        · cases hstep
          exact ⟨fun s hs => (nomatch hhost.symm.trans hs), .init⟩
        · cases hstep
    | unresolved e => cases event <;> cases hstep
    | racing addrs race =>
        rcases event with answer | event
        · cases hstep
        · obtain ⟨race', hrace, rfl⟩ := Option.map_eq_some_iff.mp hstep
          exact ⟨h.1, .step h.2 (hallowed addrs race event hevent) hrace⟩

/-! ## The order of the addresses -/

theorem interleave_perm {α : Type} (as bs : List α) :
    (Nets.LocalNet.interleave as bs).Perm (as ++ bs) := by
  induction as generalizing bs with
  | nil => exact .refl _
  | cons a as ih =>
      cases bs with
      | nil => simp [Nets.LocalNet.interleave]
      | cons b bs => exact ((ih bs).cons b |>.trans List.perm_middle.symm).cons a

/-- **No address is lost or tried twice.** -/
theorem eyeballs_perm (addrs : List SocketAddr) : (Nets.LocalNet.eyeballs addrs).Perm addrs := by
  have hv4 : addrs.filter Nets.isIpv4 = addrs.filter fun addr => !Nets.isIpv6 addr := by
    congr 1
    funext addr
    cases addr <;> rfl
  unfold Nets.LocalNet.eyeballs
  rw [hv4]
  exact (interleave_perm _ _).trans (List.filter_append_perm _ _)

/-! ## What a poll does -/

/-- The failure in an outcome. -/
def failure : Except Error ℕ → Option Error
  | .ok _ => none
  | .error e => some e

/-- The errors of the outcomes. -/
def failures (outcomes : List (ℕ × Except Error ℕ)) : List Error :=
  outcomes.filterMap fun outcome => failure outcome.2

/-- **What a step can do.** -/
theorem step_cases {connectTimeout : Option ℕ} {st st' : State} {event : Event}
    (h : step connectTimeout st event = some st') :
    st.result = none ∧
      ((event = .tick ∧ st' = { st with now := st.now + 1 }) ∨
        ∃ i answers before after, event = .poll i answers ∧ st.attempts[i]? = some before ∧
          before.outcome = none ∧ after = before.poll connectTimeout st.now i answers ∧
          (after.outcome = none ∧ st' = st.put i before after ∨
            ∃ result, after.outcome = some result ∧
              st' = (st.put i before after).next i result)) := by
  unfold step at h
  split at h
  · cases h
  · rename_i hresult
    refine ⟨Option.not_isSome_iff_eq_none.mp hresult, ?_⟩
    cases event with
    | tick =>
        cases h
        exact .inl ⟨rfl, rfl⟩
    | poll i answers =>
        right
        simp only [State.poll] at h
        split at h
        · cases h
        · rename_i before hbefore
          split at h
          · cases h
          · rename_i hrunning
            refine ⟨i, answers, before, _, rfl, hbefore,
              Option.not_isSome_iff_eq_none.mp hrunning, rfl, ?_⟩
            split at h
            · rename_i hafter
              cases h
              exact .inl ⟨hafter, rfl⟩
            · rename_i result hafter
              cases h
              exact .inr ⟨result, hafter, rfl⟩

/-! ## Attempts begin in turn -/

section Poll

variable (connectTimeout : Option ℕ) (now : ℕ) (answers : Answers)

theorem hasBegun_pollConnect (elapses : Option ℕ) :
    (Attempt.pollConnect now answers elapses).hasBegun = true := by
  unfold Attempt.pollConnect
  split
  · rfl
  · rfl
  · split <;> rfl

theorem hasBegun_tcpConnectSingle :
    (Attempt.tcpConnectSingle connectTimeout now answers).hasBegun = true := by
  unfold Attempt.tcpConnectSingle
  split
  · rfl
  · exact hasBegun_pollConnect now answers _

/-- An attempt that sleeps goes on sleeping, or its time has come. -/
theorem pollSleep_cases (wakes : ℕ) :
    Attempt.pollSleep connectTimeout now answers wakes = .sleeping wakes ∨
      wakes ≤ now ∧ Attempt.pollSleep connectTimeout now answers wakes
        = Attempt.tcpConnectSingle connectTimeout now answers := by
  unfold Attempt.pollSleep
  split
  · rename_i h
    exact .inr ⟨h.2, rfl⟩
  · exact .inl rfl

/-- **What a poll makes of an attempt**: one that has begun stays so, and one that has not sleeps
on up to a time, or that time has come. -/
theorem poll_begins (before : Attempt) (i : ℕ) :
    before.hasBegun = true ∧ (before.poll connectTimeout now i answers).hasBegun = true ∨
      before.hasBegun = false ∧ ∃ wakes,
        (before = .created ∧ wakes = now + i * attemptDelay ∨ before = .sleeping wakes) ∧
        (before.poll connectTimeout now i answers = .sleeping wakes ∨
          wakes ≤ now ∧ before.poll connectTimeout now i answers
            = Attempt.tcpConnectSingle connectTimeout now answers) := by
  cases before with
  | created => exact .inr ⟨rfl, _, .inl ⟨rfl, rfl⟩, pollSleep_cases connectTimeout now answers _⟩
  | sleeping wakes =>
      exact .inr ⟨rfl, wakes, .inr rfl, pollSleep_cases connectTimeout now answers wakes⟩
  | connecting elapses => exact .inl ⟨rfl, hasBegun_pollConnect now answers elapses⟩
  | connected | failed => exact .inl ⟨rfl, rfl⟩

end Poll

namespace State

variable (st : State) (i : ℕ) (result : Except Error ℕ)

@[simp] theorem settle_frame : st.settle.now = st.now ∧ st.settle.attempts = st.attempts ∧
    st.settle.begun = st.begun := by
  unfold settle
  split <;> exact ⟨rfl, rfl, rfl⟩

@[simp] theorem next_frame : (st.next i result).now = st.now ∧
    (st.next i result).attempts = st.attempts ∧ (st.next i result).begun = st.begun := by
  cases result with
  | ok stream => exact ⟨rfl, rfl, rfl⟩
  | error e => exact settle_frame _

end State

/-- A note about an attempt that has no note yet. -/
theorem nodup_snoc {α : Type} {notes : List (ℕ × α)} {i : ℕ} {note : α}
    (h : (notes.map Prod.fst).Nodup) (hi : i ∉ notes.map Prod.fst) :
    ((notes ++ [(i, note)]).map Prod.fst).Nodup := by
  rw [List.map_append]
  exact h.append (List.nodup_singleton i) (List.disjoint_singleton.mpr hi)

/-- No attempt has begun before its turn, and none twice. -/
structure Begins (count : ℕ) (st : State) : Prop where
  length : st.attempts.length = count
  begun : ∀ i, i ∈ st.begun.map Prod.fst ↔ (st.attempts[i]?).any Attempt.hasBegun
  once : (st.begun.map Prod.fst).Nodup
  turn : ∀ entry ∈ st.begun, entry.1 * attemptDelay ≤ entry.2 ∧ entry.2 ≤ st.now
  sleep : ∀ i wakes, st.attempts[i]? = some (.sleeping wakes) → i * attemptDelay ≤ wakes

section Begins

variable {count : ℕ} {st st' : State}

theorem Begins.frame (h : Begins count st) (hframe : st'.now = st.now ∧
    st'.attempts = st.attempts ∧ st'.begun = st.begun) : Begins count st' := by
  obtain ⟨hnow, hattempts, hbegun⟩ := hframe
  constructor
  · exact hattempts ▸ h.length
  · rw [hattempts, hbegun]
    exact h.begun
  · exact hbegun ▸ h.once
  · rw [hnow, hbegun]
    exact h.turn
  · exact hattempts ▸ h.sleep

theorem begins_new (addrs : List SocketAddr) : Begins addrs.length (.new addrs) := by
  have hattempts : (State.new addrs).attempts = addrs.map fun _ => .created :=
    (State.settle_frame _).2.1
  have hbegun : (State.new addrs).begun = [] := (State.settle_frame _).2.2
  constructor
  · rw [hattempts, List.length_map]
  · intro i
    rw [hattempts, hbegun, List.getElem?_map]
    cases addrs[i]? <;> simp [Attempt.hasBegun]
  · rw [hbegun]
    exact List.nodup_nil
  · rw [hbegun]
    exact fun entry hmem => absurd hmem List.not_mem_nil
  · intro i wakes h
    rw [hattempts, List.getElem?_map] at h
    cases haddr : addrs[i]? <;> rw [haddr] at h <;> cases h

theorem Begins.tick (h : Begins count st) : Begins count { st with now := st.now + 1 } where
  length := h.length
  begun := h.begun
  once := h.once
  turn entry hmem := ⟨(h.turn entry hmem).1, Nat.le_succ_of_le (h.turn entry hmem).2⟩
  sleep := h.sleep

/-- The attempts after one has been polled. -/
theorem getElem?_put {i : ℕ} {before : Attempt} (hbefore : st.attempts[i]? = some before)
    (after : Attempt) (j : ℕ) :
    (st.put i before after).attempts[j]? = if i = j then some after else st.attempts[j]? := by
  obtain ⟨hi, -⟩ := List.getElem?_eq_some_iff.mp hbefore
  show (st.attempts.set i after)[j]? = _
  rw [List.getElem?_set]
  by_cases hij : i = j
  · rw [if_pos hij, if_pos hij, if_pos (hij ▸ hi)]
  · rw [if_neg hij, if_neg hij]

/-- An attempt may begin when its turn has come. -/
theorem Begins.put {i : ℕ} {before after : Attempt} (h : Begins count st)
    (hbefore : st.attempts[i]? = some before)
    (hkeep : before.hasBegun = true → after.hasBegun = true)
    (hturn : before.hasBegun = false → after.hasBegun = true → i * attemptDelay ≤ st.now)
    (hsleep : ∀ wakes, after = .sleeping wakes → i * attemptDelay ≤ wakes) :
    Begins count (st.put i before after) := by
  have hget := getElem?_put hbefore after
  have hold := h.begun i
  rw [hbefore, Option.any_some] at hold
  have hlength : (st.put i before after).attempts.length = count := by
    rw [← h.length]
    exact List.length_set
  have hsleeping : ∀ j wakes, (st.put i before after).attempts[j]? = some (.sleeping wakes) →
      j * attemptDelay ≤ wakes := by
    intro j wakes hj
    rw [hget] at hj
    split at hj
    · rename_i hij
      cases hj
      exact hij ▸ hsleep wakes rfl
    · exact h.sleep j wakes hj
  by_cases hbegins : after.hasBegun = true ∧ ¬ before.hasBegun = true
  · -- it begins now
    have hlist : (st.put i before after).begun = st.begun ++ [(i, st.now)] := if_pos hbegins
    have hnew : i ∉ st.begun.map Prod.fst := fun hmem => hbegins.2 (hold.mp hmem)
    refine ⟨hlength, fun j => ?_, ?_, ?_, hsleeping⟩
    · rw [hlist, hget, List.map_append, List.mem_append, h.begun]
      by_cases hij : i = j
      · simp [hij, hbegins.1]
      · simp [hij, Ne.symm hij]
    · rw [hlist]
      exact nodup_snoc h.once hnew
    · rw [hlist]
      intro entry hmem
      rcases List.mem_append.mp hmem with hmem | hmem
      · exact h.turn entry hmem
      · cases List.mem_singleton.mp hmem
        exact ⟨hturn (Bool.eq_false_iff.mpr hbegins.2) hbegins.1, Nat.le_refl _⟩
  · have hlist : (st.put i before after).begun = st.begun := if_neg hbegins
    refine ⟨hlength, fun j => ?_, ?_, ?_, hsleeping⟩
    · rw [hlist, hget, h.begun]
      by_cases hij : i = j
      · subst hij
        rw [if_pos rfl, hbefore, Option.any_some, Option.any_some]
        exact ⟨hkeep, fun hafter => by_contra fun hnot => hbegins ⟨hafter, hnot⟩⟩
      · rw [if_neg hij]
    · rw [hlist]
      exact h.once
    · rw [hlist]
      exact h.turn

theorem Begins.poll {i : ℕ} {before : Attempt} (h : Begins count st)
    (hbefore : st.attempts[i]? = some before) (connectTimeout : Option ℕ) (answers : Answers) :
    Begins count (st.put i before (before.poll connectTimeout st.now i answers)) := by
  rcases poll_begins connectTimeout st.now answers before i with
    ⟨hbegun, hafter⟩ | ⟨hnew, wakes, hwakes, hpoll⟩
  · refine h.put hbefore (fun _ => hafter) (fun hnot => ?_) (fun wakes hsleep => ?_)
    · rw [hbegun] at hnot
      cases hnot
    · rw [hsleep] at hafter
      cases hafter
  · have hturn : i * attemptDelay ≤ wakes := by
      rcases hwakes with ⟨-, rfl⟩ | rfl
      · exact Nat.le_add_left _ _
      · exact h.sleep i wakes hbefore
    refine h.put hbefore (fun hbegun => ?_) (fun _ hafter => ?_) (fun later hsleep => ?_)
    · rw [hnew] at hbegun
      cases hbegun
    · rcases hpoll with hpoll | ⟨hdue, -⟩
      · rw [hpoll] at hafter
        cases hafter
      · exact Nat.le_trans hturn hdue
    · rcases hpoll with hpoll | ⟨-, hpoll⟩
      · rw [hpoll] at hsleep
        cases hsleep
        exact hturn
      · have := hasBegun_tcpConnectSingle connectTimeout st.now answers
        rw [← hpoll, hsleep] at this
        cases this

end Begins

/-! ## How attempts end -/

/-- What the outcomes say about the result. -/
def Concluded (count : ℕ) (outcomes : List (ℕ × Except Error ℕ)) :
    Option (Except Error ℕ) → Prop
  | none => (∀ outcome ∈ outcomes, (failure outcome.2).isSome) ∧
      ∃ i < count, i ∉ outcomes.map Prod.fst
  | some (.ok stream) => ∃ earlier i, outcomes = earlier ++ [(i, .ok stream)] ∧
      ∀ outcome ∈ earlier, (failure outcome.2).isSome
  | some (.error e) => (∀ outcome ∈ outcomes, (failure outcome.2).isSome) ∧
      (∀ i < count, i ∈ outcomes.map Prod.fst) ∧ e = (failures outcomes).getLast?.getD noAddress

/-- The outcomes are those of the attempts that are over, and the result is as they say. -/
structure Ends (count : ℕ) (st : State) : Prop where
  length : st.attempts.length = count
  outcome : ∀ i result, (i, result) ∈ st.outcomes ↔
    (st.attempts[i]?).bind Attempt.outcome = some result
  once : (st.outcomes.map Prod.fst).Nodup
  lastErr : st.lastErr = (failures st.outcomes).getLast?
  concluded : Concluded count st.outcomes st.result

section Ends

variable {count : ℕ} {st : State}

theorem mem_outcomes_iff (houtcome : ∀ i result, (i, result) ∈ st.outcomes ↔
    (st.attempts[i]?).bind Attempt.outcome = some result) (i : ℕ) :
    i ∈ st.outcomes.map Prod.fst ↔ ((st.attempts[i]?).bind Attempt.outcome).isSome := by
  rw [List.mem_map, Option.isSome_iff_exists]
  constructor
  · rintro ⟨⟨j, result⟩, hmem, rfl⟩
    exact ⟨result, (houtcome j result).mp hmem⟩
  · rintro ⟨result, hresult⟩
    exact ⟨(i, result), (houtcome i result).mpr hresult, rfl⟩

/-- **The race goes on, or all addresses have failed.** -/
theorem Ends.settle (hlength : st.attempts.length = count)
    (houtcome : ∀ i result, (i, result) ∈ st.outcomes ↔
      (st.attempts[i]?).bind Attempt.outcome = some result)
    (honce : (st.outcomes.map Prod.fst).Nodup)
    (hfailed : ∀ outcome ∈ st.outcomes, (failure outcome.2).isSome)
    (hlast : st.lastErr = (failures st.outcomes).getLast?) (hnone : st.result = none) :
    Ends count st.settle := by
  have hmem := mem_outcomes_iff houtcome
  unfold State.settle
  split
  · rename_i hall
    refine ⟨hlength, houtcome, honce, hlast, hfailed, fun i hi => ?_, by rw [hlast]⟩
    rw [← hlength] at hi
    rw [hmem, List.getElem?_eq_getElem hi]
    exact List.all_eq_true.mp hall _ (List.getElem_mem hi)
  · rename_i hall
    refine ⟨hlength, houtcome, honce, hlast, ?_⟩
    rw [hnone]
    simp only [List.all_eq_true, not_forall] at hall
    obtain ⟨attempt, hattempt, hrunning⟩ := hall
    obtain ⟨i, hi⟩ := List.getElem?_of_mem hattempt
    refine ⟨hfailed, i, ?_, fun hover => hrunning ?_⟩
    · rw [← hlength]
      exact (List.getElem?_eq_some_iff.mp hi).1
    · rw [hmem, hi] at hover
      exact hover

theorem ends_new (addrs : List SocketAddr) : Ends addrs.length (.new addrs) := by
  refine Ends.settle (List.length_map _) (fun i result => ?_) List.nodup_nil
    (fun outcome hmem => absurd hmem List.not_mem_nil) rfl rfl
  rw [List.getElem?_map]
  cases addrs[i]? <;> simp [Attempt.outcome]

variable {i : ℕ} {before after : Attempt}

theorem outcome_put (hbefore : st.attempts[i]? = some before) (j : ℕ) :
    ((st.put i before after).attempts[j]?).bind Attempt.outcome
      = if i = j then after.outcome else (st.attempts[j]?).bind Attempt.outcome := by
  rw [getElem?_put hbefore]
  split <;> rfl

/-- An attempt goes on. -/
theorem Ends.put (h : Ends count st) (hbefore : st.attempts[i]? = some before)
    (hrunning : before.outcome = none) (hafter : after.outcome = none) :
    Ends count (st.put i before after) where
  length := List.length_set.trans h.length
  outcome j result := by
    rw [outcome_put hbefore]
    show (j, result) ∈ st.outcomes ↔ _
    rw [h.outcome]
    by_cases hij : i = j
    · subst hij
      rw [if_pos rfl, hbefore, Option.bind_some, hrunning, hafter]
    · rw [if_neg hij]
  once := h.once
  lastErr := h.lastErr
  concluded := h.concluded

/-- An attempt is over. -/
theorem Ends.next (h : Ends count st) (hresult : st.result = none)
    (hbefore : st.attempts[i]? = some before) (hrunning : before.outcome = none)
    {result : Except Error ℕ} (hafter : after.outcome = some result) :
    Ends count ((st.put i before after).next i result) := by
  have hconcluded := h.concluded
  rw [hresult] at hconcluded
  have hnew : i ∉ st.outcomes.map Prod.fst := by
    rw [mem_outcomes_iff h.outcome, hbefore, Option.bind_some, hrunning]
    exact Bool.false_ne_true
  have hlength : (st.put i before after).attempts.length = count :=
    List.length_set.trans h.length
  have houtcome : ∀ j result', (j, result') ∈ st.outcomes ++ [(i, result)] ↔
      ((st.put i before after).attempts[j]?).bind Attempt.outcome = some result' := by
    intro j result'
    rw [outcome_put hbefore, List.mem_append, List.mem_singleton, Prod.mk.injEq]
    by_cases hij : i = j
    · subst hij
      have hnot : (i, result') ∉ st.outcomes := fun hmem => hnew (List.mem_map_of_mem hmem)
      rw [if_pos rfl, hafter, Option.some.injEq]
      exact ⟨fun hmem => (hmem.resolve_left hnot).2.symm, fun heq => .inr ⟨rfl, heq.symm⟩⟩
    · rw [if_neg hij, ← h.outcome]
      exact ⟨fun hmem => hmem.resolve_right fun heq => hij heq.1.symm, .inl⟩
  have honce : ((st.outcomes ++ [(i, result)]).map Prod.fst).Nodup := nodup_snoc h.once hnew
  cases result with
  | ok stream =>
      refine ⟨hlength, houtcome, honce, ?_, st.outcomes, i, rfl, hconcluded.1⟩
      show st.lastErr = (failures (st.outcomes ++ _)).getLast?
      rw [h.lastErr]
      simp [failures, failure]
  | error e =>
      refine Ends.settle hlength houtcome honce ?_ ?_ hresult
      · intro outcome hmem
        rcases List.mem_append.mp hmem with hmem | hmem
        · exact hconcluded.1 outcome hmem
        · cases List.mem_singleton.mp hmem
          rfl
      · simp [failures, failure]

end Ends

/-! ## The answer -/

/-- What one step preserves. -/
theorem step_sound {connectTimeout : Option ℕ} {count : ℕ} {st st' : State} {event : Event}
    (h : Begins count st ∧ Ends count st) (hstep : step connectTimeout st event = some st') :
    Begins count st' ∧ Ends count st' := by
  obtain ⟨hbegins, hends⟩ := h
  obtain ⟨hresult, ⟨rfl, rfl⟩ | ⟨i, answers, before, after, rfl, hbefore, hrunning, rfl, hafter⟩⟩ :=
    step_cases hstep
  · exact ⟨hbegins.tick, hends.length, hends.outcome, hends.once, hends.lastErr, hends.concluded⟩
  · have hput := hbegins.poll hbefore connectTimeout answers
    rcases hafter with ⟨hafter, rfl⟩ | ⟨result, hafter, rfl⟩
    · exact ⟨hput, hends.put hbefore hrunning hafter⟩
    · exact ⟨hput.frame (State.next_frame ..),
        hends.next hresult hbefore hrunning hafter⟩

/-- What the race has done so far.  `begun` says when `tcp_connect_single` was called for which of
the interleaved addresses, and `outcomes` what came of it. -/
structure Sound (addrs : List SocketAddr) (st : State) : Prop where
  /-- No address is tried before its turn, and none twice. -/
  turn : ∀ entry ∈ st.begun, entry.1 < addrs.length ∧ entry.1 * attemptDelay ≤ entry.2 ∧
    entry.2 ≤ st.now
  once : (st.begun.map Prod.fst).Nodup
  /-- Each address fails or connects at most once, after it has been tried. -/
  tried : ∀ outcome ∈ st.outcomes, outcome.1 ∈ st.begun.map Prod.fst
  outcomeOnce : (st.outcomes.map Prod.fst).Nodup
  /-- While there is no answer, nothing has connected, and an address is left. -/
  running : st.result = none → (∀ outcome ∈ st.outcomes, (failure outcome.2).isSome) ∧
    ∃ i < addrs.length, i ∉ st.outcomes.map Prod.fst
  /-- The answer is the first connection that came about, to one of the addresses. -/
  connected : ∀ stream, st.result = some (.ok stream) → ∃ earlier i addr,
    st.outcomes = earlier ++ [(i, .ok stream)] ∧
    (∀ outcome ∈ earlier, (failure outcome.2).isSome) ∧
    (Nets.LocalNet.eyeballs addrs)[i]? = some addr ∧ addr ∈ addrs
  /-- An error is the last one, after all addresses have failed. -/
  failed : ∀ e, st.result = some (.error e) →
    (∀ addr ∈ addrs, ∃ i error, (Nets.LocalNet.eyeballs addrs)[i]? = some addr ∧
      (i, .error error) ∈ st.outcomes) ∧
    e = (failures st.outcomes).getLast?.getD noAddress

theorem exists_error {result : Except Error ℕ} (h : (failure result).isSome) :
    ∃ e, result = .error e := by
  cases result with
  | ok stream => cases h
  | error e => exact ⟨e, rfl⟩

/-- **The race is sound**, for all addresses, whatever they answer and however the attempts are
polled. -/
theorem race_sound {connectTimeout : Option ℕ} {addrs : List SocketAddr} {st : State}
    (reach : (system connectTimeout addrs).Reachable st) : Sound addrs st := by
  have hperm := eyeballs_perm addrs
  obtain ⟨hbegins, hends⟩ : Begins addrs.length st ∧ Ends addrs.length st := by
    refine System.Reachable.invariant
      (P := fun st => Begins addrs.length st ∧ Ends addrs.length st) ?_
      (fun st event st' h hstep => step_sound h hstep) reach
    show Begins _ (.new _) ∧ Ends _ (.new _)
    rw [← hperm.length_eq]
    exact ⟨begins_new _, ends_new _⟩
  have hin : ∀ i, i < addrs.length →
      ∃ addr, (Nets.LocalNet.eyeballs addrs)[i]? = some addr ∧ addr ∈ addrs := by
    intro i hi
    rw [← hperm.length_eq] at hi
    exact ⟨_, List.getElem?_eq_getElem hi, hperm.subset (List.getElem_mem hi)⟩
  have hlt : ∀ {i : ℕ} {attempt : Attempt}, st.attempts[i]? = some attempt → i < addrs.length := by
    intro i attempt hattempt
    rw [← hbegins.length]
    exact (List.getElem?_eq_some_iff.mp hattempt).1
  have hconcluded := hends.concluded
  refine ⟨fun entry hmem => ⟨?_, hbegins.turn entry hmem⟩, hbegins.once, fun outcome hmem => ?_,
    hends.once, fun hnone => ?_, fun stream hok => ?_, fun e herror => ?_⟩
  · have hbegun := (hbegins.begun entry.1).mp (List.mem_map_of_mem hmem)
    cases hattempt : st.attempts[entry.1]? with
    | none =>
        rw [hattempt] at hbegun
        cases hbegun
    | some attempt => exact hlt hattempt
  · obtain ⟨attempt, hattempt, hover⟩ :=
      Option.bind_eq_some_iff.mp ((hends.outcome outcome.1 outcome.2).mp hmem)
    rw [hbegins.begun, hattempt]
    cases attempt <;> first | rfl | cases hover
  · rw [hnone] at hconcluded
    exact hconcluded
  · rw [hok] at hconcluded
    obtain ⟨earlier, i, houtcomes, hearlier⟩ := hconcluded
    obtain ⟨attempt, hattempt, -⟩ := Option.bind_eq_some_iff.mp
      ((hends.outcome i (.ok stream)).mp (houtcomes ▸ List.mem_append_right _ List.mem_cons_self))
    obtain ⟨addr, haddr, hmem⟩ := hin i (hlt hattempt)
    exact ⟨earlier, i, addr, houtcomes, hearlier, haddr, hmem⟩
  · rw [herror] at hconcluded
    obtain ⟨hfailed, hall, hlast⟩ := hconcluded
    refine ⟨fun addr hmem => ?_, hlast⟩
    obtain ⟨i, hi⟩ := List.getElem?_of_mem (hperm.symm.subset hmem)
    have hi' : i < addrs.length := by
      rw [← hperm.length_eq]
      exact (List.getElem?_eq_some_iff.mp hi).1
    obtain ⟨⟨j, result⟩, hout, rfl⟩ := List.mem_map.mp (hall i hi')
    obtain ⟨error, rfl⟩ := exists_error (hfailed _ hout)
    exact ⟨j, error, hi, hout⟩

/-- What a call has done so far: a socket address is not looked up, and once there are addresses
the race to them is sound. -/
def Phase.Sound (std : StdNet) (addr : Address) : Phase → Prop
  | .resolving | .unresolved _ => ∃ host, addr.normalize std = .inr host
  | .racing addrs race => (∀ s, addr.normalize std = .inl s → addrs = [s]) ∧
      HappyEyeballs.Sound addrs race

/-- **`tcp_connect_happy_eyeballs` is sound**, whatever the lookup and the addresses answer and
however the attempts are polled. -/
theorem happy_eyeballs_sound (std : StdNet) (connectTimeout : Option ℕ) (addr : Address)
    (phase : Phase) (reach : (call std connectTimeout addr).Reachable phase) :
    phase.Sound std addr := by
  have hraces : phase.Races std connectTimeout addr fun _ _ => True :=
    races_of_reach (fun _ _ _ _ => trivial) reach
  cases phase with
  | resolving | unresolved => exact hraces
  | racing addrs race => exact ⟨hraces.1, race_sound hraces.2⟩

/-- The addresses of a race, its result and the attempts that have begun. -/
def Phase.summary : Phase → Option (List SocketAddr × Option (Except Error ℕ) × List (ℕ × ℕ))
  | .racing addrs race => some (addrs, race.result, race.begun)
  | _ => none

theorem Phase.summary_eq_some {phase : Phase} {addrs : List SocketAddr}
    {result : Option (Except Error ℕ)} {begun : List (ℕ × ℕ)} :
    phase.summary = some (addrs, result, begun) ↔
      ∃ race, phase = .racing addrs race ∧ race.result = result ∧ race.begun = begun := by
  cases phase with
  | resolving | unresolved | racing => simp [summary]

/-- An IPv6 and an IPv4 address. -/
def twoFamilies : List SocketAddr := [.v4 1 80, .v6 1 80 0 0]

/-- The IPv6 address is refused at once, and the IPv4 address connects when its turn has come. -/
def fallback : List CallEvent :=
  [.resolved (.ok twoFamilies),
    .race (.poll 0 ⟨true, .ok (), .ready (.error { kind := .connectionRefused }), false⟩),
    .race (.poll 1 ⟨true, .ok (), .pending, false⟩)] ++ List.replicate 250 (.race .tick) ++
  [.race (.poll 1 ⟨true, .ok (), .ready (.ok 7), false⟩)]

theorem happy_eyeballs_sound_fallback : ∃ race,
    (call Numeric.std none (.domain "example.org" 80)).Reachable (.racing twoFamilies race) ∧
    Sound twoFamilies race ∧ race.result = some (.ok 7) ∧ race.begun = [(0, 0), (1, 250)] := by
  have hrun : (((call Numeric.std none (.domain "example.org" 80)).run fallback).bind
      Phase.summary) = some (twoFamilies, some (.ok 7), [(0, 0), (1, 250)]) := by decide +kernel
  obtain ⟨phase, hphase, hsummary⟩ := Option.bind_eq_some_iff.mp hrun
  obtain ⟨race, rfl, hresult, hbegun⟩ := Phase.summary_eq_some.mp hsummary
  have reach := System.reachable_of_run _ _ hphase
  exact ⟨race, reach, (happy_eyeballs_sound _ none _ _ reach).2, hresult, hbegun⟩

/-! ### The operation `race` -/

/-- A race to no address is lost at once. -/
theorem Sound.noAddress {st : State} (h : Sound [] st) {result : Except Error ℕ}
    (hresult : st.result = some result) : result = .error noAddress := by
  have hnone : st.outcomes = [] := by
    refine List.eq_nil_iff_forall_not_mem.mpr fun outcome hmem => ?_
    obtain ⟨entry, hentry, -⟩ := List.mem_map.mp (h.tried outcome hmem)
    exact Nat.not_lt_zero _ (h.turn entry hentry).1
  cases result with
  | ok stream =>
      obtain ⟨_, _, _, _, _, _, hmem⟩ := h.connected stream hresult
      cases hmem
  | error e =>
      rw [(h.failed e hresult).2, hnone]
      rfl

/-- **The call of the local net is a call of this model.**  If the net's lookup returns what the
call has resolved and the operation `race` is answered by what the race has resulted in, then the
program returns what the call has returned. -/
theorem run_tcpConnectHappyEyeballs {deps : MatcherDeps} {connectTimeout : Option ℕ}
    {addr : Address} {phase : Phase}
    (reach : (call deps.std connectTimeout addr).Reachable phase)
    {result : Except Error ℕ} (hresult : phase.result = some result)
    {net : Option (Nets.INet deps)} {server : Procedure.Server (Nets.netSig deps)}
    {env : Procedure.Env (Nets.netSig deps)} {log log' : Procedure.Trace (Nets.netSig deps)}
    (hresolve : ∀ answer, phase.resolved = some answer →
      (Nets.resolve addr (Nets.LocalNet.lookupHost net)).run server env log
        = some (.returned (answer.mapError .error), log'))
    (hrace : ∀ addrs, phase.resolved = some (.ok addrs) →
      env log' (Nets.Op.race (Nets.LocalNet.eyeballs addrs)) = result.mapError .error) :
    ∃ events, (Nets.LocalNet.tcpConnectHappyEyeballs net addr).run server env log
      = some (.returned ((result.mapError .error).map .system), events) := by
  unfold Nets.LocalNet.tcpConnectHappyEyeballs
  cases phase with
  | resolving => cases hresult
  | unresolved e =>
      cases hresult
      rw [Procedure.Prog.run_bind, hresolve _ rfl]
      exact ⟨log', rfl⟩
  | racing addrs race =>
      have hraces : (Phase.racing addrs race).Races deps.std connectTimeout addr fun _ _ => True :=
        races_of_reach (fun _ _ _ _ => trivial) reach
      rw [Procedure.Prog.run_bind, hresolve _ rfl]
      by_cases hempty : (Nets.LocalNet.eyeballs addrs).isEmpty
      · have hnil : addrs = [] := by
          have hperm := eyeballs_perm addrs
          rw [List.isEmpty_iff.mp hempty] at hperm
          exact hperm.symm.eq_nil
        subst hnil
        rw [(race_sound hraces.2).noAddress hresult]
        exact ⟨log', rfl⟩
      · have hanswer : ∃ events, (Nets.race (Nets.LocalNet.eyeballs addrs)
            >>= fun r => pure (r.map (@Nets.Socket.system deps))).run server env log'
            = some (.returned ((env log' (Nets.Op.race (Nets.LocalNet.eyeballs addrs))).map
              (@Nets.Socket.system deps)), events) := ⟨_, rfl⟩
        obtain ⟨events, hanswer⟩ := hanswer
        refine ⟨events, ?_⟩
        show Procedure.Prog.run server env (if _ then _ else _) log' = _
        rw [if_neg hempty, ← hrace addrs rfl]
        exact hanswer

/-! ## The race ends in time -/

/-- When an attempt has to be polled next, if it waits for a timer. -/
def Attempt.due : Attempt → Option ℕ
  | .created => some 0
  | .sleeping wakes => some wakes
  | .connecting elapses => elapses
  | _ => none

/-- **Timers are not later than so many milliseconds**: time does not pass while an attempt is
overdue. -/
def prompt (late : ℕ) (st : State) : Event → Bool
  | .tick => st.attempts.all fun attempt => attempt.due.all fun time => st.now < time + late
  | .poll _ _ => true

theorem prompt_tick {late : ℕ} {st : State} : prompt late st .tick = true ↔
    ∀ attempt ∈ st.attempts, ∀ time, attempt.due = some time → st.now < time + late := by
  simp [prompt, Option.all_eq_true]

/-- The event is not a poll that leaves the attempt as it was. -/
def Effective (connectTimeout : Option ℕ) (st : State) : Event → Prop
  | .tick => True
  | .poll i answers => ∀ attempt, st.attempts[i]? = some attempt →
      attempt.poll connectTimeout st.now i answers ≠ attempt

/-- The `i`-th attempt is where it should be at this time. -/
def Attempt.OnTime (secs late now i : ℕ) : Attempt → Prop
  | .created => now ≤ late
  | .sleeping wakes => wakes ≤ i * attemptDelay + late ∧ now ≤ wakes + late
  | .connecting elapses => ∃ time, elapses = some time ∧
      time ≤ i * attemptDelay + 2 * late + 1000 * secs ∧ now ≤ time + late
  | _ => True

/-- The time by which the race is over. -/
def deadline (secs late count : ℕ) : ℕ := (count - 1) * attemptDelay + 1000 * secs + 3 * late

section OnTime

variable {secs late now i : ℕ}

theorem onTime_pollConnect {answers : Answers} {elapses : Option ℕ}
    (h : (Attempt.connecting elapses).OnTime secs late now i) :
    (Attempt.pollConnect now answers elapses).OnTime secs late now i := by
  unfold Attempt.pollConnect
  split
  · trivial
  · trivial
  · split
    · trivial
    · exact h

theorem onTime_pollSleep {answers : Answers} {wakes : ℕ}
    (h : (Attempt.sleeping wakes).OnTime secs late now i) :
    (Attempt.pollSleep (some secs) now answers wakes).OnTime secs late now i := by
  obtain ⟨hwakes, hnow⟩ := id h
  unfold Attempt.pollSleep Attempt.tcpConnectSingle
  split
  · split
    · trivial
    · refine onTime_pollConnect ⟨now + 1000 * secs, rfl, ?_, ?_⟩ <;> omega
  · exact h

theorem onTime_poll {answers : Answers} {attempt : Attempt}
    (h : attempt.OnTime secs late now i) :
    (attempt.poll (some secs) now i answers).OnTime secs late now i := by
  cases attempt with
  | created =>
      have hnow : now ≤ late := h
      refine onTime_pollSleep ⟨?_, ?_⟩ <;> omega
  | sleeping wakes => exact onTime_pollSleep h
  | connecting elapses => exact onTime_pollConnect h
  | connected | failed => exact h

theorem onTime_tick {attempt : Attempt} (h : attempt.OnTime secs late now i)
    (hprompt : ∀ time, attempt.due = some time → now < time + late) :
    attempt.OnTime secs late (now + 1) i := by
  cases attempt with
  | created =>
      have hdue := hprompt 0 rfl
      show now + 1 ≤ late
      omega
  | sleeping wakes => exact ⟨h.1, hprompt wakes rfl⟩
  | connecting elapses =>
      obtain ⟨time, rfl, htime, -⟩ := h
      exact ⟨time, rfl, htime, hprompt time rfl⟩
  | connected | failed => trivial

/-- An attempt that is not over has time until the end of the race. -/
theorem onTime_le {attempt : Attempt} (h : attempt.OnTime secs late now i)
    (hrunning : attempt.outcome = none) {count : ℕ} (hi : i < count) :
    now ≤ deadline secs late count := by
  have hturn : i * attemptDelay ≤ (count - 1) * attemptDelay :=
    Nat.mul_le_mul_right _ (Nat.le_pred_of_lt hi)
  unfold deadline
  cases attempt with
  | created =>
      have hnow : now ≤ late := h
      omega
  | sleeping wakes =>
      obtain ⟨hwakes, hnow⟩ := h
      omega
  | connecting elapses =>
      obtain ⟨time, -, htime, hnow⟩ := h
      omega
  | connected | failed => cases hrunning

/-- An attempt whose turn is long past has begun. -/
theorem hasBegun_of_onTime {attempt : Attempt} (h : attempt.OnTime secs late now i)
    (hpast : i * attemptDelay + 2 * late < now) : attempt.hasBegun = true := by
  cases attempt with
  | created =>
      have hnow : now ≤ late := h
      omega
  | sleeping wakes =>
      obtain ⟨hwakes, hnow⟩ := h
      omega
  | connecting | connected | failed => rfl

end OnTime

/-- How much an attempt has to go through. -/
def Attempt.left : Attempt → ℕ
  | .created => 3
  | .sleeping _ => 2
  | .connecting _ => 1
  | _ => 0

section Left

variable (connectTimeout : Option ℕ) (now : ℕ) (answers : Answers)

theorem left_pollConnect (elapses : Option ℕ) :
    Attempt.pollConnect now answers elapses = .connecting elapses ∨
      (Attempt.pollConnect now answers elapses).left = 0 := by
  unfold Attempt.pollConnect
  split
  · exact .inr rfl
  · exact .inr rfl
  · split
    · exact .inr rfl
    · exact .inl rfl

theorem left_tcpConnectSingle :
    (Attempt.tcpConnectSingle connectTimeout now answers).left ≤ 1 := by
  unfold Attempt.tcpConnectSingle
  split
  · exact Nat.zero_le _
  · rcases left_pollConnect now answers (connectTimeout.map fun secs => now + 1000 * secs) with
      h | h
    · rw [h]
      exact Nat.le_refl _
    · rw [h]
      exact Nat.zero_le _

/-- **A poll that changes an attempt leaves it with less to do.** -/
theorem left_poll_lt {attempt : Attempt} {i : ℕ}
    (h : attempt.poll connectTimeout now i answers ≠ attempt) :
    (attempt.poll connectTimeout now i answers).left < attempt.left := by
  have hsingle := left_tcpConnectSingle connectTimeout now answers
  cases attempt with
  | created =>
      show (Attempt.pollSleep ..).left < 3
      rcases pollSleep_cases connectTimeout now answers (now + i * attemptDelay) with hpoll | hpoll
      · rw [hpoll]
        exact Nat.lt_succ_self 2
      · rw [hpoll.2]
        omega
  | sleeping wakes =>
      show (Attempt.pollSleep ..).left < 2
      rcases pollSleep_cases connectTimeout now answers wakes with hpoll | hpoll
      · exact absurd hpoll h
      · rw [hpoll.2]
        omega
  | connecting elapses =>
      rcases left_pollConnect now answers elapses with hpoll | hpoll
      · exact absurd hpoll h
      · show (Attempt.pollConnect ..).left < 1
        rw [hpoll]
        exact Nat.zero_lt_one
  | connected | failed => exact absurd rfl h

end Left

/-- All attempts are where they should be. -/
def Timely (secs late : ℕ) (st : State) : Prop :=
  ∀ (i : ℕ) (attempt : Attempt), st.attempts[i]? = some attempt →
    attempt.OnTime secs late st.now i

/-- What one step of a prompt race preserves. -/
theorem step_timely {secs late : ℕ} {st st' : State} {event : Event}
    (h : Timely secs late st) (hprompt : prompt late st event = true)
    (hstep : step (some secs) st event = some st') : Timely secs late st' := by
  obtain ⟨-, ⟨rfl, rfl⟩ | ⟨i, answers, before, after, rfl, hbefore, -, rfl, hafter⟩⟩ :=
    step_cases hstep
  · intro i attempt hattempt
    exact onTime_tick (h i attempt hattempt)
      (prompt_tick.mp hprompt attempt (List.mem_of_getElem? hattempt))
  · have hput : Timely secs late (st.put i before (before.poll (some secs) st.now i answers)) := by
      intro j attempt hattempt
      rw [getElem?_put hbefore] at hattempt
      split at hattempt
      · rename_i hij
        cases hattempt
        exact hij ▸ onTime_poll (h i before hbefore)
      · exact h j attempt hattempt
    rcases hafter with ⟨-, rfl⟩ | ⟨result, -, rfl⟩
    · exact hput
    · intro j attempt hattempt
      rw [(State.next_frame ..).2.1] at hattempt
      rw [(State.next_frame ..).1]
      exact hput j attempt hattempt

theorem timely_new (secs late : ℕ) (addrs : List SocketAddr) : Timely secs late (.new addrs) := by
  intro i attempt hattempt
  rw [show (State.new addrs).attempts = addrs.map fun _ => .created from (State.settle_frame _).2.1,
    List.getElem?_map] at hattempt
  rw [show (State.new addrs).now = 0 from (State.settle_frame _).1]
  cases haddr : addrs[i]? with
  | none =>
      rw [haddr] at hattempt
      cases hattempt
  | some addr =>
      rw [haddr] at hattempt
      cases hattempt
      exact Nat.zero_le _

/-- The race as far as its end in time needs it. -/
structure OnTrack (secs late count : ℕ) (st : State) : Prop where
  begins : Begins count st
  ends : Ends count st
  timely : Timely secs late st

section OnTrack

variable {secs late count : ℕ} {st st' : State} {event : Event}

theorem OnTrack.step (h : OnTrack secs late count st) (hprompt : prompt late st event = true)
    (hstep : HappyEyeballs.step (some secs) st event = some st') : OnTrack secs late count st' :=
  have hsound := step_sound ⟨h.begins, h.ends⟩ hstep
  ⟨hsound.1, hsound.2, step_timely h.timely hprompt hstep⟩

/-- While there is no answer, an attempt is not over. -/
theorem OnTrack.exists_running (h : OnTrack secs late count st) (hnone : st.result = none) :
    ∃ i attempt, i < count ∧ st.attempts[i]? = some attempt ∧ attempt.outcome = none := by
  have hconcluded := h.ends.concluded
  rw [hnone] at hconcluded
  obtain ⟨-, i, hi, hnot⟩ := hconcluded
  rw [mem_outcomes_iff h.ends.outcome, List.getElem?_eq_getElem (h.ends.length.symm ▸ hi),
    Option.bind_some, Option.not_isSome_iff_eq_none] at hnot
  exact ⟨i, _, hi, List.getElem?_eq_getElem _, hnot⟩

theorem OnTrack.now_le (h : OnTrack secs late count st) (hnone : st.result = none) :
    st.now ≤ deadline secs late count := by
  obtain ⟨i, attempt, hi, hattempt, hrunning⟩ := h.exists_running hnone
  exact onTime_le (h.timely i attempt hattempt) hrunning hi

/-- What is left to do: the time until the end, and what the attempts have to go through. -/
def State.measure (secs late count : ℕ) (st : State) : ℕ :=
  deadline secs late count - st.now + tally Attempt.left st.attempts

theorem OnTrack.measure_lt (h : OnTrack secs late count st) (hprompt : prompt late st event = true)
    (heffective : Effective (some secs) st event)
    (hstep : HappyEyeballs.step (some secs) st event = some st') :
    st'.measure secs late count < st.measure secs late count := by
  have h' := h.step hprompt hstep
  obtain ⟨hnone, ⟨rfl, rfl⟩ | ⟨i, answers, before, after, rfl, hbefore, -, rfl, hafter⟩⟩ :=
    step_cases hstep
  · have hle : st.now + 1 ≤ deadline secs late count := h'.now_le hnone
    show deadline secs late count - (st.now + 1) + tally Attempt.left st.attempts
      < deadline secs late count - st.now + tally Attempt.left st.attempts
    omega
  · have hlt := left_poll_lt (some secs) st.now answers (heffective before hbefore)
    have hset := tally_set Attempt.left hbefore (before.poll (some secs) st.now i answers)
    have hsame : st'.now = st.now ∧ st'.attempts
        = st.attempts.set i (before.poll (some secs) st.now i answers) := by
      rcases hafter with ⟨-, rfl⟩ | ⟨result, -, rfl⟩
      · exact ⟨rfl, rfl⟩
      · exact (State.next_frame ..).imp_right And.left
    unfold State.measure
    rw [hsame.1, hsame.2]
    omega

/-- A timer has fired, and nothing else happens. -/
def timerAnswers : Answers := ⟨true, .ok (), .pending, true⟩

/-- An attempt that is overdue goes on when it is polled. -/
theorem poll_ne_of_due {attempt : Attempt} {time now : ℕ} (hdue : attempt.due = some time)
    (hpast : time ≤ now) (secs i : ℕ) :
    attempt.poll (some secs) now i timerAnswers ≠ attempt := by
  intro heq
  cases attempt with
  | created =>
      rcases pollSleep_cases (some secs) now timerAnswers (now + i * attemptDelay) with
        hpoll | ⟨-, hpoll⟩
      · cases hpoll.symm.trans heq
      · have hbegun := hasBegun_tcpConnectSingle (some secs) now timerAnswers
        rw [← hpoll, show Attempt.pollSleep .. = _ from heq] at hbegun
        cases hbegun
  | sleeping wakes =>
      cases hdue
      have hbegun := hasBegun_tcpConnectSingle (some secs) now timerAnswers
      rw [show Attempt.tcpConnectSingle .. = .sleeping time from
        (if_pos ⟨rfl, hpast⟩).symm.trans heq] at hbegun
      cases hbegun
  | connecting elapses =>
      cases hdue
      have hfailed : Attempt.poll (some secs) now i timerAnswers (.connecting (some time))
          = .failed .timeout := if_pos ⟨rfl, decide_eq_true hpast⟩
      cases hfailed.symm.trans heq
  | connected | failed => cases hdue

/-- An attempt that is not over can be polled. -/
theorem exists_poll (connectTimeout : Option ℕ) (hnone : st.result = none) {i : ℕ}
    {attempt : Attempt} (hattempt : st.attempts[i]? = some attempt)
    (hrunning : attempt.outcome = none) (answers : Answers) :
    ∃ st', HappyEyeballs.step connectTimeout st (.poll i answers) = some st' := by
  simp only [HappyEyeballs.step, State.poll, hnone, hattempt, hrunning, Option.isSome_none,
    Bool.false_eq_true, if_false]
  cases (attempt.poll connectTimeout st.now i answers).outcome with
  | none | some => exact ⟨_, rfl⟩

/-- **Until there is an answer, time can pass or an attempt can go on.** -/
theorem exists_effective (secs late : ℕ) (hnone : st.result = none) :
    ∃ event st', (prompt late st event = true ∧ Effective (some secs) st event) ∧
      HappyEyeballs.step (some secs) st event = some st' := by
  by_cases hprompt : prompt late st .tick = true
  · refine ⟨.tick, { st with now := st.now + 1 }, ⟨hprompt, trivial⟩, ?_⟩
    unfold HappyEyeballs.step
    rw [hnone]
    rfl
  · simp only [prompt_tick, not_forall] at hprompt
    obtain ⟨attempt, hmem, time, hdue, hpast⟩ := hprompt
    obtain ⟨i, hattempt⟩ := List.getElem?_of_mem hmem
    have hrunning : attempt.outcome = none := by
      cases attempt <;> first | rfl | cases hdue
    have hchanges := poll_ne_of_due hdue (Nat.le_trans (Nat.le_add_right time late)
      (Nat.not_lt.mp hpast)) secs i
    obtain ⟨st', hstep⟩ := exists_poll (some secs) hnone hattempt hrunning timerAnswers
    refine ⟨.poll i timerAnswers, st', ⟨rfl, fun other hother => ?_⟩, hstep⟩
    rw [hattempt] at hother
    cases hother
    exact hchanges

end OnTrack

/-- Timers are not late during the race of a call. -/
def promptCall (late : ℕ) : Phase → CallEvent → Bool
  | .racing _ race, .race event => prompt late race event
  | _, _ => true

/-- **The race ends in time.**  With a timeout for connections and timers that are at most so late,
once the addresses are resolved every address is tried when its turn has come, whatever became of
those before it, and after the turn of the last one and its timeout there is an answer. -/
theorem happy_eyeballs_ends (std : StdNet) (secs late : ℕ) (addr : Address)
    (addrs : List SocketAddr) (st : State)
    (reach : (call std (some secs) addr).Reach
      (fun phase event => promptCall late phase event = true) (.racing addrs st)) :
    (system (some secs) addrs).Proceeds
      (fun st event => prompt late st event = true ∧ Effective (some secs) st event)
      (fun st => st.result.isSome) st ∧
    (st.result = none →
      (∀ i < addrs.length, i * attemptDelay + 2 * late < st.now → i ∈ st.begun.map Prod.fst) ∧
      st.now ≤ (addrs.length - 1) * attemptDelay + 1000 * secs + 3 * late) := by
  have hraces : Phase.Races std (some secs) addr (fun st event => prompt late st event = true)
      (.racing addrs st) := races_of_reach (fun _ _ _ h => h) reach
  have htrack : OnTrack secs late addrs.length st := by
    refine hraces.2.invariant ?_ fun st event st' h hprompt hstep => h.step hprompt hstep
    rw [← (eyeballs_perm addrs).length_eq]
    exact ⟨begins_new _, ends_new _, timely_new secs late _⟩
  refine ⟨?_, fun hnone => ⟨fun i hi hpast => ?_, htrack.now_le hnone⟩⟩
  · exact System.proceeds_of_measure
      (fun st event st' h hallowed hstep => h.step hallowed.1 hstep)
      (fun st event st' h hallowed hstep => h.measure_lt hallowed.1 hallowed.2 hstep)
      (fun st _ hgoal => exists_effective secs late (Option.not_isSome_iff_eq_none.mp hgoal)) htrack
  · rw [htrack.begins.begun, List.getElem?_eq_getElem (htrack.begins.length.symm ▸ hi)]
    exact hasBegun_of_onTime (htrack.timely i _ (List.getElem?_eq_getElem _)) hpast

/-- The IPv6 address does not answer, and the IPv4 address is tried when its turn has come. -/
def silent : List CallEvent :=
  [.resolved (.ok twoFamilies), .race (.poll 0 ⟨true, .ok (), .pending, false⟩),
    .race (.poll 1 ⟨false, .ok (), .pending, false⟩)] ++
  List.replicate 250 (.race .tick) ++ [.race (.poll 1 ⟨true, .ok (), .pending, false⟩)]

theorem happy_eyeballs_ends_silent : ∃ st,
    (call Numeric.std (some 5) (.domain "example.org" 80)).Reach
        (fun phase event => promptCall 1 phase event = true) (.racing twoFamilies st) ∧
      (system (some 5) twoFamilies).Proceeds
        (fun st event => prompt 1 st event = true ∧ Effective (some 5) st event)
        (fun st => st.result.isSome) st ∧
      st.result = none ∧ st.begun = [(0, 0), (1, 250)] := by
  have hrun : (((call Numeric.std (some 5) (.domain "example.org" 80)).replay (promptCall 1)
      silent).bind Phase.summary) = some (twoFamilies, none, [(0, 0), (1, 250)]) := by
    decide +kernel
  obtain ⟨phase, hphase, hsummary⟩ := Option.bind_eq_some_iff.mp hrun
  obtain ⟨st, rfl, hresult, hbegun⟩ := Phase.summary_eq_some.mp hsummary
  have reach := System.reach_of_replay _ _ _ hphase
  exact ⟨st, reach, (happy_eyeballs_ends _ 5 1 _ twoFamilies st reach).1, hresult, hbegun⟩

end RabbitDigger.HappyEyeballs
