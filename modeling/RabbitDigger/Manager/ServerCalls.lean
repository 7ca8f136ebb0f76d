import RabbitDigger.Foundation.RwLock
import RabbitDigger.Foundation.Tally
import RabbitDigger.Foundation.Transition
import RabbitDigger.Manager.RunningServer

/-!
# The calls on a running server

`src/rabbit_digger/running.rs`: the state of a `RunningServer` is behind a lock, and `start`,
`stop`, `join` and `take_result` may be called any number of times, concurrently, and dropped
wherever they await.  This is the **fine-grained model** of these calls: a step is one
operation on the lock, on a semaphore or on a `JoinHandle`, so that everything that can go
wrong between two of them can go wrong here.  A `JoinHandle` that is polled again after it was
ready panics, and `take_result` looks at the state a second time when it has replaced it.

What a call holds can be read off its place (`Place.guard`): a call that is dropped gives its
guard back.  What the lock is for is one invariant (`Inv`): **whoever awaits a handle has the
state for itself**, and sets it to `Finished` before it can be dropped.  So a handle is never
polled again, and a result is taken once (`calls_sound`).

`Manager.RunningServer` has the same calls in the coarser steps that the manager needs.  Every
step of a call here is one of those or is not seen there (`poll_seen`).
-/

namespace RabbitDigger.ServerCalls

open Transition RwLock Tally

variable {E : Type}

/-! ## Tasks -/

/-- `JoinError`. -/
inductive JoinError where
  | cancelled
  | panicked
deriving Repr, DecidableEq

/-- The errors of a result: one of the server, of type `E`, or a `JoinError`. -/
inductive ServerError (E : Type) where
  | server (e : E)
  | join (e : JoinError)
deriving Repr, DecidableEq

/-- What a `JoinHandle` is ready with. -/
abbrev Output (E : Type) := Except JoinError (Except E Unit)

/-- `handle.await.map_err(Into::into).and_then(|i| i)`. -/
def joined : Output E → Except (ServerError E) Unit
  | .error e => .error (.join e)
  | .ok (.error e) => .error (.server e)
  | .ok (.ok ()) => .ok ()

/-- A spawned task: whether it was aborted, whether its semaphore is closed, and what it has
ended with. -/
structure Task (E : Type) where
  aborted : Bool
  closed : Bool
  output : Option (Output E)

def Task.new : Task E where
  aborted := false
  closed := false
  output := none

/-! ## Calls -/

/-- `running::State`; a `JoinHandle` with its semaphore is the number of its task, and a result
comes with the number of the task that it is of. -/
inductive State (E : Type) where
  | idle
  | running (handle : ℕ)
  | finished (task : ℕ) (result : Except (ServerError E) Unit)

/-- The task that a state is about. -/
def State.task : State E → Option ℕ
  | .idle => none
  | .running t => some t
  | .finished t _ => some t

/-- The functions. -/
inductive Function where
  | start
  | stop
  | join
  | takeResult
deriving Repr, DecidableEq

/-- Where a call is. -/
inductive Place (E : Type) where
  /-- `stop`: `self.state.read().await`. -/
  | stopRead
  /-- `stop`: `semaphore.close()`, with the read guard. -/
  | stopClose
  /-- `join`: `self.state.read().await`. -/
  | joinRead
  /-- `join`: `semaphore.acquire().await`, with the read guard. -/
  | joinAcquire
  /-- `join`: `self.state.write().await`. -/
  | joinWrite
  /-- `join`: `handle.await`, with the write guard. -/
  | joinHandle
  /-- `join`: `*state = State::Finished { result }`, with the write guard. -/
  | joinFinish (task : ℕ) (result : Except (ServerError E) Unit)
  /-- `start`: `tokio::spawn(task)`. -/
  | startSpawn
  /-- `start`: `self.state.write().await`, with the handle. -/
  | startWrite (handle : ℕ)
  /-- `take_result`: `self.state.write().await`. -/
  | takeWrite
  /-- `take_result`: `replace(&mut *state, State::Idle)`, with the write guard. -/
  | takeReplace
  | returned
  | dropped
  | panicked

namespace Place

/-- The guard that a call holds at its place. -/
def guard : Place E → Guard
  | .stopClose | .joinAcquire => .read
  | .joinHandle | .joinFinish _ _ | .takeReplace => .write
  | _ => .none

/-- The places where a call awaits, and may be dropped. -/
def awaits : Place E → Bool
  | .stopRead | .joinRead | .joinAcquire | .joinWrite | .joinHandle | .startWrite _
  | .takeWrite => true
  | _ => false

/-- The function that is being carried out: `start` calls `stop`, which calls `join`. -/
def function : Place E → Option Function
  | .stopRead | .stopClose => some .stop
  | .joinRead | .joinAcquire | .joinWrite | .joinHandle | .joinFinish _ _ => some .join
  | .startSpawn | .startWrite _ => some .start
  | .takeWrite | .takeReplace => some .takeResult
  | .returned | .dropped | .panicked => none

end Place

/-- A call: the function that was called, and its place. -/
structure Call (E : Type) where
  called : Function
  place : Place E

/-- Where a call begins. -/
def Function.begin : Function → Place E
  | .start | .stop => .stopRead
  | .join => .joinRead
  | .takeResult => .takeWrite

/-- Where a call goes on when its `stop` or `join` is done. -/
def Function.resume : Function → Place E
  | .start => .startSpawn
  | _ => .returned

/-- A `RunningServer` with all tasks it has spawned; the polls of handles, and whether they
were ready; the results that were taken, with their tasks; and whether the `unreachable!()`
was reached. -/
structure Server (E : Type) where
  state : State E
  tasks : List (Task E)
  polls : List (ℕ × Bool)
  taken : List (ℕ × Except (ServerError E) Unit)
  unreachable : Bool

namespace Server

/-- `RunningServer::new`. -/
def new : Server E where
  state := .idle
  tasks := []
  polls := []
  taken := []
  unreachable := false

/-- What a task has ended with. -/
def output (s : Server E) (t : ℕ) : Option (Output E) := s.tasks[t]?.bind Task.output

/-- `handle.abort()`. -/
def abort (s : Server E) (t : ℕ) : Server E :=
  { s with tasks := s.tasks.modify t fun task => { task with aborted := true } }

/-- `semaphore.close()`. -/
def close (s : Server E) (t : ℕ) : Server E :=
  { s with tasks := s.tasks.modify t fun task => { task with closed := true } }

/-- The semaphore has no permits: acquiring one ends only when it is closed. -/
def closed (s : Server E) (t : ℕ) : Bool := (s.tasks[t]?).any Task.closed

/-- A handle is polled. -/
def polled (s : Server E) (t : ℕ) (ready : Bool) : Server E :=
  { s with polls := s.polls ++ [(t, ready)] }

/-- What a call does until it next uses the lock, a semaphore or a handle, given the guards
that are held; `none` if it has to wait, or is at its end. -/
def advance (s : Server E) (held : List Guard) (c : Call E) : Option (Server E × Place E) :=
  match c.place with
  | .stopRead =>
      if canRead held then
        match s.state with
        | .running t => some (s.abort t, .stopClose)
        | _ => some (s, c.called.resume)
      else none
  | .stopClose =>
      match s.state with
      | .running t => some (s.close t, .joinRead)
      | _ => none
  | .joinRead =>
      if canRead held then
        match s.state with
        | .running _ => some (s, .joinAcquire)
        | _ => some (s, c.called.resume)
      else none
  | .joinAcquire =>
      match s.state with
      | .running t => if s.closed t then some (s, .joinWrite) else none
      | _ => none
  | .joinWrite =>
      if canWrite held then
        match s.state with
        | .running _ => some (s, .joinHandle)
        | _ => some (s, c.called.resume)
      else none
  | .joinHandle =>
      match s.state with
      | .running t =>
          if (t, true) ∈ s.polls then some (s.polled t true, .panicked)
          else
            match s.output t with
            | some output => some (s.polled t true, .joinFinish t (joined output))
            | none => some (s.polled t false, .joinHandle)
      | _ => none
  | .joinFinish t result => some ({ s with state := .finished t result }, c.called.resume)
  | .startSpawn => some ({ s with tasks := s.tasks ++ [.new] }, .startWrite s.tasks.length)
  | .startWrite t =>
      if canWrite held then some ({ s with state := .running t }, .returned) else none
  | .takeWrite =>
      if canWrite held then
        match s.state with
        | .finished _ _ => some (s, .takeReplace)
        | _ => some (s, .returned)
      else none
  | .takeReplace =>
      match s.state with
      | .finished t result =>
          some ({ s with state := .idle, taken := s.taken ++ [(t, result)] }, .returned)
      | _ => some ({ s with state := .idle, unreachable := true }, .panicked)
  | .returned | .dropped | .panicked => none

end Server

/-- A server with all calls on it. -/
structure World (E : Type) where
  server : Server E
  calls : List (Call E)

/-- The guards that are held. -/
def held (calls : List (Call E)) : List Guard := calls.map fun c => c.place.guard

/-- A call gets to another place. -/
def setPlace (calls : List (Call E)) (i : ℕ) (place : Place E) : List (Call E) :=
  calls.modify i fun c => { c with place }

/-- What can happen. -/
inductive Event (E : Type) where
  /-- A function is called. -/
  | call (f : Function)
  /-- A call goes on. -/
  | poll (i : ℕ)
  /-- A call is dropped. -/
  | cancel (i : ℕ)
  /-- A task closes its semaphore, as the last thing it does. -/
  | close (t : ℕ)
  /-- A task ends. -/
  | finish (t : ℕ) (output : Output E)

/-- A task returns after it has closed its semaphore, is cancelled if it was aborted, and may
panic at any time. -/
def Task.mayEnd (task : Task E) : Output E → Bool
  | .ok _ => task.closed
  | .error .cancelled => task.aborted
  | .error .panicked => true

def step (w : World E) : Event E → Option (World E)
  | .call f => some { w with calls := w.calls ++ [⟨f, f.begin⟩] }
  | .poll i =>
      match w.calls[i]? with
      | none => none
      | some c =>
          (w.server.advance (held w.calls) c).map fun (server, place) =>
            ⟨server, setPlace w.calls i place⟩
  | .cancel i =>
      match w.calls[i]? with
      | none => none
      | some c =>
          if c.place.awaits then some { w with calls := setPlace w.calls i .dropped } else none
  | .close t =>
      match w.server.tasks[t]? with
      | none => none
      | some task =>
          if task.output.isNone then some { w with server := w.server.close t } else none
  | .finish t output =>
      match w.server.tasks[t]? with
      | none => none
      | some task =>
          if task.output.isNone && task.mayEnd output then
            some { w with
              server.tasks := w.server.tasks.set t { task with output := some output } }
          else none

/-- A server from its beginning. -/
def system (E : Type) : System (World E) (Event E) := ⟨⟨.new, []⟩, step⟩

/-! ## What the calls promise -/

/-- After a handle was ready it is not polled again. -/
def NeverAgain (polls : List (ℕ × Bool)) : Prop :=
  polls.Pairwise fun earlier later => earlier.2 = true → later.1 ≠ earlier.1

/-- The changes of the state, and the functions that make them. -/
inductive Change : Function → State E → State E → Prop where
  | start (before : State E) (t : ℕ) : Change .start before (.running t)
  | join (t : ℕ) (result : Except (ServerError E) Unit) :
      Change .join (.running t) (.finished t result)
  | takeResult (t : ℕ) (result : Except (ServerError E) Unit) :
      Change .takeResult (.finished t result) .idle

/-- **What the calls promise.** -/
structure Sound (w : World E) : Prop where
  polls : NeverAgain w.server.polls
  /-- The result of a task is taken at most once, -/
  once : (w.server.taken.map Prod.fst).Nodup
  /-- when the task has finished, and it is its result. -/
  taken : ∀ p ∈ w.server.taken,
    ∃ output, w.server.output p.1 = some output ∧ p.2 = joined output
  changes : ∀ e w', step w e = some w' → w'.server.state ≠ w.server.state →
    ∃ i c f, e = .poll i ∧ w.calls[i]? = some c ∧ c.place.function = some f ∧
      Change f w.server.state w'.server.state
  reachable : w.server.unreachable = false

/-! ## The invariant -/

/-- Nothing has happened to a task but that it was spawned. -/
structure Unused (s : Server E) (t : ℕ) : Prop where
  spawned : t < s.tasks.length
  polls : ∀ p ∈ s.polls, p.1 ≠ t
  state : s.state.task ≠ some t
  taken : t ∉ s.taken.map Prod.fst

/-- What a call may rely on at its place. -/
def Place.Valid (s : Server E) : Place E → Prop
  | .joinHandle => ∃ t, s.state = .running t
  | .joinFinish t result => s.state = .running t ∧ (t, true) ∈ s.polls ∧
      ∃ output, s.output t = some output ∧ result = joined output
  | .startWrite t => Unused s t
  | .takeReplace => ∃ t result, s.state = .finished t result
  | _ => True

/-- What is true of the state and of the records. -/
structure Records (s : Server E) : Prop where
  spawned : ∀ t, s.state.task = some t → t < s.tasks.length ∧ t ∉ s.taken.map Prod.fst
  result : ∀ t result, s.state = .finished t result →
    ∃ output, s.output t = some output ∧ result = joined output
  polled : ∀ p ∈ s.polls, p.1 < s.tasks.length
  polls : NeverAgain s.polls
  once : (s.taken.map Prod.fst).Nodup
  taken : ∀ p ∈ s.taken, p.1 < s.tasks.length ∧
    ∃ output, s.output p.1 = some output ∧ p.2 = joined output
  reachable : s.unreachable = false

/-- **The invariant.** -/
structure Inv (w : World E) : Prop where
  records : Records w.server
  alone : Alone (held w.calls)
  valid : ∀ (i : ℕ) (c : Call E), w.calls[i]? = some c → c.place.Valid w.server
  /-- No two calls have the same handle. -/
  distinct : ∀ (i j : ℕ) (c d : Call E) (t : ℕ), w.calls[i]? = some c → w.calls[j]? = some d →
    c.place = .startWrite t → d.place = .startWrite t → i = j
  /-- If the handle in the state was ready, a call is about to replace the state. -/
  completed : ∀ t, w.server.state = .running t → (t, true) ∈ w.server.polls →
    ∃ (i : ℕ) (c : Call E) (result : Except (ServerError E) Unit), w.calls[i]? = some c ∧
      c.place = .joinFinish t result

theorem inv_new : Inv (⟨.new, []⟩ : World E) where
  records := by
    refine ⟨?_, ?_, ?_, .nil, .nil, ?_, rfl⟩
    · rintro t ⟨⟩
    · rintro t result ⟨⟩
    · rintro p ⟨⟩
    · rintro p ⟨⟩
  alone := alone_nil
  valid := by rintro i c ⟨⟩
  distinct := by rintro i j c d t ⟨⟩
  completed := by rintro t ⟨⟩

section Calls

variable {calls : List (Call E)} {i : ℕ} {p : Place E}

theorem setPlace_getElem? (calls : List (Call E)) (i j : ℕ) (p : Place E) :
    (setPlace calls i p)[j]? =
      if i = j then (calls[j]?).map fun c => { c with place := p } else calls[j]? := by
  unfold setPlace
  rw [List.getElem?_modify]
  split
  · rfl
  · exact Option.map_id'

/-- A call after a step is the one that has moved, or another one. -/
theorem setPlace_cases {j : ℕ} {d : Call E} (h : (setPlace calls i p)[j]? = some d) :
    d.place = p ∨ (j ≠ i ∧ calls[j]? = some d) := by
  rw [setPlace_getElem?] at h
  split at h
  · obtain ⟨c, hc, rfl⟩ := Option.map_eq_some_iff.mp h
    exact .inl rfl
  · rename_i hij
    exact .inr ⟨Ne.symm hij, h⟩

theorem held_setPlace (calls : List (Call E)) (i : ℕ) (p : Place E) :
    held (setPlace calls i p) = (held calls).set i p.guard := by
  apply List.ext_getElem?
  intro j
  unfold held
  rw [List.getElem?_map, setPlace_getElem?, List.getElem?_set, List.length_map]
  split
  · rename_i hij
    subst hij
    rcases hc : calls[i]? with _ | c
    · rw [List.getElem?_eq_none_iff] at hc
      rw [if_neg (by omega)]
      rfl
    · rw [if_pos (List.getElem?_eq_some_iff.mp hc).1]
      rfl
  · rw [List.getElem?_map]

theorem held_getElem? {j : ℕ} {d : Call E} (h : calls[j]? = some d) :
    (held calls)[j]? = some d.place.guard := by
  unfold held
  rw [List.getElem?_map, h]
  rfl

end Calls

section Steps

variable {w w' : World E} {s : Server E} {i : ℕ} {c : Call E} {p : Place E}

/-- A call without a guard relies on nothing but its own handle. -/
theorem Place.valid_of_guard (hguard : p.guard = .none)
    (h : ∀ t, p = .startWrite t → Unused s t) : p.Valid s := by
  cases p with
  | startWrite t => exact h t rfl
  | joinHandle | joinFinish | takeReplace => cases hguard
  | _ => trivial

/-- A step that gives no handle to the call keeps the handles of the calls distinct. -/
theorem Inv.distinct_setPlace (inv : Inv w) (hhandle : ∀ t, p ≠ .startWrite t) (a b : ℕ)
    (c d : Call E) (t : ℕ) (ha : (setPlace w.calls i p)[a]? = some c)
    (hb : (setPlace w.calls i p)[b]? = some d) (hc : c.place = .startWrite t)
    (hd : d.place = .startWrite t) : a = b := by
  rcases setPlace_cases ha with hplace | ⟨_, ha⟩
  · exact absurd (hplace.symm.trans hc) (hhandle t)
  rcases setPlace_cases hb with hplace | ⟨_, hb⟩
  · exact absurd (hplace.symm.trans hd) (hhandle t)
  exact inv.distinct a b c d t ha hb hc hd

/-- **A step of a call that has the state for itself.**  What the others rely on are their own
handles. -/
theorem Inv.exclusive (inv : Inv w) (hcall : w.calls[i]? = some c)
    (hothers : ∀ (j : ℕ) (d : Call E), j ≠ i → w.calls[j]? = some d → d.place.guard = .none)
    (records : Records s) (hvalid : p.Valid s) (hhandle : ∀ t, p ≠ .startWrite t)
    (hunused : ∀ (j : ℕ) (d : Call E) (t : ℕ), j ≠ i → w.calls[j]? = some d →
      d.place = .startWrite t → Unused s t)
    (hcompleted : ∀ t, s.state = .running t → (t, true) ∈ s.polls →
      ∃ result, p = .joinFinish t result) :
    Inv ⟨s, setPlace w.calls i p⟩ := by
  refine ⟨records, ?_, ?_, inv.distinct_setPlace hhandle, ?_⟩
  · rw [held_setPlace]
    refine alone_set ?_ _
    intro j g hj hg
    unfold held at hg
    rw [List.getElem?_map] at hg
    obtain ⟨d, hd, rfl⟩ := Option.map_eq_some_iff.mp hg
    exact hothers j d hj hd
  · intro j d hd
    rcases setPlace_cases hd with hplace | ⟨hne, hold⟩
    · rw [hplace]
      exact hvalid
    · refine Place.valid_of_guard (hothers j d hne hold) ?_
      intro t ht
      exact hunused j d t hne hold ht
  · intro t hrunning hpolled
    obtain ⟨result, rfl⟩ := hcompleted t hrunning hpolled
    refine ⟨i, { c with place := .joinFinish t result }, result, ?_, rfl⟩
    rw [setPlace_getElem?, if_pos rfl, hcall]
    rfl

/-- A step that changes nothing but the place of the call. -/
theorem Inv.move (inv : Inv w) (hcall : w.calls[i]? = some c)
    (hold : ∀ t result, c.place ≠ .joinFinish t result)
    (halone : Alone ((held w.calls).set i p.guard)) (hvalid : p.Valid w.server)
    (hhandle : ∀ t, p ≠ .startWrite t) : Inv ⟨w.server, setPlace w.calls i p⟩ := by
  refine ⟨inv.records, ?_, ?_, inv.distinct_setPlace hhandle, ?_⟩
  · rw [held_setPlace]
    exact halone
  · intro j d hd
    rcases setPlace_cases hd with hplace | ⟨_, hd⟩
    · rw [hplace]
      exact hvalid
    · exact inv.valid j d hd
  · intro t hrunning hpolled
    obtain ⟨j, d, result, hd, hplace⟩ := inv.completed t hrunning hpolled
    refine ⟨j, d, result, ?_, hplace⟩
    rw [setPlace_getElem?, if_neg]
    · exact hd
    · rintro rfl
      rw [hcall] at hd
      cases hd
      exact hold t result hplace

/-- More tasks, or tasks about which more is known. -/
def Server.withTasks (s : Server E) (tasks : List (Task E)) : Server E := { s with tasks }

section Tasks

variable {tasks : List (Task E)} (hlength : s.tasks.length ≤ tasks.length)
variable (houtput : ∀ t output, s.output t = some output →
  (s.withTasks tasks).output t = some output)

include hlength in
theorem Unused.withTasks {t : ℕ} (unused : Unused s t) : Unused (s.withTasks tasks) t :=
  ⟨Nat.lt_of_lt_of_le unused.spawned hlength, unused.polls, unused.state, unused.taken⟩

include hlength houtput

theorem Place.Valid.withTasks (valid : p.Valid s) : p.Valid (s.withTasks tasks) := by
  cases p with
  | joinHandle | takeReplace => exact valid
  | startWrite t => exact Unused.withTasks hlength valid
  | joinFinish t result =>
      obtain ⟨hstate, hpolled, output, hout, hresult⟩ := valid
      exact ⟨hstate, hpolled, output, houtput t output hout, hresult⟩
  | _ => trivial

theorem Records.withTasks (records : Records s) : Records (s.withTasks tasks) where
  spawned t ht := by
    obtain ⟨hlt, htaken⟩ := records.spawned t ht
    exact ⟨Nat.lt_of_lt_of_le hlt hlength, htaken⟩
  result t result h := by
    obtain ⟨output, hout, hresult⟩ := records.result t result h
    exact ⟨output, houtput t output hout, hresult⟩
  polled p hp := Nat.lt_of_lt_of_le (records.polled p hp) hlength
  polls := records.polls
  once := records.once
  taken p hp := by
    obtain ⟨hlt, output, hout, hresult⟩ := records.taken p hp
    exact ⟨Nat.lt_of_lt_of_le hlt hlength, output, houtput p.1 output hout, hresult⟩
  reachable := records.reachable

end Tasks

/-- What happens to the tasks alone matters to no call. -/
theorem Inv.withTasks (inv : Inv w) {tasks : List (Task E)}
    (hlength : w.server.tasks.length ≤ tasks.length)
    (houtput : ∀ t output, w.server.output t = some output →
      (w.server.withTasks tasks).output t = some output) :
    Inv ⟨w.server.withTasks tasks, w.calls⟩ where
  records := inv.records.withTasks hlength houtput
  alone := inv.alone
  valid i c hc := (inv.valid i c hc).withTasks hlength houtput
  distinct := inv.distinct
  completed := inv.completed

/-- A task that is aborted or whose semaphore is closed has the same output. -/
theorem Inv.modify (inv : Inv w) (t : ℕ) (f : Task E → Task E)
    (hf : ∀ task, (f task).output = task.output) :
    Inv ⟨w.server.withTasks (w.server.tasks.modify t f), w.calls⟩ := by
  refine inv.withTasks (Nat.le_of_eq (List.length_modify ..).symm) ?_
  intro t' output hout
  unfold Server.output Server.withTasks at *
  dsimp only
  rw [List.getElem?_modify]
  obtain ⟨task, htask, houtput⟩ := Option.bind_eq_some_iff.mp hout
  rw [htask]
  split
  · exact (hf task).trans houtput
  · exact houtput

theorem Inv.abort (inv : Inv w) (t : ℕ) : Inv ⟨w.server.abort t, w.calls⟩ :=
  inv.modify t (fun task => { task with aborted := true }) fun _ => rfl

theorem Inv.close (inv : Inv w) (t : ℕ) : Inv ⟨w.server.close t, w.calls⟩ :=
  inv.modify t (fun task => { task with closed := true }) fun _ => rfl

/-- The others, while a call writes. -/
theorem Inv.others (inv : Inv w) (hcall : w.calls[i]? = some c) (hguard : c.place.guard = .write)
    (j : ℕ) (d : Call E) (hj : j ≠ i) (hd : w.calls[j]? = some d) : d.place.guard = .none := by
  have hwrites := held_getElem? hcall
  rw [hguard] at hwrites
  exact inv.alone.others hwrites (held_getElem? hd) hj

/-- The handles of the others are still unused if the step touches no unused task. -/
theorem Inv.unused (inv : Inv w) (h : ∀ t, Unused w.server t → Unused s t) (j : ℕ) (d : Call E)
    (t : ℕ) (_ : j ≠ i) (hd : w.calls[j]? = some d) (ht : d.place = .startWrite t) :
    Unused s t := by
  have hvalid := inv.valid j d hd
  rw [ht] at hvalid
  exact h t hvalid

theorem Function.resume_guard (f : Function) : (f.resume : Place E).guard = .none := by
  cases f <;> rfl

theorem Function.resume_valid (f : Function) : (f.resume : Place E).Valid s := by
  cases f <;> trivial

theorem Function.resume_ne (f : Function) (t : ℕ) : (f.resume : Place E) ≠ .startWrite t := by
  cases f <;> nofun

/-- A call whose `stop` or `join` is done without a change of the state. -/
theorem Inv.resume (inv : Inv w) (hcall : w.calls[i]? = some c)
    (hold : ∀ t result, c.place ≠ .joinFinish t result) (f : Function) :
    Inv ⟨w.server, setPlace w.calls i f.resume⟩ := by
  refine inv.move hcall hold ?_ f.resume_valid f.resume_ne
  rw [f.resume_guard]
  exact inv.alone.release

/-- A call gets the state for itself. -/
theorem Inv.acquire (inv : Inv w) (hcall : w.calls[i]? = some c)
    (hwrite : canWrite (held w.calls) = true) (hvalid : p.Valid w.server)
    (hhandle : ∀ t, p ≠ .startWrite t) : Inv ⟨w.server, setPlace w.calls i p⟩ := by
  have hnone : ∀ (j : ℕ) (d : Call E), w.calls[j]? = some d → d.place.guard = .none :=
    fun j d hd => eq_none_of_canWrite hwrite (held_getElem? hd)
  refine inv.exclusive hcall (fun j d _ hd => hnone j d hd) inv.records hvalid hhandle
    (inv.unused fun _ h => h) ?_
  intro t hrunning hpolled
  obtain ⟨j, d, result, hd, hplace⟩ := inv.completed t hrunning hpolled
  have hguard := hnone j d hd
  rw [hplace] at hguard
  cases hguard

/-- The handle that a call awaits has not been ready. -/
theorem Inv.not_ready (inv : Inv w) (hcall : w.calls[i]? = some c)
    (hplace : c.place = .joinHandle) {t : ℕ} (hstate : w.server.state = .running t) :
    (t, true) ∉ w.server.polls := by
  intro hpolled
  obtain ⟨j, d, result, hd, hfinish⟩ := inv.completed t hstate hpolled
  by_cases hj : j = i
  · subst hj
    rw [hcall] at hd
    cases hd
    rw [hplace] at hfinish
    cases hfinish
  · have hguard := inv.others hcall (by rw [hplace]; rfl) j d hj hd
    rw [hfinish] at hguard
    cases hguard

theorem Records.polled_append (records : Records s) {t : ℕ} (hstate : s.state = .running t)
    (hready : (t, true) ∉ s.polls) (ready : Bool) : Records (s.polled t ready) where
  spawned := records.spawned
  result := records.result
  polled := by
    intro p hp
    rcases List.mem_append.mp hp with hold | hnew
    · exact records.polled p hold
    · rw [List.mem_singleton.mp hnew]
      exact (records.spawned t (by rw [hstate]; rfl)).1
  polls := by
    refine List.pairwise_append.mpr ⟨records.polls, List.pairwise_singleton _ _, ?_⟩
    intro p hp q hq hpready heq
    rw [List.mem_singleton.mp hq] at heq
    apply hready
    have hp' : p = (t, true) := Prod.ext heq.symm hpready
    exact hp' ▸ hp
  once := records.once
  taken := records.taken
  reachable := records.reachable

theorem Unused.polled {t t' : ℕ} (hstate : s.state = .running t) (ready : Bool)
    (unused : Unused s t') : Unused (s.polled t ready) t' := by
  refine ⟨unused.spawned, ?_, unused.state, unused.taken⟩
  intro p hp
  rcases List.mem_append.mp hp with hold | hnew
  · exact unused.polls p hold
  · rw [List.mem_singleton.mp hnew]
    rintro rfl
    exact unused.state (by rw [hstate]; rfl)

/-- The call polls the handle. -/
theorem Inv.pollHandle (inv : Inv w) (hcall : w.calls[i]? = some c)
    (hplace : c.place = .joinHandle) {t : ℕ} (hstate : w.server.state = .running t) :
    Inv ⟨w.server.polled t false, setPlace w.calls i .joinHandle⟩ ∧
      ∀ output, w.server.output t = some output →
        Inv ⟨w.server.polled t true, setPlace w.calls i (.joinFinish t (joined output))⟩ := by
  have hready := inv.not_ready hcall hplace hstate
  have hothers := inv.others hcall (by rw [hplace]; rfl)
  constructor
  · refine inv.exclusive hcall hothers (inv.records.polled_append hstate hready false)
      ⟨t, hstate⟩ nofun (inv.unused fun _ h => h.polled hstate false) ?_
    intro t' hrunning hpolled
    have heq : t = t' := State.running.inj (hstate.symm.trans hrunning)
    subst heq
    rcases List.mem_append.mp hpolled with hold | hnew
    · exact absurd hold hready
    · cases List.mem_singleton.mp hnew
  · intro output hout
    refine inv.exclusive hcall hothers (inv.records.polled_append hstate hready true)
      ⟨hstate, List.mem_append_right _ List.mem_cons_self, output, hout, rfl⟩ nofun
      (inv.unused fun _ h => h.polled hstate true) ?_
    intro t' hrunning _
    have heq : t = t' := State.running.inj (hstate.symm.trans hrunning)
    subst heq
    exact ⟨_, rfl⟩

/-- The call replaces the state by the result. -/
theorem Inv.finish (inv : Inv w) (hcall : w.calls[i]? = some c) {t : ℕ}
    {result : Except (ServerError E) Unit} (hplace : c.place = .joinFinish t result)
    (f : Function) :
    Inv ⟨{ w.server with state := .finished t result }, setPlace w.calls i f.resume⟩ := by
  obtain ⟨hstate, -, output, hout, hresult⟩ : (Place.joinFinish t result).Valid w.server := by
    rw [← hplace]
    exact inv.valid i c hcall
  have htask : w.server.state.task = some t := by
    rw [hstate]
    rfl
  have records : Records { w.server with state := .finished t result } :=
    { inv.records with
      spawned := by
        rintro t' ⟨⟩
        exact inv.records.spawned t htask
      result := by
        rintro t' result' ⟨⟩
        exact ⟨output, hout, hresult⟩ }
  refine inv.exclusive hcall (inv.others hcall (by rw [hplace]; rfl)) records f.resume_valid
    f.resume_ne (inv.unused ?_) nofun
  intro t' unused
  have hne := unused.state
  rw [htask] at hne
  exact ⟨unused.spawned, unused.polls, hne, unused.taken⟩

/-- The call stores its handle. -/
theorem Inv.store (inv : Inv w) (hcall : w.calls[i]? = some c)
    (hwrite : canWrite (held w.calls) = true) {t : ℕ} (hplace : c.place = .startWrite t) :
    Inv ⟨{ w.server with state := .running t }, setPlace w.calls i .returned⟩ := by
  have hown : Unused w.server t := by
    have hvalid := inv.valid i c hcall
    rw [hplace] at hvalid
    exact hvalid
  have records : Records { w.server with state := .running t } :=
    { inv.records with
      spawned := by
        rintro t' ⟨⟩
        exact ⟨hown.spawned, hown.taken⟩
      result := nofun }
  refine inv.exclusive hcall (fun j d _ hd => eq_none_of_canWrite hwrite (held_getElem? hd))
    records trivial nofun ?_ ?_
  · intro j d t' hj hd ht'
    have unused : Unused w.server t' := by
      have hvalid := inv.valid j d hd
      rw [ht'] at hvalid
      exact hvalid
    refine ⟨unused.spawned, unused.polls, ?_, unused.taken⟩
    rintro ⟨⟩
    exact hj (inv.distinct j i d c t hd hcall ht' hplace)
  · intro t' hrunning hpolled
    cases hrunning
    exact absurd rfl (hown.polls _ hpolled)

/-- The call takes the result. -/
theorem Inv.take (inv : Inv w) (hcall : w.calls[i]? = some c) (hplace : c.place = .takeReplace)
    {t : ℕ} {result : Except (ServerError E) Unit}
    (hstate : w.server.state = .finished t result) :
    Inv ⟨{ w.server with state := .idle, taken := w.server.taken ++ [(t, result)] },
      setPlace w.calls i .returned⟩ := by
  have htask : w.server.state.task = some t := by
    rw [hstate]
    rfl
  obtain ⟨hspawned, htaken⟩ := inv.records.spawned t htask
  have hmap : (w.server.taken ++ [(t, result)]).map Prod.fst = w.server.taken.map Prod.fst ++ [t] :=
    List.map_append
  have records :
      Records { w.server with state := .idle, taken := w.server.taken ++ [(t, result)] } :=
    { inv.records with
      spawned := nofun
      result := nofun
      once := by
        show ((w.server.taken ++ [(t, result)]).map Prod.fst).Nodup
        rw [hmap, List.nodup_append]
        refine ⟨inv.records.once, List.pairwise_singleton _ t, ?_⟩
        rintro a ha b hb rfl
        rw [List.mem_singleton.mp hb] at ha
        exact htaken ha
      taken := by
        intro p hp
        rcases List.mem_append.mp hp with hold | hnew
        · exact inv.records.taken p hold
        · rw [List.mem_singleton.mp hnew]
          exact ⟨hspawned, inv.records.result t result hstate⟩ }
  refine inv.exclusive hcall (inv.others hcall (by rw [hplace]; rfl)) records trivial nofun
    (inv.unused ?_) nofun
  intro t' unused
  refine ⟨unused.spawned, unused.polls, nofun, ?_⟩
  show t' ∉ (w.server.taken ++ [(t, result)]).map Prod.fst
  rw [hmap, List.mem_append, List.mem_singleton]
  rintro (hold | rfl)
  · exact unused.taken hold
  · exact unused.state htask

theorem Server.output_append {t : ℕ} {output : Output E} (h : s.output t = some output)
    (task : Task E) : (s.withTasks (s.tasks ++ [task])).output t = some output := by
  obtain ⟨old, hold, houtput⟩ := Option.bind_eq_some_iff.mp h
  show ((s.tasks ++ [task])[t]?).bind Task.output = some output
  rw [List.getElem?_append_left (List.getElem?_eq_some_iff.mp hold).1, hold]
  exact houtput

/-- The call spawns a task. -/
theorem Inv.spawn (inv : Inv w) (hcall : w.calls[i]? = some c) (hplace : c.place = .startSpawn) :
    Inv ⟨w.server.withTasks (w.server.tasks ++ [.new]),
      setPlace w.calls i (.startWrite w.server.tasks.length)⟩ := by
  have hlength : w.server.tasks.length ≤ (w.server.tasks ++ [Task.new]).length := by
    rw [List.length_append]
    exact Nat.le_add_right _ _
  have inv' := inv.withTasks hlength fun t output h => Server.output_append h .new
  -- the new task is not one that anything is known about
  have hfresh : ∀ (j : ℕ) (d : Call E), w.calls[j]? = some d →
      d.place ≠ .startWrite w.server.tasks.length := by
    intro j d hd hwrite
    have hvalid := inv.valid j d hd
    rw [hwrite] at hvalid
    exact Nat.lt_irrefl _ hvalid.spawned
  have hunused : Unused (w.server.withTasks (w.server.tasks ++ [.new])) w.server.tasks.length := by
    refine ⟨?_, ?_, ?_, ?_⟩
    · show w.server.tasks.length < (w.server.tasks ++ [Task.new]).length
      rw [List.length_append]
      exact Nat.lt_succ_self _
    · intro p hp heq
      exact absurd (inv.records.polled p hp) (by omega)
    · intro htask
      exact absurd (inv.records.spawned _ htask).1 (Nat.lt_irrefl _)
    · intro htaken
      obtain ⟨p, hp, heq⟩ := List.mem_map.mp htaken
      exact absurd (inv.records.taken p hp).1 (by omega)
  refine ⟨inv'.records, ?_, ?_, ?_, ?_⟩
  · rw [held_setPlace]
    exact inv.alone.release
  · intro j d hd
    rcases setPlace_cases hd with hwrite | ⟨_, hold⟩
    · rw [hwrite]
      exact hunused
    · exact inv'.valid j d hold
  · intro a b d d' t ha hb hd hd'
    rw [setPlace_getElem?] at ha hb
    split at ha
    · split at hb
      · omega
      · obtain ⟨_, _, rfl⟩ := Option.map_eq_some_iff.mp ha
        cases hd
        exact absurd hd' (hfresh b d' hb)
    · split at hb
      · obtain ⟨_, _, rfl⟩ := Option.map_eq_some_iff.mp hb
        cases hd'
        exact absurd hd (hfresh a d ha)
      · exact inv.distinct a b d d' t ha hb hd hd'
  · intro t hrunning hpolled
    obtain ⟨j, d, result, hd, hfinish⟩ := inv.completed t hrunning hpolled
    refine ⟨j, d, result, ?_, hfinish⟩
    rw [setPlace_getElem?, if_neg]
    · exact hd
    · rintro rfl
      rw [hcall] at hd
      cases hd
      rw [hplace] at hfinish
      cases hfinish

/-- **What one step of a call keeps.** -/
theorem Inv.advance (inv : Inv w) (hcall : w.calls[i]? = some c)
    (h : w.server.advance (held w.calls) c = some (s, p)) :
    Inv ⟨s, setPlace w.calls i p⟩ := by
  obtain ⟨called, place⟩ := c
  cases place
  all_goals dsimp only [Server.advance] at h
  case stopRead =>
    obtain ⟨hread, h⟩ := Option.ite_none_right_eq_some.mp h
    rcases hstate : w.server.state with _ | t | ⟨t, result⟩
    all_goals
      rw [hstate] at h
      cases h
    · exact inv.resume hcall nofun _
    · exact (inv.abort t).move hcall nofun
        (inv.alone.acquireRead hread) trivial nofun
    · exact inv.resume hcall nofun _
  case stopClose =>
    split at h
    · rename_i t hstate
      cases h
      exact (inv.close t).move hcall nofun inv.alone.release trivial nofun
    · cases h
  case joinRead =>
    obtain ⟨hread, h⟩ := Option.ite_none_right_eq_some.mp h
    rcases hstate : w.server.state with _ | t | ⟨t, result⟩
    all_goals
      rw [hstate] at h
      cases h
    · exact inv.resume hcall nofun _
    · exact inv.move hcall nofun (inv.alone.acquireRead hread) trivial nofun
    · exact inv.resume hcall nofun _
  case joinAcquire =>
    split at h
    · split at h
      · cases h
        exact inv.move hcall nofun inv.alone.release trivial nofun
      · cases h
    · cases h
  case joinWrite =>
    obtain ⟨hwrite, h⟩ := Option.ite_none_right_eq_some.mp h
    rcases hstate : w.server.state with _ | t | ⟨t, result⟩
    all_goals
      rw [hstate] at h
      cases h
    · exact inv.resume hcall nofun _
    · exact inv.acquire hcall hwrite ⟨t, hstate⟩ nofun
    · exact inv.resume hcall nofun _
  case joinHandle =>
    split at h
    · rename_i t hstate
      rw [if_neg (inv.not_ready hcall rfl hstate)] at h
      obtain ⟨hpending, hready⟩ := inv.pollHandle hcall rfl hstate
      split at h
      · rename_i output hout
        cases h
        exact hready output hout
      · cases h
        exact hpending
    · cases h
  case joinFinish t result =>
    cases h
    exact inv.finish hcall rfl _
  case startSpawn =>
    cases h
    exact inv.spawn hcall rfl
  case startWrite t =>
    obtain ⟨hwrite, h⟩ := Option.ite_none_right_eq_some.mp h
    cases h
    exact inv.store hcall hwrite rfl
  case takeWrite =>
    obtain ⟨hwrite, h⟩ := Option.ite_none_right_eq_some.mp h
    rcases hstate : w.server.state with _ | t | ⟨t, result⟩
    all_goals
      rw [hstate] at h
      cases h
    · exact inv.acquire hcall hwrite trivial nofun
    · exact inv.acquire hcall hwrite trivial nofun
    · exact inv.acquire hcall hwrite ⟨t, result, hstate⟩ nofun
  case takeReplace =>
    obtain ⟨t, result, hstate⟩ : (Place.takeReplace).Valid w.server := inv.valid i _ hcall
    rw [hstate] at h
    cases h
    exact inv.take hcall rfl hstate
  case returned | dropped | panicked => cases h

/-- **What a step can be.** -/
inductive Stepped (w : World E) : Event E → World E → Prop where
  | call (f : Function) : Stepped w (.call f) { w with calls := w.calls ++ [⟨f, f.begin⟩] }
  | poll {i : ℕ} {c : Call E} {s : Server E} {p : Place E} (call : w.calls[i]? = some c)
      (advance : w.server.advance (held w.calls) c = some (s, p)) :
      Stepped w (.poll i) ⟨s, setPlace w.calls i p⟩
  | cancel {i : ℕ} {c : Call E} (call : w.calls[i]? = some c) (awaits : c.place.awaits = true) :
      Stepped w (.cancel i) { w with calls := setPlace w.calls i .dropped }
  | close (t : ℕ) : Stepped w (.close t) { w with server := w.server.close t }
  | finish {t : ℕ} {task : Task E} {output : Output E} (spawned : w.server.tasks[t]? = some task)
      (unfinished : task.output = none) :
      Stepped w (.finish t output)
        ⟨w.server.withTasks (w.server.tasks.set t { task with output := some output }), w.calls⟩

theorem step_cases {e : Event E} (h : step w e = some w') : Stepped w e w' := by
  cases e with
  | call f =>
      cases h
      exact .call f
  | poll i =>
      simp only [step] at h
      split at h
      · cases h
      · rename_i c hcall
        obtain ⟨⟨s, p⟩, hadvance, rfl⟩ := Option.map_eq_some_iff.mp h
        exact .poll hcall hadvance
  | cancel i =>
      simp only [step] at h
      split at h
      · cases h
      · rename_i c hcall
        split at h
        · rename_i hawaits
          cases h
          exact .cancel hcall hawaits
        · cases h
  | close t =>
      simp only [step] at h
      split at h
      · cases h
      · split at h
        · cases h
          exact .close t
        · cases h
  | finish t output =>
      simp only [step] at h
      split at h
      · cases h
      · rename_i task htask
        split at h
        · rename_i hmay
          cases h
          rw [Bool.and_eq_true, Option.isNone_iff_eq_none] at hmay
          exact .finish htask hmay.1
        · cases h

/-- A function is called. -/
theorem Inv.call (inv : Inv w) (f : Function) :
    Inv { w with calls := w.calls ++ [⟨f, f.begin⟩] } := by
  have hbegin : (f.begin : Place E).guard = .none ∧
      ∀ t, (f.begin : Place E) ≠ .startWrite t := by
    cases f <;> exact ⟨rfl, nofun⟩
  -- a call of the longer list is an old one, or the new one
  have hcases : ∀ (j : ℕ) (d : Call E), (w.calls ++ [⟨f, f.begin⟩])[j]? = some d →
      w.calls[j]? = some d ∨ d.place = f.begin := by
    intro j d hd
    rw [List.getElem?_append] at hd
    split at hd
    · exact .inl hd
    · rw [List.getElem?_singleton] at hd
      split at hd
      · cases hd
        exact .inr rfl
      · cases hd
  refine ⟨inv.records, ?_, ?_, ?_, ?_⟩
  · have hheld : held (w.calls ++ [⟨f, f.begin⟩]) = held w.calls ++ [.none] := by
      unfold held
      rw [List.map_append, ← hbegin.1]
      rfl
    rw [hheld]
    exact inv.alone.join
  · intro j d hd
    rcases hcases j d hd with hold | hnew
    · exact inv.valid j d hold
    · rw [hnew]
      exact Place.valid_of_guard hbegin.1 fun t ht => absurd ht (hbegin.2 t)
  · intro a b d d' t ha hb hd hd'
    rcases hcases a d ha with ha | hnew
    · rcases hcases b d' hb with hb | hnew
      · exact inv.distinct a b d d' t ha hb hd hd'
      · exact absurd (hnew.symm.trans hd') (hbegin.2 t)
    · exact absurd (hnew.symm.trans hd) (hbegin.2 t)
  · intro t hrunning hpolled
    obtain ⟨j, d, result, hd, hfinish⟩ := inv.completed t hrunning hpolled
    refine ⟨j, d, result, ?_, hfinish⟩
    rw [← hd]
    exact List.getElem?_append_left (List.getElem?_eq_some_iff.mp hd).1

/-- A task that has not ended ends. -/
theorem Inv.taskEnds (inv : Inv w) {t : ℕ} {task : Task E} (htask : w.server.tasks[t]? = some task)
    (hunfinished : task.output = none) (output : Output E) :
    Inv ⟨w.server.withTasks (w.server.tasks.set t { task with output := some output }),
      w.calls⟩ := by
  refine inv.withTasks (Nat.le_of_eq (List.length_set ..).symm) ?_
  intro t' output' hout
  obtain ⟨other, hother, houtput⟩ := Option.bind_eq_some_iff.mp hout
  show ((w.server.tasks.set t _)[t']?).bind Task.output = some output'
  rw [List.getElem?_set_ne, hother]
  · exact houtput
  · rintro rfl
    rw [htask] at hother
    cases hother
    rw [hunfinished] at houtput
    cases houtput

/-- **What one step keeps.** -/
theorem Inv.step {e : Event E} (inv : Inv w) (h : Stepped w e w') : Inv w' := by
  cases h with
  | call f => exact inv.call f
  | poll hcall hadvance => exact inv.advance hcall hadvance
  | cancel hcall hawaits =>
      refine inv.move hcall ?_ inv.alone.release trivial nofun
      intro t result hplace
      rw [hplace] at hawaits
      cases hawaits
  | close t => exact inv.close t
  | finish htask hunfinished => exact inv.taskEnds htask hunfinished _

end Steps

/-! ## Changes of the state -/

/-- Only `start`, `join` and `take_result` change the state. -/
theorem Server.advance_change {s s' : Server E} {guards : List Guard} {c : Call E} {p : Place E}
    (hvalid : c.place.Valid s) (h : s.advance guards c = some (s', p)) (hne : s'.state ≠ s.state) :
    ∃ f, c.place.function = some f ∧ Change f s.state s'.state := by
  unfold Server.advance at h
  cases hplace : c.place with
  | joinFinish t result =>
      rw [hplace] at hvalid
      simp only [hplace] at h
      cases h
      rw [hvalid.1]
      exact ⟨.join, rfl, .join t result⟩
  | startWrite t =>
      simp only [hplace] at h
      split at h
      · cases h
        exact ⟨.start, rfl, .start s.state t⟩
      · cases h
  | takeReplace =>
      rw [hplace] at hvalid
      obtain ⟨t, result, hstate⟩ := hvalid
      simp only [hplace, hstate] at h
      cases h
      rw [hstate]
      exact ⟨.takeResult, rfl, .takeResult t result⟩
  | _ =>
      -- the other steps leave the state as it is
      simp only [hplace] at h
      repeat' split at h
      all_goals
        cases h
        try exact absurd rfl hne

theorem inv_of_reachable {w : World E} (reach : (system E).Reachable w) : Inv w :=
  System.Reachable.invariant inv_new (fun _ _ _ inv h => inv.step (step_cases h)) reach

/-- **The calls keep their promise** in every interleaving, wherever they are dropped: a handle
is not polled again after it was ready, the result of a task is taken at most once and only
when it has finished, only `start`, `join` and `take_result` change the state, and only in the
ways that are meant, and the `unreachable!()` is not reached. -/
theorem calls_sound (w : World E) (reach : (system E).Reachable w) : Sound w := by
  have inv := inv_of_reachable reach
  refine ⟨inv.records.polls, inv.records.once, fun p hp => (inv.records.taken p hp).2, ?_,
    inv.records.reachable⟩
  intro e w' h hne
  cases step_cases h with
  | call | cancel | close | finish => exact absurd rfl hne
  | @poll i c s p hcall hadvance =>
      obtain ⟨f, hfunction, hchange⟩ :=
        Server.advance_change (inv.valid i c hcall) hadvance hne
      exact ⟨i, c, f, rfl, hcall, hfunction, hchange⟩

/-- A server that runs forever is started and stopped, one `join` is dropped in the middle, and
the result is taken. -/
def startAndStop : List (Event Unit) :=
  [.call .start, .poll 0, .poll 0, .poll 0, .call .join, .poll 1, .call .stop, .poll 2, .poll 2,
    .poll 1, .poll 1, .poll 1, .cancel 1, .poll 2, .poll 2, .poll 2, .poll 2,
    .finish 0 (.error .cancelled), .poll 2, .poll 2, .call .takeResult, .poll 3, .poll 3]

theorem calls_sound_startAndStop :
    ∃ w, (system Unit).Reachable w ∧ w.server.polls = [(0, false), (0, false), (0, true)] ∧
      w.server.taken = [(0, .error (.join .cancelled))] ∧ Sound w := by
  obtain ⟨w, hrun, hpolls, htaken⟩ : ∃ w, (system Unit).run startAndStop = some w ∧
      w.server.polls = [(0, false), (0, false), (0, true)] ∧
      w.server.taken = [(0, .error (.join .cancelled))] := ⟨_, rfl, rfl, rfl⟩
  have reach := System.reachable_of_run _ _ hrun
  exact ⟨w, reach, hpolls, htaken, calls_sound w reach⟩

/-! ## The server of the manager -/

section Manager

/-- A state without its result. -/
@[simp] def State.forget : State E → RunState
  | .idle => .idle
  | .running t => .running t
  | .finished t _ => .finished t

/-- A task without its result. -/
def Task.forget (sid : ServerId) (task : Task E) : RabbitDigger.Task := ⟨sid, task.output.isSome⟩

/-- Where a call is for the manager, whose `stop` aborts and closes in one step, and whose `join`
sets the state when the handle is ready. -/
def Place.op : Place E → Option ServerOp
  | .stopRead | .stopClose => some .stopRead
  | .joinRead => some .joinRead
  | .joinAcquire => some .joinAcquire
  | .joinWrite => some .joinWrite
  | .joinHandle | .joinFinish _ _ => some .joinHandle
  | _ => none

/-- How many calls are there. -/
def count (op : ServerOp) : List (Call E) → ℕ :=
  tally fun c => if c.place.op = some op then 1 else 0

/-- The servers of a manager that has only this one. -/
@[simp] def World.servers (w : World E) (sid : ServerId) : Servers where
  cell := Function.update (fun _ => .new) sid
    ⟨w.server.state.forget, count .joinAcquire w.calls, 0 < count .joinHandle w.calls⟩
  tasks := w.server.tasks.map (Task.forget sid)
  closed := w.server.closed

/-- What the manager does with a call. -/
@[simp] def Place.managed (v : Servers) (sid : ServerId) : Place E → Option (Servers × ServerOp)
  | .startSpawn => some (v.spawn sid, .done)
  | .startWrite t => (v.store sid t).map (·, .done)
  | .takeReplace => (v.takeResult sid).map (·, .done)
  | place => place.op.bind fun op => op.step v sid

/-- A call goes from one place to the next while the manager does its step, or sees nothing. -/
def Seen (sid : ServerId) (w w' : World E) (before after : Place E) : Prop :=
  w'.servers sid = w.servers sid ∧ after.op = before.op ∨
    before.managed (w.servers sid) sid = some (w'.servers sid, after.op.getD .done)

variable {w w' : World E} {i : ℕ} {c : Call E} {s : Server E} {p : Place E} {sid : ServerId}
variable {calls : List (Call E)} {op : ServerOp}

@[simp] theorem Function.resume_op (f : Function) : (f.resume : Place E).op = none := by
  cases f <;> rfl

theorem count_setPlace (op : ServerOp) (hcall : calls[i]? = some c) :
    count op (setPlace calls i p) + (if c.place.op = some op then 1 else 0) =
      count op calls + if p.op = some op then 1 else 0 := by
  rw [setPlace, List.modify_eq_set_getElem?, hcall]
  exact tally_set _ hcall ⟨c.called, p⟩

theorem count_eq_zero (h : ∀ (j : ℕ) (d : Call E), calls[j]? = some d → d.place.op ≠ some op) :
    count op calls = 0 := by
  by_contra hne
  obtain ⟨j, d, hd, hpos⟩ := exists_of_tally_pos (Nat.pos_of_ne_zero hne)
  simp [h j d hd] at hpos

/-- Who holds no guard holds none for the manager. -/
theorem Place.op_ne : (p.guard ≠ .write → p.op ≠ some .joinHandle) ∧
    (p.guard = .none → p.op ≠ some .joinAcquire) := by
  cases p <;> simp [op, guard]

theorem count_of_canRead (h : canRead (held calls) = true) : count .joinHandle calls = 0 :=
  count_eq_zero fun _ _ hd => Place.op_ne.1 (ne_write_of_canRead h (held_getElem? hd))

theorem count_of_canWrite (h : canWrite (held calls) = true) :
    count .joinHandle calls = 0 ∧ count .joinAcquire calls = 0 := by
  have hnone {j : ℕ} {d : Call E} (hd : calls[j]? = some d) : d.place.guard = .none :=
    eq_none_of_canWrite h (held_getElem? hd)
  exact ⟨count_eq_zero fun _ _ hd => Place.op_ne.1 (by simp [hnone hd]),
    count_eq_zero fun _ _ hd => Place.op_ne.2 (hnone hd)⟩

theorem Inv.canWrite_setPlace (inv : Inv w) (hcall : w.calls[i]? = some c)
    (hguard : c.place.guard = .write) (hp : p.guard = .none) :
    canWrite (held (setPlace w.calls i p)) = true := by
  rw [held_setPlace, hp]
  exact inv.alone.canWrite_of_write (hguard ▸ held_getElem? hcall)

/-- The manager sees of a task whether it has ended. -/
theorem map_modify (tasks : List (Task E)) (t : ℕ) {f : Task E → Task E}
    (hf : ∀ task, (f task).forget sid = task.forget sid) :
    (tasks.modify t f).map (Task.forget sid) = tasks.map (Task.forget sid) := by
  apply List.ext_getElem?
  intro u
  rw [List.getElem?_map, List.getElem?_map, List.getElem?_modify]
  split <;> cases tasks[u]? <;> simp [hf]

theorem servers_abort (t : ℕ) :
    World.servers ⟨s.abort t, calls⟩ sid = World.servers ⟨s, calls⟩ sid := by
  have hclosed : (s.abort t).closed = s.closed := by
    funext u
    simp only [Server.closed, Server.abort, List.getElem?_modify]
    split <;> cases s.tasks[u]? <;> rfl
  have htasks : (s.abort t).tasks.map (Task.forget sid) = s.tasks.map (Task.forget sid) :=
    map_modify s.tasks t fun _ => rfl
  simp only [World.servers, hclosed, htasks]
  rfl

theorem servers_close {t : ℕ} (ht : t < s.tasks.length) : World.servers ⟨s.close t, calls⟩ sid =
    { World.servers ⟨s, calls⟩ sid with closed := Function.update s.closed t true } := by
  have hclosed : (s.close t).closed = Function.update s.closed t true := by
    funext u
    by_cases hu : u = t
    · subst hu
      simp [Server.closed, Server.close, ht]
    · rw [Function.update_of_ne hu]
      simp [Server.closed, Server.close, Ne.symm hu]
  have htasks : (s.close t).tasks.map (Task.forget sid) = s.tasks.map (Task.forget sid) :=
    map_modify s.tasks t fun _ => rfl
  simp only [World.servers, hclosed, htasks]
  rfl

/-- **What the manager sees of one step of a call.** -/
theorem Inv.seen (inv : Inv w) (hcall : w.calls[i]? = some c)
    (h : w.server.advance (held w.calls) c = some (s, p)) :
    Seen sid w ⟨s, setPlace w.calls i p⟩ c.place p := by
  obtain ⟨called, place⟩ := c
  have hreads := count_setPlace (p := p) .joinAcquire hcall
  have hwrites := count_setPlace (p := p) .joinHandle hcall
  cases place
  all_goals dsimp only [Server.advance] at h
  case stopRead | joinRead | joinWrite | takeWrite =>
    obtain ⟨hguard, h⟩ := Option.ite_none_right_eq_some.mp h
    rcases hstate : w.server.state with _ | t | ⟨t, result⟩
    all_goals
      rw [hstate] at h
      cases h
      simp [↓Function.resume_op, Place.op] at hreads hwrites
      first
      | -- the manager sees neither that a task is aborted nor that a result is about to be taken
        refine .inl ⟨?_, rfl⟩
        try rw [servers_abort]
        simp [hreads, hwrites]
      | refine .inr ?_
        simp [ServerOp.step, Servers.set, RunningServer.free, Place.op, ↓Function.resume_op, hstate,
          hreads, hwrites, count_of_canRead, count_of_canWrite, hguard]
  case stopClose =>
    split at h
    · rename_i t hstate
      cases h
      simp [Place.op] at hreads hwrites
      refine .inr ?_
      rw [servers_close (inv.records.spawned t (by rw [hstate]; rfl)).1]
      simp [ServerOp.step, Place.op, hstate, hreads, hwrites,
        count_of_canRead (inv.alone.canRead_of_read (held_getElem? hcall))]
    · cases h
  case joinAcquire =>
    split at h
    · rename_i t hstate
      obtain ⟨hclosed, h⟩ := Option.ite_none_right_eq_some.mp h
      cases h
      simp [Place.op] at hreads hwrites
      refine .inr ?_
      simp [ServerOp.step, Servers.set, Place.op, hstate, ← hreads, hwrites, hclosed]
    · cases h
  case joinHandle =>
    split at h
    · rename_i t hstate
      rw [if_neg (inv.not_ready hcall rfl hstate)] at h
      split at h
      all_goals
        cases h
        simp [Place.op] at hreads hwrites
        refine .inl ⟨?_, rfl⟩
        simp only [World.servers, hreads, hwrites]
        rfl
    · cases h
  case joinFinish t result =>
    obtain ⟨hstate, -, output, hout, -⟩ : (Place.joinFinish t result).Valid w.server :=
      inv.valid i _ hcall
    obtain ⟨task, htask, houtput⟩ := Option.bind_eq_some_iff.mp hout
    cases h
    have hfree := count_of_canWrite (inv.canWrite_setPlace hcall rfl called.resume_guard)
    simp [↓Function.resume_op, Place.op] at hreads hwrites
    refine .inr ?_
    rw [called.resume_op]
    simp [ServerOp.step, Servers.set, Servers.ended, Place.op, Task.forget, htask, houtput, hstate,
      ← hwrites, ← hreads, hfree]
    rfl
  case startSpawn =>
    cases h
    simp [Place.op] at hreads hwrites
    refine .inr ?_
    have hclosed : Server.closed { w.server with tasks := w.server.tasks ++ [.new] } =
        w.server.closed := by
      funext t
      rcases Nat.lt_or_ge t w.server.tasks.length with ht | ht
      · rw [Server.closed, Server.closed, List.getElem?_append_left ht]
      · rw [Server.closed, Server.closed, List.getElem?_append_right ht, List.getElem?_singleton,
          List.getElem?_eq_none ht]
        split <;> rfl
    simp [Servers.spawn, Place.op, hreads, hwrites, hclosed]
    rfl
  case startWrite t =>
    obtain ⟨hwrite, h⟩ := Option.ite_none_right_eq_some.mp h
    cases h
    simp [Place.op] at hreads hwrites
    refine .inr ?_
    simp [Servers.store, Servers.set, RunningServer.free, Place.op, hreads, hwrites,
      count_of_canWrite hwrite]
    rfl
  case takeReplace =>
    obtain ⟨t, result, hstate⟩ : (Place.takeReplace).Valid w.server := inv.valid i _ hcall
    rw [hstate] at h
    cases h
    have hfree := count_of_canWrite (inv.canWrite_setPlace (p := .returned) hcall rfl rfl)
    simp [Place.op] at hreads hwrites
    refine .inr ?_
    simp [Servers.takeResult, Servers.set, RunningServer.free, Place.op, hstate, ← hreads,
      ← hwrites, hfree]
    rfl
  case returned | dropped | panicked => cases h

/-- **The manager's model is a view of this one**, whatever has happened before a call goes on. -/
theorem poll_seen (reach : (system E).Reachable w) (h : step w (.poll i) = some w')
    (sid : ServerId) : ∃ c p, w.calls[i]? = some c ∧ w'.calls = setPlace w.calls i p ∧
      Seen sid w w' c.place p := by
  cases step_cases h with
  | @poll _ c _ p hcall hadvance =>
      exact ⟨c, p, hcall, rfl, (inv_of_reachable reach).seen hcall hadvance⟩

end Manager

end RabbitDigger.ServerCalls
