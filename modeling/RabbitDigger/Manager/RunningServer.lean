import Mathlib.Logic.Function.Basic
import Mathlib.Data.List.Basic

/-!
# Running servers

`src/rabbit_digger/running.rs`: a `RunningServer` spawns a task, keeps its
`JoinHandle` in a state behind a lock, and gives the task up only once it has been
awaited.  All its methods are asynchronous, so several of them may be under way on
one server; they switch at lock acquisitions and at awaits, and `ServerOp.step` is
what one of them does between two such points.  `Manager.ServerCalls` has finer steps,
and shows that these are what is seen of them.

What matters to the manager above is **where the handle of a task is**: a task that
has not finished is held by the state of its server (`Servers.Held`), and a `stop`
or `join` that has returned leaves no unfinished task (`allFinished_of_step`).

The text of results and errors is left out: a finished state remembers which task
it has the result of.
-/

namespace RabbitDigger

/-- A server: the call of `RabbitDigger::start` that built it, and its name. -/
structure ServerId where
  owner : ℕ
  name : String
deriving Repr, DecidableEq

/-- A spawned task. -/
structure Task where
  server : ServerId
  finished : Bool
deriving Repr, DecidableEq

/-- `running::State`; a `JoinHandle` and its semaphore are the number of their
task. -/
inductive RunState where
  | idle
  | running (handle : ℕ)
  | finished (result : ℕ)
deriving Repr, DecidableEq

/-- `RunningServer`: its state, and the lock around it. -/
structure RunningServer where
  state : RunState
  readers : ℕ
  writer : Bool
deriving Repr, DecidableEq

/-- `RunningServer::new`. -/
def RunningServer.new : RunningServer where
  state := .idle
  readers := 0
  writer := false

/-- A write lock can be had. -/
def RunningServer.free (server : RunningServer) : Prop :=
  server.writer = false ∧ server.readers = 0

instance (server : RunningServer) : Decidable server.free :=
  inferInstanceAs (Decidable (_ ∧ _))

/-- All servers and all tasks. -/
structure Servers where
  cell : ServerId → RunningServer
  /-- The tasks that were ever spawned, by number. -/
  tasks : List Task
  /-- The tasks whose semaphore has been closed. -/
  closed : ℕ → Bool

/-- Where a `stop` or `join` of a server stands. -/
inductive ServerOp where
  /-- `stop`: about to read the state. -/
  | stopRead
  /-- `join`: about to read the state. -/
  | joinRead
  /-- `join`: waiting for the semaphore, with the read lock. -/
  | joinAcquire
  /-- `join`: about to write the state. -/
  | joinWrite
  /-- `join`: awaiting the handle, with the write lock. -/
  | joinHandle
  | done
deriving Repr, DecidableEq

namespace Servers

/-- No server, no task. -/
def empty : Servers where
  cell _ := .new
  tasks := []
  closed _ := false

/-- A server in another state. -/
def set (w : Servers) (sid : ServerId) (server : RunningServer) : Servers :=
  { w with cell := Function.update w.cell sid server }

/-- The task has finished. -/
def ended (w : Servers) (t : ℕ) : Bool :=
  (w.tasks[t]?).any Task.finished

end Servers

/-- What a `stop` or `join` of a server does until its next lock acquisition or
await; `none` if it has to wait. -/
def ServerOp.step (w : Servers) (sid : ServerId) : ServerOp → Option (Servers × ServerOp)
  | .stopRead =>
      if (w.cell sid).writer then none
      else
        match (w.cell sid).state with
        | .running handle =>
            -- `handle.abort()`: the task ends when it next yields
            some ({ w with closed := Function.update w.closed handle true }, .joinRead)
        | _ => some (w, .done)
  | .joinRead =>
      if (w.cell sid).writer then none
      else
        match (w.cell sid).state with
        | .running _ =>
            some (w.set sid { w.cell sid with readers := (w.cell sid).readers + 1 },
              .joinAcquire)
        | _ => some (w, .done)
  | .joinAcquire =>
      -- the semaphore has no permits: only closing it ends the wait
      match (w.cell sid).state with
      | .running handle =>
          if w.closed handle then
            some (w.set sid { w.cell sid with readers := (w.cell sid).readers - 1 },
              .joinWrite)
          else none
      | _ => none
  | .joinWrite =>
      if (w.cell sid).free then
        match (w.cell sid).state with
        | .running _ => some (w.set sid { w.cell sid with writer := true }, .joinHandle)
        | _ => some (w, .done)
      else none
  | .joinHandle =>
      match (w.cell sid).state with
      | .running handle =>
          if w.ended handle then
            some (w.set sid
              { w.cell sid with
                state := .finished handle
                writer := false }, .done)
          else none
      | _ => none
  | .done => none

namespace Servers

/-- `take_result`. -/
def takeResult (w : Servers) (sid : ServerId) : Option Servers :=
  if (w.cell sid).free then
    match (w.cell sid).state with
    | .finished _ => some (w.set sid { w.cell sid with state := .idle })
    | _ => some w
  else none

/-- `tokio::spawn` in `start`. -/
def spawn (w : Servers) (sid : ServerId) : Servers :=
  { w with tasks := w.tasks ++ [{ server := sid, finished := false }] }

/-- The end of `start`: the handle is stored. -/
def store (w : Servers) (sid : ServerId) (t : ℕ) : Option Servers :=
  if (w.cell sid).free then
    some (w.set sid { w.cell sid with state := .running t })
  else none

/-- A task ends.  It closes its semaphore if it comes to its end by itself; one
that is aborted or panics does not. -/
def taskEnds (w : Servers) (t : ℕ) (closes : Bool) : Option Servers :=
  match w.tasks[t]? with
  | some task =>
      if task.finished then none
      else
        some { w with
          tasks := w.tasks.set t { task with finished := true }
          closed := if closes then Function.update w.closed t true else w.closed }
  | none => none

/-! ## Where the handles are -/

/-- The tasks of a server have all finished. -/
def AllFinished (w : Servers) (sid : ServerId) : Prop :=
  ∀ (t : ℕ) (task : Task), w.tasks[t]? = some task → task.server = sid →
    task.finished = true

/-- Every unfinished task is held by the state of its server, or it is excepted:
`start` has spawned it and is about to store its handle. -/
def Held (w : Servers) (except : ServerId → ℕ → Prop) : Prop :=
  ∀ (t : ℕ) (task : Task), w.tasks[t]? = some task → task.finished = false →
    (w.cell task.server).state = .running t ∨ except task.server t

variable {w w' : Servers} {sid : ServerId} {op op' : ServerOp}
variable {except : ServerId → ℕ → Prop}

@[simp] theorem cell_set_self (server : RunningServer) :
    (w.set sid server).cell sid = server :=
  Function.update_self ..

theorem cell_set_ne {sid' : ServerId} (h : sid' ≠ sid) (server : RunningServer) :
    (w.set sid server).cell sid' = w.cell sid' :=
  Function.update_of_ne h ..

/-- A task of the servers after a spawn is an old one or the new one. -/
theorem getElem?_tasks_spawn {t : ℕ} {task : Task}
    (h : (w.spawn sid).tasks[t]? = some task) :
    w.tasks[t]? = some task ∨ t = w.tasks.length ∧ task.server = sid := by
  simp only [spawn, List.getElem?_append] at h
  split at h
  · exact .inl h
  · rw [List.getElem?_singleton] at h
    split at h
    · cases h
      exact .inr ⟨by omega, rfl⟩
    · cases h

/-- What a step can do: leave all states as they are — and then, if the operation
is done, the server is not running — or put the server of an ended task into its
finished state. -/
theorem step_cases (h : op.step w sid = some (w', op')) :
    w'.tasks = w.tasks ∧
      ((∀ sid', (w'.cell sid').state = (w.cell sid').state) ∧
          (op' = .done → ∀ t, (w.cell sid).state ≠ .running t) ∨
        ∃ t, (w.cell sid).state = .running t ∧ w.ended t = true ∧
          ∀ sid', sid' ≠ sid → w'.cell sid' = w.cell sid') := by
  -- changing a lock changes no state
  have keeps : ∀ server : RunningServer, server.state = (w.cell sid).state →
      ∀ sid', ((w.set sid server).cell sid').state = (w.cell sid').state := by
    intro server hstate sid'
    by_cases hsid : sid' = sid
    · subst hsid
      rwa [cell_set_self]
    · rw [cell_set_ne hsid]
  cases op with
  | stopRead =>
      simp only [ServerOp.step] at h
      split at h
      · cases h
      · cases hstate : (w.cell sid).state <;> simp only [hstate, Option.some.injEq,
          Prod.mk.injEq] at h <;> obtain ⟨rfl, rfl⟩ := h <;> simp
  | joinAcquire =>
      simp only [ServerOp.step] at h
      split at h
      · split at h
        · simp only [Option.some.injEq, Prod.mk.injEq] at h
          obtain ⟨rfl, rfl⟩ := h
          exact ⟨rfl, .inl ⟨keeps _ rfl, by simp⟩⟩
        · cases h
      · cases h
  | joinRead | joinWrite =>
      simp only [ServerOp.step] at h
      -- who finds the lock taken waits
      split at h <;> try cases h
      cases hstate : (w.cell sid).state with
      | running t =>
          simp only [hstate, Option.some.injEq, Prod.mk.injEq] at h
          obtain ⟨rfl, rfl⟩ := h
          exact ⟨rfl, .inl ⟨keeps _ hstate.symm, by simp⟩⟩
      | idle | finished =>
          simp only [hstate, Option.some.injEq, Prod.mk.injEq] at h
          obtain ⟨rfl, rfl⟩ := h
          simp
  | joinHandle =>
      simp only [ServerOp.step] at h
      split at h
      · rename_i t hstate
        split at h
        · rename_i hended
          simp only [Option.some.injEq, Prod.mk.injEq] at h
          obtain ⟨rfl, rfl⟩ := h
          exact ⟨rfl, .inr ⟨t, hstate, hended, fun sid' hsid => cell_set_ne hsid _⟩⟩
        · cases h
      · cases h
  | done => cases h

/-- A task that has ended is not unfinished. -/
theorem finished_of_ended {t : ℕ} {task : Task} (hended : w.ended t = true)
    (htask : w.tasks[t]? = some task) : task.finished = true := by
  simpa [ended, htask] using hended

/-- A step of a `stop` or `join` drops no handle of an unfinished task. -/
theorem Held.step (held : w.Held except) (h : op.step w sid = some (w', op')) :
    w'.Held except := by
  obtain ⟨htasks, ⟨hstates, -⟩ | ⟨t₀, hrunning, hended, hothers⟩⟩ := step_cases h
  · intro t task htask hunfinished
    rw [htasks] at htask
    rw [hstates]
    exact held t task htask hunfinished
  · intro t task htask hunfinished
    rw [htasks] at htask
    rcases held t task htask hunfinished with hstate | hexcept
    · left
      by_cases hsid : task.server = sid
      · -- the handle that is dropped is that of a task that has ended
        rw [hsid, hrunning] at hstate
        cases hstate
        rw [finished_of_ended hended htask] at hunfinished
        cases hunfinished
      · rw [hothers _ hsid]
        exact hstate
    · exact .inr hexcept

/-- A `stop` or `join` that is done leaves no unfinished task. -/
theorem Held.allFinished_of_step (held : w.Held except)
    (hexcept : ∀ t, ¬ except sid t) (h : op.step w sid = some (w', .done)) :
    w'.AllFinished sid := by
  obtain ⟨htasks, hcases⟩ := step_cases h
  intro t task htask hserver
  rw [htasks] at htask
  by_contra hunfinished
  rw [Bool.not_eq_true] at hunfinished
  have hrunning : (w.cell sid).state = .running t := by
    rw [← hserver] at hexcept ⊢
    exact (held t task htask hunfinished).resolve_right (hexcept t)
  rcases hcases with ⟨-, hdone⟩ | ⟨t₀, hrunning₀, hended, -⟩
  · exact hdone rfl t hrunning
  · rw [hrunning] at hrunning₀
    cases hrunning₀
    rw [finished_of_ended hended htask] at hunfinished
    cases hunfinished

theorem tasks_takeResult (h : w.takeResult sid = some w') : w'.tasks = w.tasks := by
  unfold takeResult at h
  split at h
  · split at h <;> cases h <;> rfl
  · cases h

/-- `take_result` drops no handle. -/
theorem Held.takeResult (held : w.Held except) (h : w.takeResult sid = some w') :
    w'.Held except := by
  intro t task htask hunfinished
  rw [tasks_takeResult h] at htask
  rcases held t task htask hunfinished with hstate | hexcept
  · left
    unfold Servers.takeResult at h
    split at h
    · split at h
      · rename_i hfinished
        cases h
        have hsid : task.server ≠ sid := by
          rintro rfl
          rw [hfinished] at hstate
          cases hstate
        rwa [cell_set_ne hsid]
      · cases h
        exact hstate
    · cases h
  · exact .inr hexcept

end Servers

end RabbitDigger
