import Mathlib.Data.List.Nodup
import RabbitDigger.Foundation.Tally
import RabbitDigger.Manager.StartStream

/-!
# A call by itself is never stuck

`start`, `stop` and `join` of the manager take its lock and those of the servers over and over.
When one of them is under way **by itself**, it waits for nothing but tasks (`Busy.enabled`), and
it takes a bounded number of steps (`Moves.left`).

Three things carry this.  The locks that are held can be read off the place of the one call that
is under way (`Locks`), also after a `join` was dropped (`Busy.dropJoin`).  A server whose handle
is awaited is running, and a `stop` has closed its semaphore before it awaits it (`StopHolds`); a
`join` without a `stop` may wait for a server for ever.  And every step of a call brings it nearer
to its end (`Pc.left`).
-/

namespace RabbitDigger

open Transition Tally

/-! ## The locks of a server -/

/-- The read locks on a server that its `stop` or `join` holds. -/
def ServerOp.readers : ServerOp → ℕ
  | .joinAcquire => 1
  | .stopRead | .joinRead | .joinWrite | .joinHandle | .done => 0

/-- It holds the write lock. -/
def ServerOp.writes : ServerOp → Bool
  | .joinHandle => true
  | .stopRead | .joinRead | .joinAcquire | .joinWrite | .done => false

/-- How many steps are left, and one more. -/
def ServerOp.left : ServerOp → ℕ
  | .stopRead => 6
  | .joinRead => 5
  | .joinAcquire => 4
  | .joinWrite => 3
  | .joinHandle => 2
  | .done => 1

namespace Servers

/-- The locks on a server are those of an operation. -/
def LockedBy (w : Servers) (sid : ServerId) (op : ServerOp) : Prop :=
  (w.cell sid).readers = op.readers ∧ (w.cell sid).writer = op.writes

/-- The server has no handle of a task. -/
def NotRunning (w : Servers) (sid : ServerId) : Prop :=
  ∀ handle, (w.cell sid).state ≠ .running handle

/-- What a `stop` of a server finds where it stands: the semaphore is closed. -/
def StopHolds (w : Servers) (sid : ServerId) : ServerOp → Prop
  | .stopRead => True
  | .joinRead | .joinWrite =>
      ∀ handle, (w.cell sid).state = .running handle → w.closed handle = true
  | .joinAcquire | .joinHandle =>
      ∃ handle, (w.cell sid).state = .running handle ∧ w.closed handle = true
  | .done => w.NotRunning sid

/-- The handles are those of tasks. -/
def Handles (w : Servers) : Prop :=
  ∀ sid handle, (w.cell sid).state = .running handle → handle < w.tasks.length

section Step

variable {w w' : Servers} {sid : ServerId} {op op' : ServerOp}

/-- All that a step of a `stop` or `join` of a server can do. -/
inductive Stepped (w : Servers) (sid : ServerId) : ServerOp → Servers → ServerOp → Prop where
  | abort {handle : ℕ} : (w.cell sid).state = .running handle →
      Stepped w sid .stopRead { w with closed := Function.update w.closed handle true } .joinRead
  | nothing {op : ServerOp} : op = .stopRead ∨ op = .joinRead ∨ op = .joinWrite →
      w.NotRunning sid → Stepped w sid op w .done
  | read {handle : ℕ} : (w.cell sid).state = .running handle →
      Stepped w sid .joinRead
        (w.set sid { w.cell sid with readers := (w.cell sid).readers + 1 }) .joinAcquire
  | acquired {handle : ℕ} : (w.cell sid).state = .running handle → w.closed handle = true →
      Stepped w sid .joinAcquire
        (w.set sid { w.cell sid with readers := (w.cell sid).readers - 1 }) .joinWrite
  | locked {handle : ℕ} : (w.cell sid).free → (w.cell sid).state = .running handle →
      Stepped w sid .joinWrite (w.set sid { w.cell sid with writer := true }) .joinHandle
  | joined {handle : ℕ} : (w.cell sid).state = .running handle →
      Stepped w sid .joinHandle
        (w.set sid { w.cell sid with state := .finished handle, writer := false }) .done

theorem stepped_of_step (h : op.step w sid = some (w', op')) : Stepped w sid op w' op' := by
  cases op with
  | stopRead =>
      simp only [ServerOp.step] at h
      split at h
      · cases h
      · split at h <;> cases h
        · rename_i hstate
          exact .abort hstate
        · rename_i hstate
          exact .nothing (.inl rfl) hstate
  | joinRead =>
      simp only [ServerOp.step] at h
      split at h
      · cases h
      · split at h <;> cases h
        · rename_i hstate
          exact .read hstate
        · rename_i hstate
          exact .nothing (.inr (.inl rfl)) hstate
  | joinAcquire =>
      simp only [ServerOp.step] at h
      split at h
      · rename_i hstate
        split at h
        · rename_i hclosed
          cases h
          exact .acquired hstate hclosed
        · cases h
      · cases h
  | joinWrite =>
      simp only [ServerOp.step] at h
      split at h
      · rename_i hfree
        split at h <;> cases h
        · rename_i hstate
          exact .locked hfree hstate
        · rename_i hstate
          exact .nothing (.inr (.inr rfl)) hstate
      · cases h
  | joinHandle =>
      simp only [ServerOp.step] at h
      split at h
      · rename_i hstate
        split at h
        · cases h
          exact .joined hstate
        · cases h
      · cases h
  | done => cases h

theorem Stepped.left (h : Stepped w sid op w' op') : op'.left < op.left := by
  cases h with
  | nothing hop =>
      rcases hop with rfl | rfl | rfl <;> decide
  | _ => decide

theorem Stepped.cell_ne (h : Stepped w sid op w' op') {sid' : ServerId} (hne : sid' ≠ sid) :
    w'.cell sid' = w.cell sid' := by
  cases h with
  | abort | nothing => rfl
  | read | acquired | locked | joined => exact cell_set_ne hne _

theorem Stepped.tasks (h : Stepped w sid op w' op') : w'.tasks = w.tasks := by
  cases h <;> rfl

/-- **Locks follow the operation.** -/
theorem LockedBy.step (locked : w.LockedBy sid op) (h : Stepped w sid op w' op') :
    w'.LockedBy sid op' := by
  obtain ⟨hreaders, hwriter⟩ := locked
  cases h with
  | abort => exact ⟨hreaders, hwriter⟩
  | nothing hop =>
      rcases hop with rfl | rfl | rfl <;> exact ⟨hreaders, hwriter⟩
  | read =>
      refine ⟨?_, ?_⟩ <;> rw [cell_set_self]
      · exact congrArg (· + 1) hreaders
      · exact hwriter
  | acquired =>
      refine ⟨?_, ?_⟩ <;> rw [cell_set_self]
      · exact congrArg (· - 1) hreaders
      · exact hwriter
  | locked | joined =>
      refine ⟨?_, ?_⟩ <;> rw [cell_set_self]
      · exact hreaders
      · rfl

/-- A server that runs after a step ran before it. -/
theorem Stepped.running (h : Stepped w sid op w' op') {sid' : ServerId} {handle : ℕ}
    (hrunning : (w'.cell sid').state = .running handle) :
    (w.cell sid').state = .running handle := by
  by_cases hsid : sid' = sid
  · subst hsid
    cases h with
    | abort | nothing => exact hrunning
    | read | acquired | locked =>
        rw [cell_set_self] at hrunning
        exact hrunning
    | joined =>
        rw [cell_set_self] at hrunning
        cases hrunning
  · rwa [h.cell_ne hsid] at hrunning

theorem NotRunning.step {sid' : ServerId} (hnot : w.NotRunning sid')
    (h : Stepped w sid op w' op') : w'.NotRunning sid' :=
  fun handle hrunning => hnot handle (h.running hrunning)

theorem StopHolds.step (holds : w.StopHolds sid op) (h : Stepped w sid op w' op') :
    w'.StopHolds sid op' := by
  cases h with
  | @abort handle hstate =>
      intro handle' hstate'
      cases hstate.symm.trans hstate'
      exact Function.update_self ..
  | nothing _ hnot => exact hnot
  | @read handle hstate =>
      exact ⟨handle, by rw [cell_set_self]; exact hstate, holds handle hstate⟩
  | @acquired handle hstate hclosed =>
      intro handle' hstate'
      rw [cell_set_self] at hstate'
      cases hstate.symm.trans hstate'
      exact hclosed
  | @locked handle _ hstate =>
      exact ⟨handle, by rw [cell_set_self]; exact hstate, holds handle hstate⟩
  | joined =>
      intro handle' hstate'
      rw [cell_set_self] at hstate'
      cases hstate'

/-- **A `stop` of a server waits for nothing but its task.** -/
theorem StopHolds.enabled (holds : w.StopHolds sid op) (locked : w.LockedBy sid op)
    (handles : w.Handles) (hop : op ≠ .done) :
    (∃ w' op', op.step w sid = some (w', op')) ∨
      ∃ t task, w.tasks[t]? = some task ∧ task.finished = false ∧ w.closed t = true := by
  obtain ⟨hreaders, hwriter⟩ := locked
  cases op with
  | stopRead | joinRead =>
      left
      simp only [ServerOp.step, show (w.cell sid).writer = false from hwriter, if_neg,
        Bool.false_eq_true, not_false_eq_true]
      split <;> exact ⟨_, _, rfl⟩
  | joinAcquire =>
      left
      obtain ⟨handle, hstate, hclosed⟩ := holds
      simp only [ServerOp.step, hstate, hclosed, if_pos]
      exact ⟨_, _, rfl⟩
  | joinWrite =>
      left
      have hfree : (w.cell sid).free := ⟨hwriter, hreaders⟩
      simp only [ServerOp.step, if_pos hfree]
      split <;> exact ⟨_, _, rfl⟩
  | joinHandle =>
      obtain ⟨handle, hstate, hclosed⟩ := holds
      obtain ⟨task, htask⟩ : ∃ task, w.tasks[handle]? = some task :=
        ⟨_, List.getElem?_eq_getElem (handles sid handle hstate)⟩
      cases hfinished : task.finished with
      | false => exact .inr ⟨handle, task, htask, hfinished, hclosed⟩
      | true =>
          left
          have hended : w.ended handle = true := by simp [ended, htask, hfinished]
          simp only [ServerOp.step, hstate, hended, if_pos]
          exact ⟨_, _, rfl⟩
  | done => exact absurd rfl hop

/-- Nothing is there to stop: the first step is the last one. -/
theorem NotRunning.enabled (hnot : w.NotRunning sid) (locked : w.LockedBy sid op)
    (hop : op = .stopRead ∨ op = .joinRead) : op.step w sid = some (w, .done) := by
  obtain ⟨-, hwriter⟩ := locked
  have hwriter : (w.cell sid).writer = false := by rcases hop with rfl | rfl <;> exact hwriter
  have hfalse : ¬ (w.cell sid).writer = true := by simp [hwriter]
  rcases hop with rfl | rfl
  all_goals
    rw [ServerOp.step, if_neg hfalse]
    split
    · rename_i handle hstate
      exact absurd hstate (hnot handle)
    · rfl

end Step

end Servers

/-! ## The locks of a call -/

/-- What one of the futures that `join` races does with its server. -/
def Race.op : Race → ServerOp
  | .joining op => op
  | .taking | .done => .done

/-- How many steps it has left. -/
def Race.left : Race → ℕ
  | .joining op => op.left
  | .taking => 1
  | .done => 0

/-- The read locks that a call holds. -/
def Pc.readers : Pc → ℕ
  | .stopping _ _ | .racing _ _ => 1
  | .stopRead | .joinRead | .joinWrite _ | .startWrite | .starting _ _ | .returned => 0

/-- It holds the write lock. -/
def Pc.writes : Pc → Bool
  | .starting _ _ => true
  | .stopRead | .stopping _ _ | .joinRead | .racing _ _ | .joinWrite _ | .startWrite
  | .returned => false

/-- The locks on the servers that a call holds. -/
def ServerLocks (w : Servers) : Pc → Prop
  | .stopping (sid :: _) op => ∀ sid', w.LockedBy sid' (if sid' = sid then op else .done)
  | .starting (sid :: _) (.stopping op) =>
      ∀ sid', w.LockedBy sid' (if sid' = sid then op else .done)
  | .racing ent race => (∀ entry ∈ race, w.LockedBy entry.1 entry.2.op) ∧
      ∀ sid, sid ∉ ent.servers → w.LockedBy sid .done
  | _ => ∀ sid, w.LockedBy sid .done

/-- **All locks that are held are held by one call.** -/
structure Locks (sh : Shared) (pc : Pc) : Prop where
  readers : sh.readers = pc.readers
  writer : sh.writer = pc.writes
  servers : ServerLocks sh.servers pc

/-- What a call finds where it stands.  A `stop` has left no server running behind it, and the
servers that a `start` has still to start are not running yet. -/
def Phase (w : Servers) (state : Option Entities) (kind : CallKind) : Pc → Prop
  | .stopRead => kind ≠ .join
  | .stopping todo op => kind ≠ .join ∧
      (∀ ent, state = some ent → ∀ sid ∈ ent.servers, sid ∉ todo → w.NotRunning sid) ∧
        ∀ sid rest, todo = sid :: rest → w.StopHolds sid op
  | .joinRead => kind ≠ .join → ∀ ent, state = some ent → ∀ sid ∈ ent.servers, w.NotRunning sid
  | .racing ent race => race.map Prod.fst = ent.servers ∧ ent.servers.Nodup ∧
      (kind ≠ .join → ∀ entry ∈ race, w.NotRunning entry.1 ∧
        ∀ op, entry.2 = .joining op → op = .joinRead)
  | .starting todo stage => todo.Nodup ∧ (∀ sid ∈ todo, w.NotRunning sid) ∧
      match stage with
      | .stopping op => op = .stopRead ∨ op = .done
      | .storing handle => handle < w.tasks.length
  | .startWrite => ∃ names serializes, kind = .start names serializes
  | .joinWrite _ | .returned => True

/-- The call has not come to starting servers. -/
def Pc.Unstarted : Pc → Prop
  | .starting _ _ | .returned => False
  | .stopRead | .stopping _ _ | .joinRead | .racing _ _ | .joinWrite _ | .startWrite => True

/-- The servers of a config have different names. -/
def CallKind.Distinct : CallKind → Prop
  | .start names _ => names.Nodup
  | .stop | .join => True

/-- One call is under way, and this is what it holds and finds. -/
structure Busy (m : Manager) (id : ℕ) (kind : CallKind) (pc : Pc) : Prop where
  locks : Locks m.shared pc
  phase : Phase m.shared.servers m.shared.state kind pc
  handles : m.shared.servers.Handles
  fresh : ∀ sid : ServerId, m.calls.length ≤ sid.owner → m.shared.servers.NotRunning sid
  unstarted : pc.Unstarted → ∀ names serializes, kind = .start names serializes →
    ∀ name, m.shared.servers.NotRunning ⟨id, name⟩
  distinct : kind.Distinct
  state : ∀ ent, m.shared.state = some ent → ent.servers.Nodup

/-- No call is under way, and no lock is held. -/
structure Free (m : Manager) : Prop where
  locks : Locks m.shared .returned
  handles : m.shared.servers.Handles
  fresh : ∀ sid : ServerId, m.calls.length ≤ sid.owner → m.shared.servers.NotRunning sid
  state : ∀ ent, m.shared.state = some ent → ent.servers.Nodup

theorem nodup_servers {names : List String} (h : names.Nodup) (id : ℕ) :
    (names.map (ServerId.mk id)).Nodup :=
  List.Nodup.map (fun _ _ heq => (ServerId.mk.inj heq).2) h

section Locks

variable {w w' : Servers} {sid : ServerId} {op op' : ServerOp}

theorem serverLocks_stopping (h : ∀ sid, w.LockedBy sid .done) (todo : List ServerId) :
    ServerLocks w (.stopping todo .stopRead) := by
  cases todo with
  | nil => exact h
  | cons sid todo =>
      intro sid'
      split <;> exact h sid'

theorem serverLocks_starting (h : ∀ sid, w.LockedBy sid .done) (todo : List ServerId) :
    ServerLocks w (.starting todo (.stopping .stopRead)) := by
  cases todo with
  | nil => exact h
  | cons sid todo =>
      intro sid'
      split <;> exact h sid'

/-- The other servers are not touched. -/
theorem lockedBy_step (h : Servers.Stepped w sid op w' op')
    (locked : ∀ sid', w.LockedBy sid' (if sid' = sid then op else .done)) (sid' : ServerId) :
    w'.LockedBy sid' (if sid' = sid then op' else .done) := by
  have hlocked := locked sid'
  by_cases hsid : sid' = sid
  · subst hsid
    rw [if_pos rfl] at hlocked ⊢
    exact hlocked.step h
  · rw [if_neg hsid] at hlocked ⊢
    unfold Servers.LockedBy
    rw [h.cell_ne hsid]
    exact hlocked

/-- An operation that is done holds nothing. -/
theorem lockedBy_done (locked : ∀ sid', w.LockedBy sid' (if sid' = sid then .done else .done))
    (sid' : ServerId) : w.LockedBy sid' .done := by
  have hlocked := locked sid'
  rwa [ite_self] at hlocked

/-- A server in another state, with the same locks. -/
theorem Servers.LockedBy.set_state {sid' : ServerId} (locked : w.LockedBy sid' op)
    (state : RunState) :
    (w.set sid { w.cell sid with state := state }).LockedBy sid' op := by
  by_cases hsid : sid' = sid
  · subst hsid
    unfold Servers.LockedBy
    rw [Servers.cell_set_self]
    exact locked
  · unfold Servers.LockedBy
    rw [Servers.cell_set_ne hsid]
    exact locked

/-- What `take_result` can do. -/
theorem Servers.takeResult_cases (h : w.takeResult sid = some w') :
    w' = w ∨ w' = w.set sid { w.cell sid with state := .idle } := by
  unfold Servers.takeResult at h
  split at h
  · split at h <;> cases h
    · exact .inr rfl
    · exact .inl rfl
  · cases h

theorem Servers.LockedBy.takeResult {sid' : ServerId} (locked : w.LockedBy sid' op)
    (h : w.takeResult sid = some w') : w'.LockedBy sid' op := by
  rcases Servers.takeResult_cases h with rfl | rfl
  · exact locked
  · exact locked.set_state _

/-- A server that runs after `take_result` ran before it. -/
theorem Servers.running_of_takeResult (h : w.takeResult sid = some w') {sid' : ServerId}
    {handle : ℕ} (hrunning : (w'.cell sid').state = .running handle) :
    (w.cell sid').state = .running handle := by
  rcases Servers.takeResult_cases h with rfl | rfl
  · exact hrunning
  · by_cases hsid : sid' = sid
    · subst hsid
      rw [Servers.cell_set_self] at hrunning
      cases hrunning
    · rwa [Servers.cell_set_ne hsid] at hrunning

theorem Servers.store_eq {t : ℕ} (h : w.store sid t = some w') :
    w' = w.set sid { w.cell sid with state := .running t } := by
  unfold Servers.store at h
  split at h
  · exact (Option.some.inj h).symm
  · cases h

/-- The entries of a race that stay as they are belong to other servers. -/
theorem mem_set_race {race : List (ServerId × Race)} (hnodup : (race.map Prod.fst).Nodup)
    {choice : ℕ} {old new : Race} (hentry : race[choice]? = some (sid, old))
    {entry : ServerId × Race} (hmem : entry ∈ race.set choice (sid, new)) :
    entry = (sid, new) ∨ entry ∈ race ∧ entry.1 ≠ sid := by
  obtain ⟨i, hi⟩ := List.getElem?_of_mem hmem
  by_cases hchoice : choice = i
  · subst hchoice
    obtain ⟨hlt, -⟩ := List.getElem?_eq_some_iff.mp hentry
    rw [List.getElem?_set_self hlt] at hi
    exact .inl (Option.some.inj hi).symm
  · rw [List.getElem?_set_ne hchoice] at hi
    refine .inr ⟨List.mem_of_getElem? hi, fun hsid => hchoice ?_⟩
    have hone : (race.map Prod.fst)[choice]? = some sid := by rw [List.getElem?_map, hentry]; rfl
    have htwo : (race.map Prod.fst)[i]? = some sid := by rw [List.getElem?_map, hi, ← hsid]; rfl
    obtain ⟨hlt, -⟩ := List.getElem?_eq_some_iff.mp hone
    exact (List.getElem?_inj hlt hnodup).mp (hone.trans htwo.symm)

theorem map_fst_set {race : List (ServerId × Race)} {choice : ℕ} {old new : Race}
    (hentry : race[choice]? = some (sid, old)) :
    (race.set choice (sid, new)).map Prod.fst = race.map Prod.fst := by
  refine List.ext_getElem? fun i => ?_
  rw [List.getElem?_map, List.getElem?_map]
  by_cases hchoice : choice = i
  · subst hchoice
    obtain ⟨hlt, -⟩ := List.getElem?_eq_some_iff.mp hentry
    rw [List.getElem?_set_self hlt, hentry]
    rfl
  · rw [List.getElem?_set_ne hchoice]

end Locks

section Moves

variable {sh sh' : Shared} {id : ℕ} {kind : CallKind} {pc pc' : Pc}

/-- **A call holds what it says.** -/
theorem Locks.moves (locks : Locks sh pc) (phase : Phase sh.servers sh.state kind pc)
    (h : Moves sh id kind pc sh' pc') : Locks sh' pc' := by
  obtain ⟨hreaders, hwriter, hservers⟩ := locks
  cases h with
  | stopIdle => exact ⟨hreaders, hwriter, hservers⟩
  | stopRunning => exact ⟨congrArg (· + 1) hreaders, hwriter, serverLocks_stopping hservers _⟩
  | stopNext =>
      exact ⟨hreaders, hwriter, serverLocks_stopping (lockedBy_done hservers) _⟩
  | stopServer hop =>
      exact ⟨hreaders, hwriter, lockedBy_step (Servers.stepped_of_step hop) hservers⟩
  | stopped => exact ⟨congrArg (· - 1) hreaders, hwriter, hservers⟩
  | joinIdle | joined => cases kind <;> exact ⟨hreaders, hwriter, hservers⟩
  | joinRunning =>
      refine ⟨congrArg (· + 1) hreaders, hwriter, ?_, fun sid _ => hservers sid⟩
      intro entry hmem
      obtain ⟨sid, -, rfl⟩ := List.mem_map.mp hmem
      exact hservers sid
  | @joinServer ent race choice sid op op' servers hentry hop =>
      obtain ⟨hrace, hnodup, -⟩ := phase
      obtain ⟨hentries, hothers⟩ := hservers
      have hstepped := Servers.stepped_of_step hop
      have hsid : sid ∈ ent.servers := hrace ▸ List.mem_map_of_mem (List.mem_of_getElem? hentry)
      refine ⟨hreaders, hwriter, fun entry hmem => ?_, fun sid' hsid' => ?_⟩
      · rcases mem_set_race (hrace ▸ hnodup) hentry hmem with rfl | ⟨hold, hne⟩
        · have hlocked := (hentries _ (List.mem_of_getElem? hentry)).step hstepped
          show servers.LockedBy sid (if op' = .done then Race.taking else .joining op').op
          split
          · rename_i hdone
            subst hdone
            exact hlocked
          · exact hlocked
        · have hlocked := hentries entry hold
          show servers.LockedBy entry.1 entry.2.op
          unfold Servers.LockedBy
          rw [hstepped.cell_ne hne]
          exact hlocked
      · have hne : sid' ≠ sid := fun heq => hsid' (heq ▸ hsid)
        show servers.LockedBy sid' .done
        unfold Servers.LockedBy
        rw [hstepped.cell_ne hne]
        exact hothers sid' hsid'
  | @takeResult ent race choice sid servers hentry hop =>
      obtain ⟨hrace, hnodup, -⟩ := phase
      obtain ⟨hentries, hothers⟩ := hservers
      refine ⟨hreaders, hwriter, fun entry hmem => ?_, fun sid' hsid' => ?_⟩
      · rcases mem_set_race (hrace ▸ hnodup) hentry hmem with rfl | ⟨hold, -⟩
        · exact (hentries _ (List.mem_of_getElem? hentry)).takeResult hop
        · exact (hentries entry hold).takeResult hop
      · exact (hothers sid' hsid').takeResult hop
  | @raced ent race hdone =>
      obtain ⟨hrace, -, -⟩ := phase
      obtain ⟨hentries, hothers⟩ := hservers
      refine ⟨congrArg (· - 1) hreaders, hwriter, fun sid => ?_⟩
      by_cases hsid : sid ∈ ent.servers
      · rw [← hrace] at hsid
        obtain ⟨entry, hmem, rfl⟩ := List.mem_map.mp hsid
        have hlocked := hentries entry hmem
        rwa [hdone entry hmem] at hlocked
      · exact hothers sid hsid
  | locked => exact ⟨hreaders, rfl, serverLocks_starting hservers _⟩
  | spawned => exact ⟨hreaders, hwriter, lockedBy_done hservers⟩
  | startServer hop =>
      exact ⟨hreaders, hwriter, lockedBy_step (Servers.stepped_of_step hop) hservers⟩
  | stored hstore =>
      cases Servers.store_eq hstore
      exact ⟨hreaders, hwriter, serverLocks_starting (fun sid => (hservers sid).set_state _) _⟩
  | started => exact ⟨hreaders, rfl, hservers⟩

/-- A server that runs after a step of a call ran before it, or its handle was stored by the
step. -/
theorem Moves.running (h : Moves sh id kind pc sh' pc') {sid : ServerId} {t : ℕ}
    (hrunning : (sh'.servers.cell sid).state = .running t) :
    (sh.servers.cell sid).state = .running t ∨
      ∃ todo, pc = .starting (sid :: todo) (.storing t) := by
  cases h with
  | stopServer hop | joinServer _ hop | startServer hop =>
      exact .inl ((Servers.stepped_of_step hop).running hrunning)
  | takeResult _ hop => exact .inl (Servers.running_of_takeResult hop hrunning)
  | @stored sid' todo handle servers hstore =>
      cases Servers.store_eq hstore
      by_cases hsid : sid = sid'
      · subst hsid
        rw [Servers.cell_set_self] at hrunning
        cases hrunning
        exact .inr ⟨todo, rfl⟩
      · rw [Servers.cell_set_ne hsid] at hrunning
        exact .inl hrunning
  | _ => exact .inl hrunning

/-- Tasks are not forgotten. -/
theorem Moves.tasks (h : Moves sh id kind pc sh' pc') :
    sh'.servers.tasks = sh.servers.tasks ∨
      ∃ sid, sh'.servers.tasks = sh.servers.tasks ++ [⟨sid, false⟩] := by
  cases h with
  | stopServer hop | joinServer _ hop | startServer hop =>
      exact .inl (Servers.stepped_of_step hop).tasks
  | takeResult _ hop => exact .inl (Servers.tasks_takeResult hop)
  | @spawned sid todo => exact .inr ⟨sid, rfl⟩
  | stored hstore =>
      cases Servers.store_eq hstore
      exact .inl rfl
  | _ => exact .inl rfl

/-- **What a call finds, it finds again.** -/
theorem Phase.moves (phase : Phase sh.servers sh.state kind pc)
    (hstate : ∀ ent, sh.state = some ent → ent.servers.Nodup)
    (hdistinct : kind.Distinct)
    (hunstarted : pc.Unstarted → ∀ names serializes, kind = .start names serializes →
      ∀ name, sh.servers.NotRunning ⟨id, name⟩)
    (h : Moves sh id kind pc sh' pc') : Phase sh'.servers sh'.state kind pc' := by
  have hafter : ∀ {w : Servers} {state : Option Entities}, Phase w state kind kind.afterJoin := by
    intro w state
    cases kind with
    | start names serializes => exact ⟨names, serializes, rfl⟩
    | stop | join => trivial
  cases h with
  | stopIdle _ hnone =>
      intro _ ent hent
      cases hnone.symm.trans hent
  | stopRunning _ hsome =>
      refine ⟨phase, fun ent hent sid hmem hnot => ?_, fun sid rest _ => trivial⟩
      cases hsome.symm.trans hent
      exact absurd hmem hnot
  | @stopNext sid todo =>
      obtain ⟨hkind, hbehind, hsid⟩ := phase
      refine ⟨hkind, fun ent hent sid' hmem hnot => ?_, fun sid rest _ => trivial⟩
      by_cases heq : sid' = sid
      · exact heq ▸ hsid sid todo rfl
      · exact hbehind ent hent sid' hmem (by simp [heq, hnot])
  | @stopServer sid todo op op' servers hop =>
      obtain ⟨hkind, hbehind, hsid⟩ := phase
      have hstepped := Servers.stepped_of_step hop
      refine ⟨hkind, fun ent hent sid' hmem hnot => (hbehind ent hent sid' hmem hnot).step hstepped,
        ?_⟩
      intro sid' rest heq
      cases heq
      exact (hsid sid todo rfl).step hstepped
  | stopped =>
      intro _ ent hent sid hmem
      exact phase.2.1 ent hent sid hmem List.not_mem_nil
  | joinIdle | joined => exact hafter
  | @joinRunning ent _ hsome =>
      refine ⟨?_, hstate ent hsome, fun hkind entry hmem => ?_⟩
      · rw [List.map_map]
        exact List.map_id _
      · obtain ⟨sid, hsid, rfl⟩ := List.mem_map.mp hmem
        refine ⟨phase hkind ent hsome sid hsid, fun op hop => ?_⟩
        cases hop
        rfl
  | @joinServer ent race choice sid op op' servers hentry hop =>
      obtain ⟨hrace, hnodup, hstopped⟩ := phase
      have hstepped := Servers.stepped_of_step hop
      refine ⟨(map_fst_set hentry).trans hrace, hnodup, fun hkind entry hmem => ?_⟩
      rcases mem_set_race (hrace ▸ hnodup) hentry hmem with rfl | ⟨hold, -⟩
      · obtain ⟨hnot, hjoining⟩ := hstopped hkind _ (List.mem_of_getElem? hentry)
        refine ⟨hnot.step hstepped, fun op'' hop'' => ?_⟩
        cases hjoining op rfl
        -- there is nothing to wait for, so the step is the last one
        cases hstepped with
        | nothing => cases hop''
        | read hrunning => exact absurd hrunning (hnot _)
      · obtain ⟨hnot, hjoining⟩ := hstopped hkind entry hold
        exact ⟨hnot.step hstepped, hjoining⟩
  | @takeResult ent race choice sid servers hentry hop =>
      obtain ⟨hrace, hnodup, hstopped⟩ := phase
      refine ⟨(map_fst_set hentry).trans hrace, hnodup, fun hkind entry hmem => ?_⟩
      have htake : ∀ {sid'}, sh.servers.NotRunning sid' → servers.NotRunning sid' :=
        fun hnot handle hrunning => hnot handle (Servers.running_of_takeResult hop hrunning)
      rcases mem_set_race (hrace ▸ hnodup) hentry hmem with rfl | ⟨hold, -⟩
      · obtain ⟨hnot, -⟩ := hstopped hkind _ (List.mem_of_getElem? hentry)
        exact ⟨htake hnot, nofun⟩
      · obtain ⟨hnot, hjoining⟩ := hstopped hkind entry hold
        exact ⟨htake hnot, hjoining⟩
  | raced | started => trivial
  | @locked names serializes hkind =>
      refine ⟨nodup_servers ?_ id, fun sid hmem => ?_, .inl rfl⟩
      · subst hkind
        exact hdistinct
      · obtain ⟨name, -, rfl⟩ := List.mem_map.mp hmem
        exact hunstarted trivial names serializes hkind name
  | spawned =>
      obtain ⟨hnodup, hnot, -⟩ := phase
      refine ⟨hnodup, hnot, ?_⟩
      simp [Servers.spawn]
  | @startServer sid todo op op' servers hop =>
      obtain ⟨hnodup, hnot, hstage⟩ := phase
      have hstepped := Servers.stepped_of_step hop
      refine ⟨hnodup, fun sid' hmem => (hnot sid' hmem).step hstepped, .inr ?_⟩
      rcases hstage with rfl | rfl
      · cases hstepped with
        | abort hrunning => exact absurd hrunning (hnot sid List.mem_cons_self _)
        | nothing => rfl
      · cases hop
  | @stored sid todo handle servers hstore =>
      obtain ⟨hnodup, hnot, -⟩ := phase
      cases Servers.store_eq hstore
      obtain ⟨hsid, hrest⟩ := List.nodup_cons.mp hnodup
      refine ⟨hrest, fun sid' hmem handle' hrunning => ?_, .inl rfl⟩
      have hne : sid' ≠ sid := fun heq => hsid (heq ▸ hmem)
      rw [Servers.cell_set_ne hne] at hrunning
      exact hnot sid' (List.mem_cons_of_mem _ hmem) handle' hrunning

/-- Not having come to starting servers. -/
theorem Moves.unstarted (h : Moves sh id kind pc sh' pc') (hpc' : pc'.Unstarted) :
    pc.Unstarted := by
  cases h <;> trivial

end Moves

/-! ## One call -/

section Busy

variable {m : Manager} {id : ℕ} {kind : CallKind} {pc pc' : Pc} {sh : Shared}

theorem Free.enter (h : Free m) (kind : CallKind) (hnames : kind.Distinct) :
    Busy { m with calls := m.calls ++ [⟨kind, kind.entry⟩] } m.calls.length kind kind.entry where
  locks := by
    obtain ⟨hreaders, hwriter, hservers⟩ := h.locks
    cases kind <;> exact ⟨hreaders, hwriter, hservers⟩
  phase := by
    cases kind with
    | start | stop => exact nofun
    | join => exact fun hkind => absurd rfl hkind
  handles := h.handles
  fresh := by
    intro sid hsid
    rw [List.length_append] at hsid
    exact h.fresh sid (Nat.le_of_succ_le hsid)
  unstarted := fun _ _ _ _ name => h.fresh ⟨m.calls.length, name⟩ (Nat.le_refl _)
  distinct := hnames
  state := h.state

theorem Busy.free (h : Busy m id kind .returned) : Free m :=
  ⟨h.locks, h.handles, h.fresh, h.state⟩

/-- A step of the call. -/
theorem Busy.moves (h : Busy m id kind pc) (hid : id < m.calls.length)
    (hsound : PcHolds m.shared.servers m.calls id kind pc)
    (hmoves : Moves m.shared id kind pc sh pc') :
    Busy ⟨sh, m.calls.set id ⟨kind, pc'⟩⟩ id kind pc' where
  locks := h.locks.moves h.phase hmoves
  phase := h.phase.moves h.state h.distinct h.unstarted hmoves
  handles := by
    intro sid t hrunning
    have hlength : m.shared.servers.tasks.length ≤ sh.servers.tasks.length := by
      rcases hmoves.tasks with heq | ⟨_, heq⟩ <;> simp [heq]
    rcases hmoves.running hrunning with hbefore | ⟨todo, rfl⟩
    · exact Nat.lt_of_lt_of_le (h.handles sid t hbefore) hlength
    · exact Nat.lt_of_lt_of_le h.phase.2.2 hlength
  fresh := by
    intro sid hsid t hrunning
    rw [List.length_set] at hsid
    rcases hmoves.running hrunning with hbefore | ⟨todo, rfl⟩
    · exact h.fresh sid hsid t hbefore
    · -- a handle is stored in a server of the call
      obtain ⟨⟨names, serializes, -, htodo⟩, -⟩ := hsound
      obtain ⟨name, -, rfl⟩ := List.mem_map.mp (htodo sid List.mem_cons_self)
      exact absurd hid (Nat.not_lt.mpr hsid)
  unstarted := by
    intro hpc' names serializes hkind name t hrunning
    rcases hmoves.running hrunning with hbefore | ⟨todo, rfl⟩
    · exact h.unstarted (hmoves.unstarted hpc') names serializes hkind name t hbefore
    · exact hmoves.unstarted hpc'
  distinct := h.distinct
  state := by
    intro ent hent
    rcases hmoves.state with hstate | hstate | ⟨names, serializes, hkind, hstate⟩
    · exact h.state ent (hstate ▸ hent)
    · cases hstate.symm.trans hent
    · cases hstate.symm.trans hent
      subst hkind
      exact nodup_servers h.distinct id

/-! ### Tasks that end -/

/-- What a task that ends leaves as it is. -/
theorem Servers.taskEnds_cases {w w' : Servers} {t : ℕ} {closes : Bool}
    (h : w.taskEnds t closes = some w') :
    w'.cell = w.cell ∧ w'.tasks.length = w.tasks.length ∧
      ∀ t', w.closed t' = true → w'.closed t' = true := by
  unfold Servers.taskEnds at h
  split at h
  · split at h
    · cases h
    · cases h
      refine ⟨rfl, List.length_set, fun t' ht' => ?_⟩
      show (if closes = true then Function.update w.closed t true else w.closed) t' = true
      split
      · by_cases heq : t' = t
        · rw [heq, Function.update_self]
        · rwa [Function.update_of_ne heq]
      · exact ht'
  · cases h

theorem Servers.StopHolds.mono {w w' : Servers} {sid : ServerId} {op : ServerOp}
    (holds : w.StopHolds sid op) (hcell : w'.cell = w.cell)
    (hclosed : ∀ t, w.closed t = true → w'.closed t = true) : w'.StopHolds sid op := by
  cases op with
  | stopRead => trivial
  | joinRead | joinWrite =>
      intro handle hstate
      rw [hcell] at hstate
      exact hclosed handle (holds handle hstate)
  | joinAcquire | joinHandle =>
      obtain ⟨handle, hstate, hhandle⟩ := holds
      exact ⟨handle, by rw [hcell]; exact hstate, hclosed handle hhandle⟩
  | done =>
      intro handle hstate
      rw [hcell] at hstate
      exact holds handle hstate

theorem Phase.mono {w w' : Servers} {state : Option Entities} (phase : Phase w state kind pc)
    (hcell : w'.cell = w.cell) (htasks : w'.tasks.length = w.tasks.length)
    (hclosed : ∀ t, w.closed t = true → w'.closed t = true) : Phase w' state kind pc := by
  have hnot : ∀ {sid}, w.NotRunning sid → w'.NotRunning sid := by
    intro sid h handle hstate
    rw [hcell] at hstate
    exact h handle hstate
  cases pc with
  | stopping todo op =>
      obtain ⟨hkind, hbehind, hsid⟩ := phase
      exact ⟨hkind, fun ent hent sid hmem hsid => hnot (hbehind ent hent sid hmem hsid),
        fun sid rest heq => (hsid sid rest heq).mono hcell hclosed⟩
  | joinRead => exact fun hkind ent hent sid hmem => hnot (phase hkind ent hent sid hmem)
  | racing ent race =>
      obtain ⟨hrace, hnodup, hstopped⟩ := phase
      refine ⟨hrace, hnodup, fun hkind entry hmem => ?_⟩
      obtain ⟨hentry, hjoining⟩ := hstopped hkind entry hmem
      exact ⟨hnot hentry, hjoining⟩
  | starting todo stage =>
      obtain ⟨hnodup, htodo, hstage⟩ := phase
      refine ⟨hnodup, fun sid hmem => hnot (htodo sid hmem), ?_⟩
      cases stage with
      | stopping op => exact hstage
      | storing handle => exact htasks ▸ hstage
  | stopRead | startWrite => exact phase
  | joinWrite | returned => trivial

theorem ServerLocks.congr {w w' : Servers} (h : ServerLocks w pc) (hcell : w'.cell = w.cell) :
    ServerLocks w' pc := by
  have hlocked : w'.LockedBy = w.LockedBy := by
    funext sid op
    unfold Servers.LockedBy
    rw [hcell]
  unfold ServerLocks at h ⊢
  rw [hlocked]
  exact h

section TaskEnds

variable {t : ℕ} {closes : Bool} {w : Servers}

theorem Busy.taskEnds (h : Busy m id kind pc)
    (hends : m.shared.servers.taskEnds t closes = some w) :
    Busy { m with shared := { m.shared with servers := w } } id kind pc := by
  obtain ⟨hcell, htasks, hclosed⟩ := Servers.taskEnds_cases hends
  have hnot : ∀ {sid}, m.shared.servers.NotRunning sid → w.NotRunning sid := by
    intro sid hsid handle hstate
    rw [hcell] at hstate
    exact hsid handle hstate
  refine ⟨⟨h.locks.readers, h.locks.writer, h.locks.servers.congr hcell⟩,
    h.phase.mono hcell htasks hclosed, fun sid handle hstate => ?_,
    fun sid hsid => hnot (h.fresh sid hsid), fun hpc names serializes hkind name =>
      hnot (h.unstarted hpc names serializes hkind name), h.distinct, h.state⟩
  rw [hcell] at hstate
  rw [htasks]
  exact h.handles sid handle hstate

theorem Free.taskEnds (h : Free m) (hends : m.shared.servers.taskEnds t closes = some w) :
    Free { m with shared := { m.shared with servers := w } } := by
  obtain ⟨hcell, htasks, -⟩ := Servers.taskEnds_cases hends
  refine ⟨⟨h.locks.readers, h.locks.writer, h.locks.servers.congr hcell⟩,
    fun sid handle hstate => ?_, fun sid hsid handle hstate => ?_, h.state⟩
  · rw [hcell] at hstate
    rw [htasks]
    exact h.handles sid handle hstate
  · rw [hcell] at hstate
    exact h.fresh sid hsid handle hstate

end TaskEnds

/-! ### A `join` that is dropped -/

section Drop

variable {w : Servers} {sid : ServerId}

/-- One of the futures that `join` races is dropped: what it held is free. -/
theorem Race.release_spec (race : Race) (locked : w.LockedBy sid race.op) :
    (race.release w sid).LockedBy sid .done ∧
      (∀ sid', sid' ≠ sid → (race.release w sid).cell sid' = w.cell sid') ∧
      (∀ sid', ((race.release w sid).cell sid').state = (w.cell sid').state) ∧
      (race.release w sid).tasks = w.tasks := by
  have hset : ∀ server : RunningServer, server.state = (w.cell sid).state →
      server.readers = 0 ∧ server.writer = false →
      (w.set sid server).LockedBy sid .done ∧
        (∀ sid', sid' ≠ sid → (w.set sid server).cell sid' = w.cell sid') ∧
        (∀ sid', ((w.set sid server).cell sid').state = (w.cell sid').state) ∧
        (w.set sid server).tasks = w.tasks := by
    intro server hstate hlocks
    refine ⟨?_, fun sid' hne => Servers.cell_set_ne hne _, fun sid' => ?_, rfl⟩
    · unfold Servers.LockedBy
      rw [Servers.cell_set_self]
      exact hlocks
    · by_cases hsid : sid' = sid
      · subst hsid
        rw [Servers.cell_set_self, hstate]
      · rw [Servers.cell_set_ne hsid]
  obtain ⟨hreaders, hwriter⟩ := locked
  cases race with
  | joining op =>
      cases op with
      | joinAcquire => exact hset _ rfl ⟨congrArg (· - 1) hreaders, hwriter⟩
      | joinHandle => exact hset _ rfl ⟨hreaders, rfl⟩
      | _ => exact ⟨⟨hreaders, hwriter⟩, fun _ _ => rfl, fun _ => rfl, rfl⟩
  | taking | done => exact ⟨⟨hreaders, hwriter⟩, fun _ _ => rfl, fun _ => rfl, rfl⟩

/-- **What a `join` held is free when it is dropped.** -/
theorem foldl_release (race : List (ServerId × Race)) (hnodup : (race.map Prod.fst).Nodup)
    (hentries : ∀ entry ∈ race, w.LockedBy entry.1 entry.2.op)
    (hothers : ∀ sid, sid ∉ race.map Prod.fst → w.LockedBy sid .done) :
    let w' := race.foldl (fun w entry => entry.2.release w entry.1) w
    (∀ sid, w'.LockedBy sid .done) ∧ (∀ sid, (w'.cell sid).state = (w.cell sid).state) ∧
      w'.tasks = w.tasks := by
  induction race generalizing w with
  | nil => exact ⟨fun sid => hothers sid List.not_mem_nil, fun _ => rfl, rfl⟩
  | cons entry race ih =>
      obtain ⟨hnew, hrest⟩ := List.nodup_cons.mp hnodup
      obtain ⟨hfree, hcell, hstate, htasks⟩ :=
        entry.2.release_spec (hentries entry List.mem_cons_self)
      have hsame : ∀ {sid op}, sid ≠ entry.1 → w.LockedBy sid op →
          (entry.2.release w entry.1).LockedBy sid op := by
        intro sid op hne hlocked
        unfold Servers.LockedBy
        rw [hcell sid hne]
        exact hlocked
      obtain ⟨hfree', hstate', htasks'⟩ := ih hrest
        (fun other hmem => hsame (fun heq => hnew (heq ▸ List.mem_map_of_mem hmem))
          (hentries other (List.mem_cons_of_mem _ hmem)))
        (fun sid hsid => by
          by_cases heq : sid = entry.1
          · exact heq ▸ hfree
          · exact hsame heq (hothers sid (by simp [heq, hsid])))
      exact ⟨hfree', fun sid => (hstate' sid).trans (hstate sid), htasks'.trans htasks⟩

end Drop

theorem Busy.dropJoin (h : Busy m id .join pc)
    (hsound : PcHolds m.shared.servers m.calls id .join pc) :
    Free ⟨m.shared.dropJoin pc, m.calls.set id ⟨.join, .returned⟩⟩ := by
  have hfresh : ∀ sid : ServerId, (m.calls.set id ⟨.join, .returned⟩).length ≤ sid.owner →
      m.shared.servers.NotRunning sid := by
    intro sid hsid
    rw [List.length_set] at hsid
    exact h.fresh sid hsid
  obtain ⟨hreaders, hwriter, hservers⟩ := h.locks
  cases pc with
  | racing ent race =>
      obtain ⟨hrace, hnodup, -⟩ := h.phase
      obtain ⟨hentries, hothers⟩ := hservers
      obtain ⟨hfree, hstate, htasks⟩ := foldl_release race (hrace ▸ hnodup) hentries
        (fun sid hsid => hothers sid (hrace ▸ hsid))
      refine ⟨⟨congrArg (· - 1) hreaders, hwriter, hfree⟩, fun sid handle hrunning => ?_,
        fun sid hsid handle hrunning => ?_, h.state⟩
      · rw [show ((m.shared.dropJoin (.racing ent race)).servers.cell sid).state
          = (m.shared.servers.cell sid).state from hstate sid] at hrunning
        rw [show (m.shared.dropJoin (.racing ent race)).servers.tasks
          = m.shared.servers.tasks from htasks]
        exact h.handles sid handle hrunning
      · exact hfresh sid hsid handle ((hstate sid).symm.trans hrunning)
  | stopping todo op => exact absurd rfl h.phase.1
  | starting todo stage =>
      obtain ⟨⟨names, serializes, hkind, -⟩, -⟩ := hsound
      cases hkind
  | stopRead | joinRead | joinWrite | startWrite | returned =>
      exact ⟨⟨hreaders, hwriter, hservers⟩, h.handles, hfresh, h.state⟩

/-! ### A call is never stuck -/

/-- A task that was aborted has not ended yet. -/
def AwaitsTask (w : Servers) : Prop :=
  ∃ (t : ℕ) (task : Task), w.tasks[t]? = some task ∧ task.finished = false ∧ w.closed t = true

/-- **A `stop` or `start` can go on, or awaits a task that it has aborted.** -/
theorem Busy.enabled (h : Busy m id kind pc) (hkind : kind ≠ .join) (hpc : pc ≠ .returned)
    (hsound : PcHolds m.shared.servers m.calls id kind pc) :
    (∃ choice, (advance m.shared id kind choice pc).isSome = true) ∨
      AwaitsTask m.shared.servers := by
  obtain ⟨hreaders, hwriter, hservers⟩ := h.locks
  cases pc with
  | stopRead | joinRead =>
      left
      have hwriter : m.shared.writer = false := hwriter
      refine ⟨0, ?_⟩
      simp only [advance, hwriter, Bool.false_eq_true, if_false]
      split <;> rfl
  | stopping todo op =>
      cases todo with
      | nil => exact .inl ⟨0, rfl⟩
      | cons sid todo =>
          by_cases hop : op = .done
          · subst hop
            exact .inl ⟨0, by simp only [advance, if_pos]; rfl⟩
          · have hlocked : m.shared.servers.LockedBy sid op := by
              have := hservers sid
              rwa [if_pos rfl] at this
            rcases (h.phase.2.2 sid todo rfl).enabled hlocked h.handles hop with
              ⟨w, op', hstep⟩ | hawaits
            · exact .inl ⟨0, by simp only [advance, if_neg hop, hstep, Option.map_some]; rfl⟩
            · exact .inr hawaits
  | racing ent race =>
      left
      obtain ⟨hrace, -, hstopped⟩ := h.phase
      by_cases hall : race.all fun entry => entry.2 = .done
      · exact ⟨0, by simp only [advance, if_pos hall]; rfl⟩
      · obtain ⟨entry, hmem, hdone⟩ : ∃ entry ∈ race, entry.2 ≠ .done := by simpa using hall
        obtain ⟨choice, hchoice⟩ := List.getElem?_of_mem hmem
        obtain ⟨hnot, hjoining⟩ := hstopped hkind entry hmem
        have hlocked := hservers.1 entry hmem
        obtain ⟨sid, race'⟩ := entry
        cases race' with
        | joining op =>
            cases hjoining op rfl
            have hstep : ServerOp.joinRead.step m.shared.servers sid
                = some (m.shared.servers, .done) := hnot.enabled hlocked (.inr rfl)
            refine ⟨choice, ?_⟩
            simp only [advance, if_neg hall, hchoice, hstep, Option.map_some]
            rfl
        | taking =>
            have hfree : (m.shared.servers.cell sid).free := ⟨hlocked.2, hlocked.1⟩
            obtain ⟨w, hstep⟩ : ∃ w, m.shared.servers.takeResult sid = some w := by
              simp only [Servers.takeResult, if_pos hfree]
              split <;> exact ⟨_, rfl⟩
            refine ⟨choice, ?_⟩
            simp only [advance, if_neg hall, hchoice, hstep, Option.map_some]
            rfl
        | done => exact absurd rfl hdone
  | joinWrite ent =>
      have hfree : m.shared.writer = false ∧ m.shared.readers = 0 := ⟨hwriter, hreaders⟩
      exact .inl ⟨0, by simp only [advance, if_pos hfree]; rfl⟩
  | startWrite =>
      obtain ⟨names, serializes, rfl⟩ := h.phase
      have hfree : m.shared.writer = false ∧ m.shared.readers = 0 := ⟨hwriter, hreaders⟩
      exact .inl ⟨0, by simp only [advance, if_pos hfree]; rfl⟩
  | starting todo stage =>
      left
      obtain ⟨⟨names, serializes, rfl, -⟩, -⟩ := hsound
      obtain ⟨-, hnot, hstage⟩ := h.phase
      cases todo with
      | nil => exact ⟨0, rfl⟩
      | cons sid todo =>
          cases stage with
          | stopping op =>
              have hlocked : m.shared.servers.LockedBy sid op := by
                have := hservers sid
                rwa [if_pos rfl] at this
              rcases hstage with rfl | rfl
              · have hstep := (hnot sid List.mem_cons_self).enabled hlocked (.inl rfl)
                exact ⟨0, by simp only [advance, reduceCtorEq, if_false, hstep]; rfl⟩
              · exact ⟨0, by simp only [advance, if_pos]; rfl⟩
          | storing handle =>
              have hfree : (m.shared.servers.cell sid).free := ⟨(hservers sid).2, (hservers sid).1⟩
              exact ⟨0, by simp only [advance, Servers.store, if_pos hfree, Option.map_some]; rfl⟩
  | returned => exact absurd rfl hpc

end Busy

/-! ## A call comes to its end -/

/-- How many servers there are to stop. -/
def serversIn : Option Entities → ℕ
  | some ent => ent.names.length
  | none => 0

/-- How many steps a call may take after its `join`. -/
def CallKind.leftAfterJoin : CallKind → ℕ
  | .start names _ => 7 * names.length + 2
  | .stop | .join => 0

/-- How many steps a call may still take, if there are `n` servers to stop. -/
def Pc.left (kind : CallKind) (n : ℕ) : Pc → ℕ
  | .stopRead => 2 + 6 * n + (3 + 5 * n + kind.leftAfterJoin)
  | .stopping [] _ => 1 + (3 + 5 * n + kind.leftAfterJoin)
  | .stopping (_ :: todo) op => 1 + op.left + 6 * todo.length + (3 + 5 * n + kind.leftAfterJoin)
  | .joinRead => 3 + 5 * n + kind.leftAfterJoin
  | .racing _ race => tally (fun entry => entry.2.left) race + 2 + kind.leftAfterJoin
  | .joinWrite _ => 1 + kind.leftAfterJoin
  | .startWrite => kind.leftAfterJoin
  | .starting [] _ => 1
  | .starting (_ :: todo) (.stopping op) => op.left + 1 + 7 * todo.length + 1
  | .starting (_ :: todo) (.storing _) => 1 + 7 * todo.length + 1
  | .returned => 0

/-- The tasks that have not ended. -/
def Servers.unfinished (w : Servers) : ℕ :=
  tally (fun task => if task.finished then 0 else 1) w.tasks

theorem length_servers (ent : Entities) : ent.servers.length = ent.names.length :=
  List.length_map _

theorem left_stopping (kind : CallKind) (n : ℕ) (todo : List ServerId) :
    Pc.left kind n (.stopping todo .stopRead)
      = 1 + 6 * todo.length + (3 + 5 * n + kind.leftAfterJoin) := by
  cases todo with
  | nil => rfl
  | cons sid todo =>
      simp only [Pc.left, ServerOp.left, List.length_cons]
      omega

theorem left_starting (kind : CallKind) (n : ℕ) (todo : List ServerId) :
    Pc.left kind n (.starting todo (.stopping .stopRead)) = 7 * todo.length + 1 := by
  cases todo with
  | nil => rfl
  | cons sid todo =>
      simp only [Pc.left, ServerOp.left, List.length_cons]
      omega

theorem left_afterJoin (kind : CallKind) (n : ℕ) :
    Pc.left kind n kind.afterJoin = kind.leftAfterJoin := by
  cases kind <;> rfl

theorem tally_joinRead (sids : List ServerId) :
    tally (fun entry : ServerId × Race => entry.2.left)
      (sids.map fun sid => (sid, .joining .joinRead)) = 5 * sids.length := by
  induction sids with
  | nil => rfl
  | cons sid sids ih =>
      rw [List.map_cons, tally_cons, ih, List.length_cons]
      show 5 + _ = _
      omega

/-- **Every step of a call brings it nearer to its end.** -/
theorem Moves.left {sh sh' : Shared} {id : ℕ} {kind : CallKind} {pc pc' : Pc}
    (h : Moves sh id kind pc sh' pc') :
    pc'.left kind (serversIn sh'.state) < pc.left kind (serversIn sh.state) := by
  cases h with
  | stopIdle | stopped | raced =>
      simp only [Pc.left]
      omega
  | @stopRunning ent _ hstate =>
      rw [left_stopping, length_servers, hstate]
      simp only [Pc.left, serversIn]
      omega
  | stopNext =>
      rw [left_stopping]
      simp only [Pc.left, ServerOp.left]
      omega
  | stopServer hop =>
      have := (Servers.stepped_of_step hop).left
      simp only [Pc.left]
      omega
  | joinIdle | joined =>
      rw [left_afterJoin]
      simp only [Pc.left]
      omega
  | @joinRunning ent _ hstate =>
      simp only [Pc.left]
      rw [tally_joinRead, length_servers, hstate]
      simp only [serversIn]
      omega
  | @joinServer ent race choice sid op op' servers hentry hop =>
      have hlower := (Servers.stepped_of_step hop).left
      have htally := tally_set (fun entry : ServerId × Race => entry.2.left) hentry
        (sid, if op' = .done then .taking else .joining op')
      have hnew : (if op' = .done then Race.taking else .joining op').left ≤ op'.left := by
        split
        · rename_i hdone
          rw [hdone]
          exact Nat.le_refl _
        · exact Nat.le_refl _
      have hold : (Race.joining op).left = op.left := rfl
      simp only [Pc.left] at htally ⊢
      omega
  | @takeResult ent race choice sid servers hentry _ =>
      have htally := tally_set (fun entry : ServerId × Race => entry.2.left) hentry (sid, .done)
      simp only [Pc.left, Race.left] at htally ⊢
      omega
  | @locked names serializes hkind =>
      rw [left_starting, List.length_map, hkind]
      simp only [Pc.left, CallKind.leftAfterJoin]
      omega
  | spawned =>
      simp only [Pc.left, ServerOp.left]
      omega
  | startServer hop =>
      have := (Servers.stepped_of_step hop).left
      simp only [Pc.left]
      omega
  | stored =>
      rw [left_starting]
      simp only [Pc.left]
      omega
  | started => exact Nat.zero_lt_one

/-- A step of a call spawns one task at most. -/
theorem Moves.unfinished {sh sh' : Shared} {id : ℕ} {kind : CallKind} {pc pc' : Pc}
    (h : Moves sh id kind pc sh' pc') : sh'.servers.unfinished ≤ sh.servers.unfinished + 1 := by
  unfold Servers.unfinished
  rcases h.tasks with heq | ⟨sid, heq⟩
  · rw [heq]
    exact Nat.le_succ _
  · rw [heq, tally_append]
    exact Nat.le_refl _

end RabbitDigger
