import RabbitDigger.Foundation.Transition
import RabbitDigger.Manager.RunningServer

/-!
# Starting, stopping and joining

`src/rabbit_digger.rs`: `RabbitDigger::start`, `stop` and `join` share one state
behind a lock, `WaitConfig` or `Running` with the servers of a config.  `start`
stops and joins what is running, then takes the write lock, starts its own servers
and overwrites the state; `join` waits for all servers with the read lock, then
takes the write lock and overwrites the state with `WaitConfig`.

Any number of calls may be under way.  They switch at lock acquisitions and awaits,
so a call is a program counter (`Pc`) and `advance` is what it does until its next
such point; server tasks end whenever they like.

**Between the join and the write the lock is free.**  A call that overwrites the
state may therefore drop servers it has never looked at, and a dropped `JoinHandle`
detaches its task.  `no_server_lost` is the exact extent of what the protocol gives:
as long as no overwrite hits a state that another call has installed in between
(`undisturbed`), every unfinished task is held by a server of the current state
whenever no call is in progress.
-/

namespace RabbitDigger

open Transition

/-- `RunningEntities`, as far as servers go: the call of `start` that built them,
and their names. -/
structure Entities where
  id : ℕ
  names : List String
deriving Repr, DecidableEq

/-- The servers of the entities. -/
def Entities.servers (ent : Entities) : List ServerId :=
  ent.names.map (ServerId.mk ent.id)

/-- The calls.  What matters of a config is the names of its servers, and whether
`serde_json::to_string` succeeds on it. -/
inductive CallKind where
  | start (names : List String) (serializes : Bool)
  | stop
  | join
deriving Repr, DecidableEq

/-- One of the futures that `join` races: join a server, then take its result. -/
inductive Race where
  | joining (op : ServerOp)
  | taking
  | done
deriving Repr, DecidableEq

/-- Where `RunningServer::start` stands: it stops the server, spawns the task and
stores the handle. -/
inductive Starting where
  | stopping (op : ServerOp)
  | storing (handle : ℕ)
deriving Repr, DecidableEq

/-- Where a call stands. -/
inductive Pc where
  /-- `stop`: about to read the state. -/
  | stopRead
  /-- `stop`: stopping one server after the other, with the read lock. -/
  | stopping (todo : List ServerId) (op : ServerOp)
  /-- `join`: about to read the state. -/
  | joinRead
  /-- `join`: waiting for all servers, with the read lock. -/
  | racing (ent : Entities) (race : List (ServerId × Race))
  /-- `join`: about to write the state. -/
  | joinWrite (ent : Entities)
  /-- `start`: about to write the state. -/
  | startWrite
  /-- `start`: starting one server after the other, with the write lock. -/
  | starting (todo : List ServerId) (stage : Starting)
  | returned
deriving Repr, DecidableEq

/-- A call. -/
structure Call where
  kind : CallKind
  pc : Pc
deriving Repr, DecidableEq

/-- What the calls share: the state, the lock around it, and the servers. -/
structure Shared where
  /-- `none` is `WaitConfig`. -/
  state : Option Entities
  readers : ℕ
  writer : Bool
  servers : Servers

/-- Where a call starts. -/
def CallKind.entry : CallKind → Pc
  | .start _ _ => .stopRead
  | .stop => .stopRead
  | .join => .joinRead

/-- Where a call goes on when its `join` returns. -/
def CallKind.afterJoin : CallKind → Pc
  | .start _ _ => .startWrite
  | .stop => .returned
  | .join => .returned

/-- What a call does until its next lock acquisition or await; `none` if it has to
wait.  Of the futures that `join` races, `choice` is the one that moves. -/
def advance (sh : Shared) (id : ℕ) (kind : CallKind) (choice : ℕ) :
    Pc → Option (Shared × Pc)
  | .stopRead =>
      if sh.writer then none
      else
        match sh.state with
        | none => some (sh, .joinRead)
        | some ent =>
            some ({ sh with readers := sh.readers + 1 }, .stopping ent.servers .stopRead)
  | .stopping [] _ => some ({ sh with readers := sh.readers - 1 }, .joinRead)
  | .stopping (sid :: todo) op =>
      if op = .done then some (sh, .stopping todo .stopRead)
      else
        (op.step sh.servers sid).map fun (servers, op') =>
          ({ sh with servers := servers }, .stopping (sid :: todo) op')
  | .joinRead =>
      if sh.writer then none
      else
        match sh.state with
        | none => some (sh, kind.afterJoin)
        | some ent =>
            some ({ sh with readers := sh.readers + 1 },
              .racing ent (ent.servers.map fun sid => (sid, .joining .joinRead)))
  | .racing ent race =>
      if race.all fun entry => entry.2 = .done then
        some ({ sh with readers := sh.readers - 1 }, .joinWrite ent)
      else
        match race[choice]? with
        | some (sid, .joining op) =>
            (op.step sh.servers sid).map fun (servers, op') =>
              ({ sh with servers := servers },
                .racing ent (race.set choice
                  (sid, if op' = .done then .taking else .joining op')))
        | some (sid, .taking) =>
            (sh.servers.takeResult sid).map fun servers =>
              ({ sh with servers := servers }, .racing ent (race.set choice (sid, .done)))
        | _ => none
  | .joinWrite _ =>
      if sh.writer = false ∧ sh.readers = 0 then
        some ({ sh with state := none }, kind.afterJoin)
      else none
  | .startWrite =>
      match kind with
      | .start names _ =>
          if sh.writer = false ∧ sh.readers = 0 then
            some ({ sh with writer := true },
              .starting (names.map (ServerId.mk id)) (.stopping .stopRead))
          else none
      | _ => none
  | .starting [] _ =>
      match kind with
      | .start names serializes =>
          some ({ sh with
              state := if serializes then some ⟨id, names⟩ else sh.state
              writer := false }, .returned)
      | _ => none
  | .starting (sid :: todo) (.stopping op) =>
      if op = .done then
        some ({ sh with servers := sh.servers.spawn sid },
          .starting (sid :: todo) (.storing sh.servers.tasks.length))
      else
        (op.step sh.servers sid).map fun (servers, op') =>
          ({ sh with servers := servers }, .starting (sid :: todo) (.stopping op'))
  | .starting (sid :: todo) (.storing handle) =>
      (sh.servers.store sid handle).map fun servers =>
        ({ sh with servers := servers }, .starting todo (.stopping .stopRead))
  | .returned => none

/-- The manager and the calls that were ever made, by number. -/
structure Manager where
  shared : Shared
  calls : List Call

/-- What can happen. -/
inductive ManagerEvent where
  | call (kind : CallKind)
  | step (id choice : ℕ)
  | taskEnds (task : ℕ) (closes : Bool)
deriving Repr, DecidableEq

/-- One event. -/
def Manager.step (s : Manager) : ManagerEvent → Option Manager
  | .call kind => some { s with calls := s.calls ++ [⟨kind, kind.entry⟩] }
  | .step id choice =>
      match s.calls[id]? with
      | none => none
      | some call =>
          (advance s.shared id call.kind choice call.pc).map fun (shared, pc) =>
            { shared := shared, calls := s.calls.set id ⟨call.kind, pc⟩ }
  | .taskEnds t closes =>
      (s.shared.servers.taskEnds t closes).map fun servers =>
        { s with shared := { s.shared with servers := servers } }

/-- `RabbitDigger`, from its construction on. -/
def managerSystem : System Manager ManagerEvent where
  init := { shared := ⟨none, 0, false, .empty⟩, calls := [] }
  step := Manager.step

/-- No overwrite of the state hits what another call has installed in between: the
write of `join` finds `WaitConfig` or the state it has joined, that of `start`
finds `WaitConfig`; and the config of a `start` can be serialized. -/
def undisturbed (s : Manager) : ManagerEvent → Bool
  | .step id _ =>
      match s.calls[id]? with
      | some ⟨_, .joinWrite ent⟩ =>
          s.shared.state = none || s.shared.state = some ent
      | some ⟨.start _ serializes, .starting [] _⟩ => s.shared.state = none && serializes
      | _ => true
  | _ => true

/-! ## The invariant -/

/-- A `start` has spawned the task of a server and is about to store its handle. -/
def Storing (calls : List Call) (sid : ServerId) (handle : ℕ) : Prop :=
  ∃ call todo, calls[sid.owner]? = some call ∧
    call.pc = .starting (sid :: todo) (.storing handle)

/-- The entities were built by a call that has returned. -/
def Installed (calls : List Call) (ent : Entities) : Prop :=
  ∃ call, calls[ent.id]? = some call ∧ call.pc = .returned

/-- The server belongs to a `start` that is starting its servers. -/
def InStart (calls : List Call) (sid : ServerId) : Prop :=
  ∃ names serializes todo stage, calls[sid.owner]? =
    some ⟨.start names serializes, .starting todo stage⟩ ∧ sid.name ∈ names

/-- What is known about the server that a `start` is starting. -/
def StageHolds (w : Servers) (sid : ServerId) : Starting → Prop
  | .stopping op => op = .done → w.AllFinished sid
  | .storing handle => ∀ (t : ℕ) (task : Task), w.tasks[t]? = some task →
      task.server = sid → t ≠ handle → task.finished = true

/-- What is known where a call stands. -/
def PcHolds (w : Servers) (calls : List Call) (id : ℕ) (kind : CallKind) : Pc → Prop
  | .racing ent race => Installed calls ent ∧ race.map Prod.fst = ent.servers ∧
      ∀ entry ∈ race, (∀ op, entry.2 ≠ .joining op) → w.AllFinished entry.1
  | .joinWrite ent => Installed calls ent ∧ ∀ sid ∈ ent.servers, w.AllFinished sid
  | .starting todo stage =>
      (∃ names serializes, kind = .start names serializes ∧
        ∀ sid ∈ todo, sid ∈ names.map (ServerId.mk id)) ∧
      ∀ sid rest, todo = sid :: rest → StageHolds w sid stage
  | _ => True

/-- **The invariant.**  Handles of unfinished tasks are held, by servers of the
state or of a `start` in progress. -/
structure Sound (s : Manager) : Prop where
  held : s.shared.servers.Held (Storing s.calls)
  located : ∀ (t : ℕ) (task : Task), s.shared.servers.tasks[t]? = some task →
    task.finished = false →
      (∃ ent, s.shared.state = some ent ∧ task.server ∈ ent.servers) ∨
        InStart s.calls task.server
  state : ∀ ent, s.shared.state = some ent → Installed s.calls ent
  calls : ∀ id call, s.calls[id]? = some call →
    PcHolds s.shared.servers s.calls id call.kind call.pc

theorem mem_servers {ent : Entities} {sid : ServerId} :
    sid ∈ ent.servers ↔ sid.owner = ent.id ∧ sid.name ∈ ent.names := by
  unfold Entities.servers
  rw [List.mem_map]
  constructor
  · rintro ⟨name, hname, rfl⟩
    exact ⟨rfl, hname⟩
  · rintro ⟨hid, hname⟩
    obtain ⟨owner, name⟩ := sid
    cases hid
    exact ⟨name, hname, rfl⟩

/-! ### What a step leaves as it is -/

section Frame

variable {calls : List Call} {id : ℕ} {call call' : Call} {w w' : Servers}

theorem getElem?_set_self (h : calls[id]? = some call) :
    (calls.set id call')[id]? = some call' := by
  obtain ⟨hlt, -⟩ := List.getElem?_eq_some_iff.mp h
  exact List.getElem?_set_self hlt

/-- A call that has returned stays so while another one moves. -/
theorem Installed.set {ent : Entities} (installed : Installed calls ent)
    (hcall : calls[id]? = some call) (hlive : call.pc ≠ .returned) :
    Installed (calls.set id call') ent := by
  obtain ⟨other, hother, hreturned⟩ := installed
  have hid : id ≠ ent.id := by
    rintro rfl
    rw [hcall] at hother
    cases hother
    exact hlive hreturned
  exact ⟨other, by rwa [List.getElem?_set_ne hid], hreturned⟩

/-- The unfinished tasks of `w'` are those of `w`, but for new ones of servers in
`P`. -/
def Grows (w w' : Servers) (P : ServerId → Prop) : Prop :=
  ∀ (t : ℕ) (task : Task), w'.tasks[t]? = some task → task.finished = false →
    w.tasks[t]? = some task ∨ P task.server

theorem Grows.of_eq (h : w'.tasks = w.tasks) : Grows w w' fun _ => False :=
  fun _ _ htask _ => .inl (h ▸ htask)

theorem Grows.allFinished {P : ServerId → Prop} (grows : Grows w w' P) {sid : ServerId}
    (hsid : ¬ P sid) (h : w.AllFinished sid) : w'.AllFinished sid := by
  intro t task htask hserver
  by_contra hunfinished
  rw [Bool.not_eq_true] at hunfinished
  rcases grows t task htask hunfinished with hold | hnew
  · rw [h t task hold hserver] at hunfinished
    cases hunfinished
  · exact hsid (hserver ▸ hnew)

/-- What is known where a call stands is not affected by what others do: they end
tasks, or spawn tasks of servers of their own. -/
theorem PcHolds.frame {calls' : List Call} {kind : CallKind} {pc : Pc}
    {P : ServerId → Prop} (holds : PcHolds w calls id kind pc) (grows : Grows w w' P)
    (hinstalled : ∀ ent, Installed calls ent → Installed calls' ent)
    (hother : ∀ sid, P sid → sid.owner ≠ id)
    (hnew : ∀ sid, P sid → ∀ ent, Installed calls ent → sid ∉ ent.servers) :
    PcHolds w' calls' id kind pc := by
  cases pc with
  | racing ent race =>
      obtain ⟨installed, hrace, hfinished⟩ := holds
      refine ⟨hinstalled ent installed, hrace, fun entry mem hentry => ?_⟩
      refine grows.allFinished (fun hP => ?_) (hfinished entry mem hentry)
      have hmem : entry.1 ∈ ent.servers := hrace ▸ List.mem_map_of_mem mem
      exact hnew entry.1 hP ent installed hmem
  | joinWrite ent =>
      obtain ⟨installed, hfinished⟩ := holds
      refine ⟨hinstalled ent installed, fun sid mem => ?_⟩
      exact grows.allFinished (fun hP => hnew sid hP ent installed mem) (hfinished sid mem)
  | starting todo stage =>
      obtain ⟨⟨names, serializes, hkind, htodo⟩, hstage⟩ := holds
      refine ⟨⟨names, serializes, hkind, htodo⟩, fun sid rest hsid => ?_⟩
      have howner : sid.owner = id := by
        obtain ⟨name, -, rfl⟩ := List.mem_map.mp (htodo sid (by simp [hsid]))
        rfl
      have hP : ¬ P sid := fun hP => hother sid hP howner
      have hstage := hstage sid rest hsid
      cases stage with
      | stopping op => exact fun hop => grows.allFinished hP (hstage hop)
      | storing handle =>
          intro t task htask hserver hne
          by_contra hunfinished
          rw [Bool.not_eq_true] at hunfinished
          rcases grows t task htask hunfinished with hold | hnew
          · rw [hstage t task hold hserver hne] at hunfinished
            cases hunfinished
          · exact hP (hserver ▸ hnew)
  | stopRead | stopping | joinRead | startWrite | returned => trivial

end Frame

/-! ### The steps of a call -/

section Step

variable {s : Manager} {id choice : ℕ} {kind : CallKind} {pc pc' : Pc} {sh : Shared}

/-- What has to be shown for a step of a call: the rest of the invariant is about
other calls. -/
theorem Sound.move (sound : Sound s) (hcall : s.calls[id]? = some ⟨kind, pc⟩)
    (hlive : pc ≠ .returned) {P : ServerId → Prop}
    (grows : Grows s.shared.servers sh.servers P) (hP : ∀ sid, P sid → sid.owner = id)
    (held : sh.servers.Held (Storing (s.calls.set id ⟨kind, pc'⟩)))
    (located : ∀ (t : ℕ) (task : Task), sh.servers.tasks[t]? = some task →
      task.finished = false →
        (∃ ent, sh.state = some ent ∧ task.server ∈ ent.servers) ∨
          InStart (s.calls.set id ⟨kind, pc'⟩) task.server)
    (state : ∀ ent, sh.state = some ent → Installed (s.calls.set id ⟨kind, pc'⟩) ent)
    (holds : PcHolds sh.servers (s.calls.set id ⟨kind, pc'⟩) id kind pc') :
    Sound { shared := sh, calls := s.calls.set id ⟨kind, pc'⟩ } := by
  refine ⟨held, located, state, fun id' call' hcall' => ?_⟩
  by_cases hid : id' = id
  · subst hid
    rw [getElem?_set_self hcall] at hcall'
    cases hcall'
    exact holds
  · rw [List.getElem?_set_ne (Ne.symm hid)] at hcall'
    refine (sound.calls id' call' hcall').frame grows
      (fun ent installed => installed.set hcall hlive)
      (fun sid h => by rw [hP sid h]; exact Ne.symm hid) ?_
    rintro sid h ent ⟨call, hent, hreturned⟩ mem
    rw [mem_servers, hP sid h] at mem
    rw [← mem.1, hcall] at hent
    cases hent
    exact hlive hreturned

/-- Being about to store a handle is a matter of the call that is. -/
theorem Storing.set {calls : List Call} {call call' : Call} {sid : ServerId} {t : ℕ}
    (storing : Storing calls sid t) (hcall : calls[id]? = some call)
    (hpc : ∀ sid todo handle, call.pc ≠ .starting (sid :: todo) (.storing handle)) :
    Storing (calls.set id call') sid t := by
  obtain ⟨other, todo, hother, hstoring⟩ := storing
  have hid : id ≠ sid.owner := by
    rintro rfl
    rw [hcall] at hother
    cases hother
    exact hpc _ _ _ hstoring
  exact ⟨other, todo, by rwa [List.getElem?_set_ne hid], hstoring⟩

/-- A `start` that goes on starting its servers. -/
theorem InStart.set {calls : List Call} {sid : ServerId} (inStart : InStart calls sid)
    (hcall : calls[id]? = some ⟨kind, pc⟩)
    (hstarting : ∀ todo stage, pc = .starting todo stage →
      ∃ todo' stage', pc' = .starting todo' stage') :
    InStart (calls.set id ⟨kind, pc'⟩) sid := by
  obtain ⟨names, serializes, todo, stage, hsid, hname⟩ := inStart
  by_cases hid : id = sid.owner
  · subst hid
    rw [hcall] at hsid
    cases hsid
    obtain ⟨todo', stage', rfl⟩ := hstarting todo stage rfl
    exact ⟨names, serializes, todo', stage', getElem?_set_self hcall, hname⟩
  · exact ⟨names, serializes, todo, stage, by rwa [List.getElem?_set_ne hid], hname⟩

/-- A step that spawns no task, stores no handle and leaves the state alone. -/
theorem Sound.quiet (sound : Sound s) (hcall : s.calls[id]? = some ⟨kind, pc⟩)
    (hstate : sh.state = s.shared.state)
    (htasks : sh.servers.tasks = s.shared.servers.tasks)
    (held : sh.servers.Held (Storing s.calls))
    (holds : PcHolds sh.servers (s.calls.set id ⟨kind, pc'⟩) id kind pc')
    (hlive : pc ≠ .returned := by simp)
    (hpc : ∀ sid todo handle, pc ≠ .starting (sid :: todo) (.storing handle) := by simp)
    (hstarting : ∀ todo stage, pc = .starting todo stage →
      ∃ todo' stage', pc' = .starting todo' stage' := by simp) :
    Sound { shared := sh, calls := s.calls.set id ⟨kind, pc'⟩ } := by
  refine sound.move hcall hlive (Grows.of_eq htasks) (fun _ h => h.elim) ?_ ?_ ?_ holds
  · intro t task htask hunfinished
    exact (held t task htask hunfinished).imp_right fun storing => storing.set hcall hpc
  · intro t task htask hunfinished
    rw [htasks] at htask
    rw [hstate]
    exact (sound.located t task htask hunfinished).imp_right fun inStart =>
      inStart.set hcall hstarting
  · intro ent hent
    rw [hstate] at hent
    exact (sound.state ent hent).set hcall hlive

/-- No handle of a server is about to be stored, if its entities are installed. -/
theorem not_storing_of_installed {calls : List Call} {ent : Entities} {sid : ServerId}
    (installed : Installed calls ent) (mem : sid ∈ ent.servers) (t : ℕ) :
    ¬ Storing calls sid t := by
  rintro ⟨call, todo, hcall, hstoring⟩
  obtain ⟨other, hother, hreturned⟩ := installed
  rw [mem_servers] at mem
  rw [mem.1, hother] at hcall
  cases hcall
  rw [hreturned] at hstoring
  cases hstoring

/-- A future that `join` races. -/
theorem Sound.race (sound : Sound s) {ent : Entities} {race : List (ServerId × Race)}
    (hcall : s.calls[id]? = some ⟨kind, .racing ent race⟩)
    (h : advance s.shared id kind choice (.racing ent race) = some (sh, pc')) :
    Sound { shared := sh, calls := s.calls.set id ⟨kind, pc'⟩ } := by
  obtain ⟨installed, hrace, hfinished⟩ := sound.calls id _ hcall
  have hinstalled : ∀ call, Installed (s.calls.set id call) ent := fun call =>
    installed.set hcall (by simp)
  -- an entry that changes keeps the servers of the race
  have hset : ∀ sid old next, race[choice]? = some (sid, old) →
      (race.set choice (sid, next)).map Prod.fst = ent.servers := by
    intro sid old next hsid
    have hmap : (race.map Prod.fst)[choice]? = some sid := by simp [hsid]
    obtain ⟨hlt, hget⟩ := List.getElem?_eq_some_iff.mp hmap
    rw [List.map_set, ← hrace]
    show (race.map Prod.fst).set choice sid = race.map Prod.fst
    rw [← hget, List.set_getElem_self]
  simp only [advance] at h
  split at h
  · rename_i hall
    cases h
    refine sound.quiet hcall rfl rfl sound.held
      ⟨hinstalled _, fun sid mem => ?_⟩
    rw [← hrace, List.mem_map] at mem
    obtain ⟨entry, mem, rfl⟩ := mem
    have hdone : entry.2 = .done := by simpa using List.all_eq_true.mp hall entry mem
    exact hfinished entry mem (by simp [hdone])
  · split at h
    · rename_i sid op hentry
      have hsid : sid ∈ ent.servers := by
        rw [← hrace]
        exact List.mem_map.mpr ⟨_, List.mem_of_getElem? hentry, rfl⟩
      rw [Option.map_eq_some_iff] at h
      obtain ⟨⟨w, op'⟩, hop, hw⟩ := h
      cases hw
      obtain ⟨htasks, -⟩ := Servers.step_cases hop
      refine sound.quiet hcall rfl htasks
        (sound.held.step hop) ⟨hinstalled _, hset sid _ _ hentry, ?_⟩
      intro entry mem hentry'
      rcases List.mem_or_eq_of_mem_set mem with mem | rfl
      · exact (Grows.of_eq htasks).allFinished not_false (hfinished entry mem hentry')
      · by_cases hdone : op' = .done
        · subst hdone
          exact sound.held.allFinished_of_step
            (not_storing_of_installed installed hsid) hop
        · simp [hdone] at hentry'
    · rename_i sid hentry
      rw [Option.map_eq_some_iff] at h
      obtain ⟨w, htake, hw⟩ := h
      cases hw
      have htasks := Servers.tasks_takeResult htake
      refine sound.quiet hcall rfl htasks
        (sound.held.takeResult htake) ⟨hinstalled _, hset sid _ _ hentry, ?_⟩
      intro entry mem hentry'
      refine (Grows.of_eq htasks).allFinished not_false ?_
      rcases List.mem_or_eq_of_mem_set mem with mem | rfl
      · exact hfinished entry mem hentry'
      · exact hfinished (sid, .taking) (List.mem_of_getElem? hentry) (by simp)
    · cases h

/-- The write of `join`. -/
theorem Sound.joinWrite (sound : Sound s) {ent : Entities}
    (hcall : s.calls[id]? = some ⟨kind, .joinWrite ent⟩)
    (hstate : s.shared.state = none ∨ s.shared.state = some ent)
    (h : advance s.shared id kind choice (.joinWrite ent) = some (sh, pc')) :
    Sound { shared := sh, calls := s.calls.set id ⟨kind, pc'⟩ } := by
  obtain ⟨-, hfinished⟩ := sound.calls id _ hcall
  simp only [advance] at h
  split at h
  · cases h
    refine sound.move hcall (by simp) (Grows.of_eq rfl) (fun _ h => h.elim) ?_ ?_ ?_ ?_
    · intro t task htask hunfinished
      exact (sound.held t task htask hunfinished).imp_right fun storing =>
        storing.set hcall (by simp)
    · intro t task htask hunfinished
      right
      rcases sound.located t task htask hunfinished with ⟨ent', hent', mem⟩ | inStart
      · -- the tasks of the state that is dropped have all finished
        have hent : ent' = ent := by
          rcases hstate with hnone | hsome
          · rw [hnone] at hent'
            cases hent'
          · rw [hsome] at hent'
            exact (Option.some.inj hent').symm
        rw [hent] at mem
        rw [hfinished _ mem t task htask rfl] at hunfinished
        cases hunfinished
      · exact inStart.set hcall (by simp)
    · intro ent' hent'
      cases hent'
    · cases kind <;> trivial
  · cases h

/-- The write of `start`, once all its servers have been started. -/
theorem Sound.startDone (sound : Sound s) {stage : Starting} {names : List String}
    (hcall : s.calls[id]? = some ⟨.start names true, .starting [] stage⟩)
    (hwait : s.shared.state = none) :
    Sound { shared := { s.shared with state := some ⟨id, names⟩, writer := false },
            calls := s.calls.set id ⟨.start names true, .returned⟩ } := by
  refine sound.move hcall (by simp) (Grows.of_eq rfl) (fun _ h => h.elim) ?_ ?_ ?_ trivial
  · intro t task htask hunfinished
    exact (sound.held t task htask hunfinished).imp_right fun storing =>
      storing.set hcall (by simp)
  · intro t task htask hunfinished
    rcases sound.located t task htask hunfinished with ⟨ent, hent, -⟩ | inStart
    · rw [hwait] at hent
      cases hent
    · obtain ⟨names', serializes', todo, stage', hsid, hname⟩ := inStart
      by_cases hid : id = task.server.owner
      · left
        rw [← hid, hcall] at hsid
        cases hsid
        exact ⟨_, rfl, mem_servers.mpr ⟨hid.symm, hname⟩⟩
      · right
        exact ⟨names', serializes', todo, stage',
          by rwa [List.getElem?_set_ne hid], hname⟩
  · intro ent hent
    cases hent
    exact ⟨_, getElem?_set_self hcall, rfl⟩

/-- The task of the next server is spawned, once all earlier ones have finished. -/
theorem Sound.spawn (sound : Sound s) {sid : ServerId} {todo : List ServerId}
    (hcall : s.calls[id]? = some ⟨kind, .starting (sid :: todo) (.stopping .done)⟩) :
    Sound { shared := { s.shared with servers := s.shared.servers.spawn sid },
            calls := s.calls.set id
              ⟨kind, .starting (sid :: todo) (.storing s.shared.servers.tasks.length)⟩ } := by
  obtain ⟨⟨names, serializes, rfl, htodo⟩, hstage⟩ := sound.calls id _ hcall
  obtain ⟨name, hname, rfl⟩ := List.mem_map.mp (htodo sid List.mem_cons_self)
  refine sound.move hcall (by simp) (P := fun sid => sid = ⟨id, name⟩) ?_
    (by rintro sid rfl; rfl) ?_ ?_ ?_ ?_
  · intro t task htask _
    exact (Servers.getElem?_tasks_spawn htask).imp_right And.right
  · intro t task htask hunfinished
    rcases Servers.getElem?_tasks_spawn htask with hold | ⟨rfl, hserver⟩
    · exact (sound.held t task hold hunfinished).imp_right fun storing =>
        storing.set hcall (by simp)
    · right
      rw [hserver]
      exact ⟨_, todo, getElem?_set_self hcall, rfl⟩
  · intro t task htask hunfinished
    rcases Servers.getElem?_tasks_spawn htask with hold | ⟨rfl, hserver⟩
    · exact (sound.located t task hold hunfinished).imp_right fun inStart =>
        inStart.set hcall fun _ _ _ => ⟨_, _, rfl⟩
    · right
      rw [hserver]
      exact ⟨names, serializes, _, _, getElem?_set_self hcall, hname⟩
  · intro ent hent
    exact (sound.state ent hent).set hcall (by simp)
  · refine ⟨⟨names, serializes, rfl, htodo⟩, fun sid rest hsid => ?_⟩
    cases hsid
    intro t task htask hserver hne
    rcases Servers.getElem?_tasks_spawn htask with hold | ⟨rfl, -⟩
    · exact hstage _ todo rfl rfl t task hold hserver
    · exact absurd rfl hne

/-- The handle of the task just spawned is stored. -/
theorem Sound.store (sound : Sound s) {sid : ServerId} {todo : List ServerId} {handle : ℕ}
    {w : Servers} (hcall : s.calls[id]? = some ⟨kind, .starting (sid :: todo) (.storing handle)⟩)
    (hstore : s.shared.servers.store sid handle = some w) :
    Sound { shared := { s.shared with servers := w },
            calls := s.calls.set id ⟨kind, .starting todo (.stopping .stopRead)⟩ } := by
  obtain ⟨⟨names, serializes, rfl, htodo⟩, hstage⟩ := sound.calls id _ hcall
  unfold Servers.store at hstore
  split at hstore
  · cases hstore
    refine sound.move hcall (by simp) (Grows.of_eq rfl) (fun _ h => h.elim) ?_ ?_ ?_ ?_
    · intro t task htask hunfinished
      by_cases hserver : task.server = sid
      · -- all other tasks of the server have finished, so this is the one stored
        left
        have ht : t = handle := by
          by_contra hne
          rw [hstage sid todo rfl t task htask hserver hne] at hunfinished
          cases hunfinished
        rw [hserver, ht, Servers.cell_set_self]
      · refine (sound.held t task htask hunfinished).imp (fun hstate => ?_) ?_
        · rwa [Servers.cell_set_ne hserver]
        · rintro ⟨call, rest, hstoring, hpc⟩
          by_cases hid : id = task.server.owner
          · rw [← hid, hcall] at hstoring
            cases hstoring
            simp only [Pc.starting.injEq, List.cons.injEq] at hpc
            exact absurd hpc.1.1.symm hserver
          · exact ⟨call, rest, by rwa [List.getElem?_set_ne hid], hpc⟩
    · intro t task htask hunfinished
      exact (sound.located t task htask hunfinished).imp_right fun inStart =>
        inStart.set hcall fun _ _ _ => ⟨_, _, rfl⟩
    · intro ent hent
      exact (sound.state ent hent).set hcall (by simp)
    · refine ⟨⟨names, serializes, rfl, fun sid mem => htodo sid
        (List.mem_cons_of_mem _ mem)⟩, fun sid rest hsid => ?_⟩
      intro hdone
      cases hdone
  · cases hstore

/-- `RunningServer::start` on the next server. -/
theorem Sound.startNext (sound : Sound s) {sid : ServerId} {todo : List ServerId}
    {stage : Starting}
    (hcall : s.calls[id]? = some ⟨kind, .starting (sid :: todo) stage⟩)
    (h : advance s.shared id kind choice (.starting (sid :: todo) stage)
      = some (sh, pc')) :
    Sound { shared := sh, calls := s.calls.set id ⟨kind, pc'⟩ } := by
  obtain ⟨hkind, -⟩ := sound.calls id _ hcall
  cases stage with
  | stopping op =>
      simp only [advance] at h
      split at h
      · rename_i hdone
        cases h
        subst hdone
        exact sound.spawn hcall
      · rw [Option.map_eq_some_iff] at h
        obtain ⟨⟨w, op'⟩, hop, hw⟩ := h
        cases hw
        obtain ⟨htasks, -⟩ := Servers.step_cases hop
        refine sound.quiet hcall rfl htasks (sound.held.step hop)
          ⟨hkind, fun sid rest hsid => ?_⟩ (by simp) (by simp) fun _ _ _ => ⟨_, _, rfl⟩
        cases hsid
        rintro rfl
        -- no handle of the server is about to be stored: its `start` is this call
        refine sound.held.allFinished_of_step (fun t => ?_) hop
        obtain ⟨names, serializes, rfl, htodo⟩ := hkind
        obtain ⟨name, -, rfl⟩ := List.mem_map.mp (htodo _ List.mem_cons_self)
        rintro ⟨call, rest, hstoring, hpc⟩
        rw [hcall] at hstoring
        cases hstoring
        cases hpc
  | storing handle =>
      simp only [advance, Option.map_eq_some_iff] at h
      obtain ⟨w, hstore, hw⟩ := h
      cases hw
      exact sound.store hcall hstore

/-- The steps of a call. -/
theorem Sound.advance (sound : Sound s) (hcall : s.calls[id]? = some ⟨kind, pc⟩)
    (hundisturbed : undisturbed s (.step id choice) = true)
    (h : RabbitDigger.advance s.shared id kind choice pc = some (sh, pc')) :
    Sound { shared := sh, calls := s.calls.set id ⟨kind, pc'⟩ } := by
  cases pc with
  | stopRead =>
      simp only [RabbitDigger.advance] at h
      split at h
      · cases h
      · split at h <;> cases h
        · exact sound.quiet hcall rfl rfl sound.held trivial
        · exact sound.quiet hcall rfl rfl sound.held trivial
  | stopping todo op =>
      cases todo with
      | nil =>
          cases h
          exact sound.quiet hcall rfl rfl sound.held trivial
      | cons sid todo =>
          simp only [RabbitDigger.advance] at h
          split at h
          · cases h
            exact sound.quiet hcall rfl rfl sound.held trivial
          · rw [Option.map_eq_some_iff] at h
            obtain ⟨⟨w, op'⟩, hop, hw⟩ := h
            cases hw
            exact sound.quiet hcall rfl
              (Servers.step_cases hop).1 (sound.held.step hop) trivial
  | joinRead =>
      simp only [RabbitDigger.advance] at h
      split at h
      · cases h
      · split at h <;> cases h
        · refine sound.quiet hcall rfl rfl sound.held ?_
          cases kind <;> trivial
        · rename_i ent hstate
          refine sound.quiet hcall rfl rfl sound.held
            ⟨(sound.state ent hstate).set hcall (by simp), ?_, ?_⟩
          · rw [List.map_map]
            exact List.map_id _
          · intro entry mem hentry
            obtain ⟨sid, -, rfl⟩ := List.mem_map.mp mem
            exact absurd rfl (hentry .joinRead)
  | racing ent race => exact sound.race hcall h
  | joinWrite ent =>
      simp only [undisturbed, hcall, Bool.or_eq_true, decide_eq_true_eq] at hundisturbed
      exact sound.joinWrite hcall hundisturbed h
  | startWrite =>
      simp only [RabbitDigger.advance] at h
      split at h
      · rename_i names serializes
        split at h
        · cases h
          refine sound.quiet hcall rfl rfl sound.held
            ⟨⟨names, serializes, rfl, fun _ mem => mem⟩, fun sid rest hsid hdone => ?_⟩
          cases hdone
        · cases h
      · cases h
  | starting todo stage =>
      cases todo with
      | nil =>
          cases kind with
          | start names serializes =>
              simp only [undisturbed, hcall, Bool.and_eq_true, decide_eq_true_eq]
                at hundisturbed
              obtain ⟨hwait, rfl⟩ := hundisturbed
              cases h
              exact sound.startDone hcall hwait
          | stop | join => cases h
      | cons sid todo => exact sound.startNext hcall h
  | returned => cases h

end Step

/-! ## All runs -/

theorem Sound.init : Sound managerSystem.init where
  held := fun t task htask => by simp [managerSystem, Servers.empty] at htask
  located := fun t task htask => by simp [managerSystem, Servers.empty] at htask
  state := fun ent hent => by cases hent
  calls := fun id call hcall => by simp [managerSystem] at hcall

/-- A new call. -/
theorem Sound.call {s : Manager} (sound : Sound s) (kind : CallKind) :
    Sound { s with calls := s.calls ++ [⟨kind, kind.entry⟩] } := by
  have hold : ∀ {id : ℕ} {call : Call}, s.calls[id]? = some call →
      (s.calls ++ [⟨kind, kind.entry⟩])[id]? = some call := by
    intro id call hcall
    obtain ⟨hlt, -⟩ := List.getElem?_eq_some_iff.mp hcall
    rwa [List.getElem?_append_left hlt]
  have hinstalled : ∀ ent, Installed s.calls ent →
      Installed (s.calls ++ [⟨kind, kind.entry⟩]) ent := by
    rintro ent ⟨call, hcall, hreturned⟩
    exact ⟨call, hold hcall, hreturned⟩
  refine ⟨?_, ?_, fun ent hent => hinstalled ent (sound.state ent hent), ?_⟩
  · intro t task htask hunfinished
    refine (sound.held t task htask hunfinished).imp_right ?_
    rintro ⟨call, todo, hcall, hpc⟩
    exact ⟨call, todo, hold hcall, hpc⟩
  · intro t task htask hunfinished
    refine (sound.located t task htask hunfinished).imp_right ?_
    rintro ⟨names, serializes, todo, stage, hcall, hname⟩
    exact ⟨names, serializes, todo, stage, hold hcall, hname⟩
  · intro id call hcall
    rw [List.getElem?_append] at hcall
    split at hcall
    · exact (sound.calls id call hcall).frame (Grows.of_eq rfl) hinstalled
        (fun _ h => h.elim) (fun _ h => h.elim)
    · rw [List.getElem?_singleton] at hcall
      split at hcall
      · cases hcall
        cases kind <;> trivial
      · cases hcall

/-- A task that ends. -/
theorem Sound.taskEnds {s : Manager} (sound : Sound s) {t : ℕ} {closes : Bool}
    {w : Servers} (h : s.shared.servers.taskEnds t closes = some w) :
    Sound { s with shared := { s.shared with servers := w } } := by
  unfold Servers.taskEnds at h
  split at h
  · rename_i ending hending
    split at h
    · cases h
    · cases h
      have hunchanged : ∀ (t' : ℕ) (task : Task),
          (s.shared.servers.tasks.set t { ending with finished := true })[t']?
            = some task → task.finished = false →
              s.shared.servers.tasks[t']? = some task := by
        intro t' task htask hunfinished
        rw [List.getElem?_set] at htask
        split at htask
        · split at htask
          · cases htask
            cases hunfinished
          · cases htask
        · exact htask
      refine ⟨?_, ?_, sound.state, ?_⟩
      · intro t' task htask hunfinished
        exact sound.held t' task (hunchanged t' task htask hunfinished) hunfinished
      · intro t' task htask hunfinished
        exact sound.located t' task (hunchanged t' task htask hunfinished) hunfinished
      · intro id call hcall
        refine (sound.calls id call hcall).frame (P := fun _ => False) ?_
          (fun _ installed => installed) (fun _ h => h.elim) (fun _ h => h.elim)
        intro t' task htask hunfinished
        exact .inl (hunchanged t' task htask hunfinished)
  · cases h

/-- **The step lemma.**  Every undisturbed event keeps the invariant. -/
theorem Sound.step (s : Manager) (event : ManagerEvent) (s' : Manager) (sound : Sound s)
    (hundisturbed : undisturbed s event = true) (h : s.step event = some s') :
    Sound s' := by
  cases event with
  | call kind =>
      cases h
      exact sound.call kind
  | step id choice =>
      simp only [Manager.step] at h
      split at h
      · cases h
      · rename_i call hcall
        rw [Option.map_eq_some_iff] at h
        obtain ⟨⟨sh, pc'⟩, hadvance, hs⟩ := h
        cases hs
        exact sound.advance hcall hundisturbed hadvance
  | taskEnds t closes =>
      simp only [Manager.step, Option.map_eq_some_iff] at h
      obtain ⟨w, hends, hs⟩ := h
      cases hs
      exact sound.taskEnds hends

/-- **No server is lost.**  In every run in which no overwrite hits a state that
another call has installed in between, for any number of concurrent calls: whenever
no call is in progress, every unfinished task belongs to a server of the current
`Running` state, which holds its handle; in `WaitConfig` no task is running. -/
theorem no_server_lost (s : Manager)
    (reach : managerSystem.Reach (fun s e => undisturbed s e = true) s)
    (quiet : ∀ call ∈ s.calls, call.pc = .returned) :
    (∀ (t : ℕ) (task : Task), s.shared.servers.tasks[t]? = some task →
      task.finished = false → ∃ ent, s.shared.state = some ent ∧
        task.server ∈ ent.servers ∧
        (s.shared.servers.cell task.server).state = .running t) ∧
    (s.shared.state = none → ∀ task ∈ s.shared.servers.tasks, task.finished = true) := by
  have sound : Sound s := reach.invariant Sound.init Sound.step
  have hrunning : ∀ (t : ℕ) (task : Task), s.shared.servers.tasks[t]? = some task →
      task.finished = false → ∃ ent, s.shared.state = some ent ∧
        task.server ∈ ent.servers ∧
        (s.shared.servers.cell task.server).state = .running t := by
    intro t task htask hunfinished
    -- with no call in progress, nothing is being started or about to be stored
    have hstate : (s.shared.servers.cell task.server).state = .running t := by
      refine (sound.held t task htask hunfinished).resolve_right ?_
      rintro ⟨call, todo, hcall, hpc⟩
      rw [quiet call (List.mem_of_getElem? hcall)] at hpc
      cases hpc
    rcases sound.located t task htask hunfinished with ⟨ent, hent, mem⟩ | inStart
    · exact ⟨ent, hent, mem, hstate⟩
    · obtain ⟨names, serializes, todo, stage, hcall, -⟩ := inStart
      cases quiet _ (List.mem_of_getElem? hcall)
  refine ⟨hrunning, fun hwait task mem => ?_⟩
  obtain ⟨t, htask⟩ := List.getElem?_of_mem mem
  by_contra hunfinished
  rw [Bool.not_eq_true] at hunfinished
  obtain ⟨ent, hent, -⟩ := hrunning t task htask hunfinished
  rw [hwait] at hent
  cases hent

/-- Two calls of `start` that overlap: both have found `WaitConfig` before either
of them takes the write lock. -/
def overlappingStarts : List ManagerEvent :=
  [.call (.start ["s"] true), .call (.start ["s"] true), .step 0 0, .step 0 0,
    .step 1 0, .step 1 0, .step 0 0, .step 0 0, .step 0 0, .step 0 0, .step 0 0,
    .step 1 0, .step 1 0, .step 1 0, .step 1 0, .step 1 0]

/-- Both calls return, and the task of the first one runs on: its server is not in
the current state, so no later `stop` reaches it. -/
theorem overlapping_starts_lose_server :
    ∃ s, managerSystem.Reachable s ∧ (∀ call ∈ s.calls, call.pc = .returned) ∧
      s.shared.state = some ⟨1, ["s"]⟩ ∧
      s.shared.servers.tasks[0]? = some ⟨⟨0, "s"⟩, false⟩ ∧
      (⟨0, "s"⟩ : ServerId) ∉ (⟨1, ["s"]⟩ : Entities).servers :=
  ⟨_, managerSystem.reachable_of_run overlappingStarts rfl, by decide, by decide,
    by decide, by decide⟩

/-- A `start` that is called while another one is under way, and gets the lock after it. -/
def restart : List ManagerEvent :=
  [.call (.start ["s"] true), .step 0 0, .call (.start ["s"] true)] ++
    List.replicate 6 (.step 0 0) ++ List.replicate 5 (.step 1 0) ++
    .taskEnds 0 true :: List.replicate 13 (.step 1 0)

/-- The task of the first one has ended, and the other is held by the server of the current
state. -/
theorem no_server_lost_restart :
    ∃ s, managerSystem.Reach (fun s e => undisturbed s e = true) s ∧
      s.shared.servers.tasks = [⟨⟨0, "s"⟩, true⟩, ⟨⟨1, "s"⟩, false⟩] ∧
      ∃ ent, s.shared.state = some ent ∧ (⟨1, "s"⟩ : ServerId) ∈ ent.servers ∧
        (s.shared.servers.cell ⟨1, "s"⟩).state = .running 1 := by
  have reach := managerSystem.reach_of_replay undisturbed restart rfl
  exact ⟨_, reach, by decide,
    (no_server_lost _ reach (by decide)).1 1 ⟨⟨1, "s"⟩, false⟩ (by decide) rfl⟩

end RabbitDigger
