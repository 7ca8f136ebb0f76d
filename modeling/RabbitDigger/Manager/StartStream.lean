import RabbitDigger.Manager.Lifecycle

/-!
# Following a stream of configs

`src/rabbit_digger.rs`: `start_stream` takes configs from a stream and keeps the servers of the
one that came last running.  It waits at most 30 seconds for the first config; then, in a loop, it
calls `start`, races `join` against the stream, and calls `stop` before it starts the next config.
When the stream ends or fails it calls `stop` once more and closes the connections that are left.

Every call that it makes is one of those of `Lifecycle`, and it makes **one at a time**.  What it
does besides is that it **drops** a `join`: when a config arrives while servers are running, the
future of `join` is dropped wherever it stands, and with it the locks that it holds.

What comes of it is `start_stream_sound`, for every stream and whatever the servers do.  Configs
are started in the order in which they come and none is passed over; a server never runs beside
one of another config; and once `start_stream` has returned, no server is running.  With several
callers none of this holds (`overlapping_starts_lose_server`): it is the one caller that makes
every overwrite of the state undisturbed.
-/

namespace RabbitDigger

open Transition

/-! ## Dropping a `join` -/

/-- The locks that a `join` of a server gives back when it is dropped. -/
def ServerOp.release (w : Servers) (sid : ServerId) : ServerOp → Servers
  | .joinAcquire => w.set sid { w.cell sid with readers := (w.cell sid).readers - 1 }
  | .joinHandle => w.set sid { w.cell sid with writer := false }
  | .stopRead | .joinRead | .joinWrite | .done => w

/-- One of the futures that `join` races is dropped. -/
def Race.release (w : Servers) (sid : ServerId) : Race → Servers
  | .joining op => op.release w sid
  | .taking | .done => w

/-- The future of `join` is dropped. -/
def Shared.dropJoin (sh : Shared) : Pc → Shared
  | .racing _ race =>
      { sh with
        readers := sh.readers - 1
        servers := race.foldl (fun w entry => entry.2.release w entry.1) sh.servers }
  | _ => sh

/-! ## What a step of a call can do -/

/-- The steps of a call, one by one: from which place, to which state and place. -/
inductive Moves (sh : Shared) (id : ℕ) (kind : CallKind) : Pc → Shared → Pc → Prop where
  | stopIdle : sh.writer = false → sh.state = none → Moves sh id kind .stopRead sh .joinRead
  | stopRunning {ent : Entities} : sh.writer = false → sh.state = some ent →
      Moves sh id kind .stopRead { sh with readers := sh.readers + 1 }
        (.stopping ent.servers .stopRead)
  | stopNext {sid : ServerId} {todo : List ServerId} :
      Moves sh id kind (.stopping (sid :: todo) .done) sh (.stopping todo .stopRead)
  | stopServer {sid : ServerId} {todo : List ServerId} {op op' : ServerOp} {servers : Servers} :
      op.step sh.servers sid = some (servers, op') →
      Moves sh id kind (.stopping (sid :: todo) op) { sh with servers := servers }
        (.stopping (sid :: todo) op')
  | stopped {op : ServerOp} :
      Moves sh id kind (.stopping [] op) { sh with readers := sh.readers - 1 } .joinRead
  | joinIdle : sh.writer = false → sh.state = none →
      Moves sh id kind .joinRead sh kind.afterJoin
  | joinRunning {ent : Entities} : sh.writer = false → sh.state = some ent →
      Moves sh id kind .joinRead { sh with readers := sh.readers + 1 }
        (.racing ent (ent.servers.map fun sid => (sid, .joining .joinRead)))
  | joinServer {ent : Entities} {race : List (ServerId × Race)} {choice : ℕ} {sid : ServerId}
      {op op' : ServerOp} {servers : Servers} : race[choice]? = some (sid, .joining op) →
      op.step sh.servers sid = some (servers, op') →
      Moves sh id kind (.racing ent race) { sh with servers := servers }
        (.racing ent (race.set choice (sid, if op' = .done then .taking else .joining op')))
  | takeResult {ent : Entities} {race : List (ServerId × Race)} {choice : ℕ} {sid : ServerId}
      {servers : Servers} : race[choice]? = some (sid, .taking) →
      sh.servers.takeResult sid = some servers →
      Moves sh id kind (.racing ent race) { sh with servers := servers }
        (.racing ent (race.set choice (sid, .done)))
  | raced {ent : Entities} {race : List (ServerId × Race)} :
      (∀ entry ∈ race, entry.2 = .done) →
      Moves sh id kind (.racing ent race) { sh with readers := sh.readers - 1 } (.joinWrite ent)
  | joined {ent : Entities} :
      Moves sh id kind (.joinWrite ent) { sh with state := none } kind.afterJoin
  | locked {names : List String} {serializes : Bool} : kind = .start names serializes →
      Moves sh id kind .startWrite { sh with writer := true }
        (.starting (names.map (ServerId.mk id)) (.stopping .stopRead))
  | spawned {sid : ServerId} {todo : List ServerId} :
      Moves sh id kind (.starting (sid :: todo) (.stopping .done))
        { sh with servers := sh.servers.spawn sid }
        (.starting (sid :: todo) (.storing sh.servers.tasks.length))
  | startServer {sid : ServerId} {todo : List ServerId} {op op' : ServerOp} {servers : Servers} :
      op.step sh.servers sid = some (servers, op') →
      Moves sh id kind (.starting (sid :: todo) (.stopping op)) { sh with servers := servers }
        (.starting (sid :: todo) (.stopping op'))
  | stored {sid : ServerId} {todo : List ServerId} {handle : ℕ} {servers : Servers} :
      sh.servers.store sid handle = some servers →
      Moves sh id kind (.starting (sid :: todo) (.storing handle)) { sh with servers := servers }
        (.starting todo (.stopping .stopRead))
  | started {stage : Starting} {names : List String} {serializes : Bool} :
      kind = .start names serializes →
      Moves sh id kind (.starting [] stage)
        { sh with
          state := if serializes then some ⟨id, names⟩ else sh.state
          writer := false } .returned

theorem moves_of_advance {sh sh' : Shared} {id choice : ℕ} {kind : CallKind} {pc pc' : Pc}
    (h : advance sh id kind choice pc = some (sh', pc')) : Moves sh id kind pc sh' pc' := by
  cases pc with
  | stopRead =>
      simp only [advance] at h
      split at h
      · cases h
      · rename_i hwriter
        rw [Bool.not_eq_true] at hwriter
        split at h <;> cases h
        · rename_i hstate
          exact .stopIdle hwriter hstate
        · rename_i hstate
          exact .stopRunning hwriter hstate
  | stopping todo op =>
      cases todo with
      | nil =>
          cases h
          exact .stopped
      | cons sid todo =>
          simp only [advance] at h
          split at h
          · rename_i hop
            cases h
            subst hop
            exact .stopNext
          · obtain ⟨⟨w, op'⟩, hop, hw⟩ := Option.map_eq_some_iff.mp h
            cases hw
            exact .stopServer hop
  | joinRead =>
      simp only [advance] at h
      split at h
      · cases h
      · rename_i hwriter
        rw [Bool.not_eq_true] at hwriter
        split at h <;> cases h
        · rename_i hstate
          exact .joinIdle hwriter hstate
        · rename_i hstate
          exact .joinRunning hwriter hstate
  | racing ent race =>
      simp only [advance] at h
      split at h
      · rename_i hdone
        cases h
        exact .raced (by simpa using hdone)
      · split at h
        · rename_i hentry
          obtain ⟨⟨w, op'⟩, hop, hw⟩ := Option.map_eq_some_iff.mp h
          cases hw
          exact .joinServer hentry hop
        · rename_i hentry
          obtain ⟨w, hop, hw⟩ := Option.map_eq_some_iff.mp h
          cases hw
          exact .takeResult hentry hop
        · cases h
  | joinWrite ent =>
      simp only [advance] at h
      split at h
      · cases h
        exact .joined
      · cases h
  | startWrite =>
      simp only [advance] at h
      split at h
      · split at h
        · cases h
          exact .locked rfl
        · cases h
      · cases h
  | starting todo stage =>
      cases todo with
      | nil =>
          simp only [advance] at h
          split at h
          · cases h
            exact .started rfl
          · cases h
      | cons sid todo =>
          cases stage with
          | stopping op =>
              simp only [advance] at h
              split at h
              · rename_i hop
                cases h
                subst hop
                exact .spawned
              · obtain ⟨⟨w, op'⟩, hop, hw⟩ := Option.map_eq_some_iff.mp h
                cases hw
                exact .startServer hop
          | storing handle =>
              obtain ⟨w, hstore, hw⟩ := Option.map_eq_some_iff.mp h
              cases hw
              exact .stored hstore
  | returned => cases h

/-- The state after a step: as before, or emptied, or that of the call itself. -/
theorem Moves.state {sh sh' : Shared} {id : ℕ} {kind : CallKind} {pc pc' : Pc}
    (h : Moves sh id kind pc sh' pc') :
    sh'.state = sh.state ∨ sh'.state = none ∨
      ∃ names serializes, kind = .start names serializes ∧ sh'.state = some ⟨id, names⟩ := by
  cases h with
  | joined => exact .inr (.inl rfl)
  | @started stage names serializes hkind =>
      cases serializes with
      | false => exact .inl rfl
      | true => exact .inr (.inr ⟨names, true, hkind, rfl⟩)
  | _ => exact .inl rfl

/-! ## Dropping gives back locks only -/

section Drop

variable {w : Servers} {sid : ServerId} {except : ServerId → ℕ → Prop}

/-- A lock is another one, and nothing else. -/
theorem Servers.Held.set_lock (held : w.Held except) {server : RunningServer}
    (hstate : server.state = (w.cell sid).state) : (w.set sid server).Held except := by
  intro t task htask hunfinished
  refine (held t task htask hunfinished).imp_left fun hrunning => ?_
  by_cases hsid : task.server = sid
  · rw [hsid, Servers.cell_set_self, hstate, ← hsid]
    exact hrunning
  · rw [Servers.cell_set_ne hsid]
    exact hrunning

theorem release_held (held : w.Held except) (sid : ServerId) (race : Race) :
    (race.release w sid).Held except ∧ (race.release w sid).tasks = w.tasks := by
  cases race with
  | joining op =>
      cases op with
      | joinAcquire | joinHandle => exact ⟨held.set_lock rfl, rfl⟩
      | _ => exact ⟨held, rfl⟩
  | taking | done => exact ⟨held, rfl⟩

theorem foldl_release_held (race : List (ServerId × Race)) (held : w.Held except) :
    (race.foldl (fun w entry => entry.2.release w entry.1) w).Held except ∧
      (race.foldl (fun w entry => entry.2.release w entry.1) w).tasks = w.tasks := by
  induction race generalizing w with
  | nil => exact ⟨held, rfl⟩
  | cons entry race ih =>
      obtain ⟨held', htasks⟩ := release_held held entry.1 entry.2
      obtain ⟨held'', htasks'⟩ := ih held'
      exact ⟨held'', htasks'.trans htasks⟩

end Drop

theorem Sound.dropJoin_held {m : Manager} (h : Sound m) (pc : Pc) :
    (m.shared.dropJoin pc).servers.Held (Storing m.calls) ∧
      (m.shared.dropJoin pc).servers.tasks = m.shared.servers.tasks ∧
      (m.shared.dropJoin pc).state = m.shared.state := by
  cases pc with
  | racing ent race =>
      obtain ⟨held, htasks⟩ := foldl_release_held race h.held
      exact ⟨held, htasks, rfl⟩
  | _ => exact ⟨h.held, rfl, rfl⟩

namespace StartStream

/-! ## The supervisor -/

/-- What matters of a config: whether `build_entities` succeeds on it, the names of its servers,
which are the keys of a map, and whether `serde_json::to_string` succeeds on it. -/
structure Config where
  builds : Bool
  names : List String
  nodup : names.Nodup
  serializes : Bool

/-- Why `start_stream` fails; `E` are the errors of the stream. -/
inductive Failure (E : Type) where
  /-- "Waiting too long for first config_stream, can not start." -/
  | noConfig
  /-- "Failed to get first config." -/
  | firstConfig (error : E)
  /-- "Failed to build server" -/
  | build
  /-- The error of `serde_json::to_string` in `start`. -/
  | serialize

/-- Where `start_stream` stands, with the number of the call that it awaits. -/
inductive Place (E : Type) where
  /-- Waiting for the first config. -/
  | first
  /-- In `start`. -/
  | start (id : ℕ) (config : Config)
  /-- In `try_select`, with the future of `join` and the stream. -/
  | race (id : ℕ)
  /-- All servers have ended; waiting for the next config. -/
  | next
  /-- In `stop`, with the next config. -/
  | stop (id : ℕ) (config : Config)
  /-- In the `stop` after the loop. -/
  | lastStop (id : ℕ)
  /-- Waiting for the connections to exit, with `close_count`. -/
  | close (closeCount : ℕ)
  | returned (result : Except (Failure E) Unit)

/-- The call that is awaited. -/
def Place.current {E : Type} : Place E → Option ℕ
  | .start id _ | .race id | .stop id _ | .lastStop id => some id
  | .first | .next | .close _ | .returned _ => none

/-- `start_stream` and the manager that it is called on, with the configs that the stream has
yielded. -/
structure State (E : Type) where
  manager : Manager
  place : Place E
  configs : List Config

/-- What can happen. -/
inductive Event (E : Type) where
  /-- 30 seconds have passed. -/
  | timeout
  /-- `config_stream.try_next()` is ready. -/
  | yields (item : Except E (Option Config))
  /-- `start_stream` goes on; of the futures that `join` races, `choice` moves. -/
  | step (choice : ℕ)
  /-- The loop that closes connections looks at the table: it finds `count` of them, and
  `stop_connections` stops `stopped`. -/
  | look (count stopped : ℕ)
  /-- The task of a server ends. -/
  | taskEnds (task : ℕ) (closes : Bool)

namespace State

variable {E : Type}

def initial : State E := ⟨managerSystem.init, .first, []⟩

/-- `return`. -/
def ret (s : State E) (result : Except (Failure E) Unit) : State E :=
  { s with place := .returned result }

/-- A call is made. -/
def enter (s : State E) (kind : CallKind) (place : ℕ → Place E) : State E :=
  { s with
    manager := { s.manager with calls := s.manager.calls ++ [⟨kind, kind.entry⟩] }
    place := place s.manager.calls.length }

/-- The future of a `join` is dropped: the call is gone, like one that has returned. -/
def dropJoin (s : State E) (id : ℕ) : State E :=
  match s.manager.calls[id]? with
  | some call =>
      { s with
        manager :=
          { shared := s.manager.shared.dropJoin call.pc
            calls := s.manager.calls.set id ⟨call.kind, .returned⟩ } }
  | none => s

/-- The top of the loop: `start` builds the entities before anything else. -/
def start (s : State E) (config : Config) : State E :=
  if config.builds then
    s.enter (.start config.names config.serializes) (.start · config)
  else s.ret (.error .build)

/-- The end of the loop: `new_config` is there. -/
def received (s : State E) : Except E (Option Config) → State E
  | .ok (some config) =>
      { s with configs := s.configs ++ [config] }.enter .stop (.stop · config)
  | .ok none => s.enter .stop .lastStop
  -- the error of the stream is logged, and forgotten
  | .error _ => s.enter .stop .lastStop

/-- A call goes on, or has returned. -/
def proceed (s : State E) (id choice : ℕ) (next : State E → State E) : Option (State E) :=
  match s.manager.calls[id]? with
  | some ⟨_, .returned⟩ => some (next s)
  | _ => (s.manager.step (.step id choice)).map fun manager => { s with manager }

/-- One event. -/
def step (s : State E) : Event E → Option (State E)
  | .timeout =>
      match s.place with
      | .first => some (s.ret (.error .noConfig))
      | _ => none
  | .yields item =>
      match s.place with
      | .first =>
          match item with
          | .ok (some config) => some ({ s with configs := s.configs ++ [config] }.start config)
          | .ok none => some (s.ret (.error .noConfig))
          | .error e => some (s.ret (.error (.firstConfig e)))
      | .race id => some ((s.dropJoin id).received item)
      | .next => some (s.received item)
      | _ => none
  | .step choice =>
      match s.place with
      | .start id config => s.proceed id choice fun s =>
          if config.serializes then s.enter .join .race else s.ret (.error .serialize)
      | .race id => s.proceed id choice fun s => { s with place := .next }
      | .stop id config => s.proceed id choice fun s => s.start config
      | .lastStop id => s.proceed id choice fun s => { s with place := .close 0 }
      | _ => none
  | .look count stopped =>
      match s.place with
      | .close closeCount =>
          if count = 0 then some (s.ret (.ok ()))
          else some { s with place := .close (closeCount + stopped) }
      | _ => none
  | .taskEnds t closes =>
      (s.manager.step (.taskEnds t closes)).map fun manager => { s with manager }

end State

/-- `start_stream`, on a manager that is its own. -/
def system (E : Type) : System (State E) (Event E) := ⟨.initial, State.step⟩

/-- Every config can be serialized. -/
def serializes {E : Type} (_ : State E) : Event E → Bool
  | .yields (.ok (some config)) => config.serializes
  | _ => true

/-! ## One call at a time -/

/-- The config of the last call of `start`. -/
def Latest (calls : List Call) (ent : Entities) : Prop :=
  (∃ serializes pc, calls[ent.id]? = some ⟨.start ent.names serializes, pc⟩) ∧
    ∀ j call, ent.id < j → calls[j]? = some call →
      ∀ names serializes, call.kind ≠ .start names serializes

/-- The state that a call finds, if it is the only one. -/
def Finds (state : Option Entities) (id : ℕ) (kind : CallKind) : Pc → Prop
  | .racing ent _ | .joinWrite ent => state = some ent
  | .startWrite | .starting _ _ => state = none
  | .returned =>
      match kind with
      | .start names _ => state = some ⟨id, names⟩
      | .stop | .join => state = none
  | .stopRead | .stopping _ _ | .joinRead => True

/-- No call is under way. -/
structure Idle (m : Manager) : Prop where
  sound : Sound m
  returned : ∀ call ∈ m.calls, call.pc = .returned
  latest : ∀ ent, m.shared.state = some ent → Latest m.calls ent

/-- One call is under way, the last one that was made. -/
structure Alone (m : Manager) (id : ℕ) (kind : CallKind) (pc : Pc) : Prop where
  sound : Sound m
  last : m.calls.length = id + 1
  call : m.calls[id]? = some ⟨kind, pc⟩
  others : ∀ i call, m.calls[i]? = some call → i ≠ id → call.pc = .returned
  finds : Finds m.shared.state id kind pc
  latest : ∀ ent, m.shared.state = some ent → Latest m.calls ent

section Latest

variable {calls : List Call} {ent : Entities} {id : ℕ} {kind : CallKind} {pc pc' : Pc}

/-- A call that moves is the same call. -/
theorem Latest.set (h : Latest calls ent) (hcall : calls[id]? = some ⟨kind, pc⟩) :
    Latest (calls.set id ⟨kind, pc'⟩) ent := by
  obtain ⟨⟨serializes, pc₀, hent⟩, hlater⟩ := h
  refine ⟨?_, ?_⟩
  · by_cases hid : id = ent.id
    · subst hid
      rw [hcall] at hent
      cases hent
      exact ⟨serializes, pc', getElem?_set_self hcall⟩
    · exact ⟨serializes, pc₀, by rwa [List.getElem?_set_ne hid]⟩
  · intro j call hj hcall'
    by_cases hid : id = j
    · subst hid
      rw [getElem?_set_self hcall] at hcall'
      cases hcall'
      exact hlater id ⟨kind, pc⟩ hj hcall
    · rw [List.getElem?_set_ne hid] at hcall'
      exact hlater j call hj hcall'

/-- A call that is not of `start`. -/
theorem Latest.append (h : Latest calls ent)
    (hkind : ∀ names serializes, kind ≠ .start names serializes) :
    Latest (calls ++ [⟨kind, pc⟩]) ent := by
  obtain ⟨⟨serializes, pc₀, hent⟩, hlater⟩ := h
  obtain ⟨hlt, -⟩ := List.getElem?_eq_some_iff.mp hent
  refine ⟨⟨serializes, pc₀, by rwa [List.getElem?_append_left hlt]⟩, ?_⟩
  intro j call hj hcall
  rw [List.getElem?_append] at hcall
  split at hcall
  · exact hlater j call hj hcall
  · rw [List.getElem?_singleton] at hcall
    split at hcall
    · cases hcall
      exact hkind
    · cases hcall

end Latest

section Calls

variable {m : Manager} {id choice : ℕ} {kind : CallKind} {pc pc' : Pc} {sh : Shared}

/-- A call that is made when none is under way; `start` when there is nothing to stop. -/
theorem Idle.enter (h : Idle m) (kind : CallKind)
    (hstart : ∀ names serializes, kind = .start names serializes → m.shared.state = none) :
    Alone { m with calls := m.calls ++ [⟨kind, kind.entry⟩] } m.calls.length kind kind.entry where
  sound := h.sound.call kind
  last := by simp
  call := List.getElem?_concat_length
  others := by
    intro i call hcall hi
    rw [List.getElem?_append] at hcall
    split at hcall
    · exact h.returned call (List.mem_of_getElem? hcall)
    · rw [List.getElem?_singleton] at hcall
      split at hcall
      · omega
      · cases hcall
  finds := by cases kind <;> trivial
  latest := by
    intro ent hent
    refine (h.latest ent hent).append fun names serializes hkind => ?_
    cases (hstart names serializes hkind).symm.trans hent

/-- The call has returned. -/
theorem Alone.idle (h : Alone m id kind .returned) : Idle m where
  sound := h.sound
  returned := by
    intro call hmem
    obtain ⟨i, hi⟩ := List.getElem?_of_mem hmem
    by_cases hid : i = id
    · subst hid
      rw [h.call] at hi
      cases hi
      rfl
    · exact h.others i call hi hid
  latest := h.latest

/-- The write of a call that is alone is undisturbed. -/
theorem Alone.undisturbed (h : Alone m id kind pc)
    (hserializes : ∀ names, kind ≠ .start names false) :
    undisturbed m (.step id choice) = true := by
  have hfinds := h.finds
  simp only [RabbitDigger.undisturbed, h.call]
  cases pc with
  | joinWrite ent => simp [show m.shared.state = some ent from hfinds]
  | starting todo stage =>
      cases kind with
      | start names serializes =>
          cases todo with
          | nil =>
              cases serializes with
              | false => exact absurd rfl (hserializes names)
              | true => simp [show m.shared.state = none from hfinds]
          | cons sid todo => rfl
      | stop | join => cases todo <;> rfl
  | _ => rfl

/-- What a call leaves to find. -/
theorem Finds.moves {sh' : Shared} (hfinds : Finds sh.state id kind pc)
    (hserializes : ∀ names, kind ≠ .start names false) (h : Moves sh id kind pc sh' pc') :
    Finds sh'.state id kind pc' := by
  have hafter : ∀ state : Option Entities, state = none → Finds state id kind kind.afterJoin := by
    rintro _ rfl
    cases kind <;> rfl
  cases h with
  | joinIdle _ hstate => exact hafter _ hstate
  | joinRunning _ hstate => exact hstate
  | joined => exact hafter none rfl
  | @started stage names serializes hkind =>
      subst hkind
      cases serializes with
      | false => exact absurd rfl (hserializes names)
      | true => rfl
  | stopIdle | stopRunning | stopNext | stopServer | stopped => trivial
  | joinServer | takeResult | raced | locked | spawned | startServer | stored => exact hfinds

/-- A step of the call. -/
theorem Alone.advance (h : Alone m id kind pc) (hserializes : ∀ names, kind ≠ .start names false)
    (hstep : advance m.shared id kind choice pc = some (sh, pc')) :
    Alone ⟨sh, m.calls.set id ⟨kind, pc'⟩⟩ id kind pc' where
  sound := h.sound.advance h.call (h.undisturbed hserializes) hstep
  last := by rw [List.length_set, h.last]
  call := getElem?_set_self h.call
  others := by
    intro i call hcall hi
    rw [List.getElem?_set_ne (Ne.symm hi)] at hcall
    exact h.others i call hcall hi
  finds := h.finds.moves hserializes (moves_of_advance hstep)
  latest := by
    intro ent hent
    rcases (moves_of_advance hstep).state with hstate | hstate | ⟨names, serializes, rfl, hstate⟩
    · exact (h.latest ent (hstate ▸ hent)).set h.call
    · cases hstate.symm.trans hent
    · cases hstate.symm.trans hent
      refine ⟨⟨serializes, pc', getElem?_set_self h.call⟩, fun j call hj hcall => ?_⟩
      -- nothing was called after it
      obtain ⟨hlt, -⟩ := List.getElem?_eq_some_iff.mp hcall
      rw [List.length_set, h.last] at hlt
      exact absurd hlt (Nat.not_lt.mpr hj)

theorem Idle.taskEnds (h : Idle m) {t : ℕ} {closes : Bool} {w : Servers}
    (hends : m.shared.servers.taskEnds t closes = some w) :
    Idle { m with shared := { m.shared with servers := w } } :=
  ⟨h.sound.taskEnds hends, h.returned, h.latest⟩

theorem Alone.taskEnds (h : Alone m id kind pc) {t : ℕ} {closes : Bool} {w : Servers}
    (hends : m.shared.servers.taskEnds t closes = some w) :
    Alone { m with shared := { m.shared with servers := w } } id kind pc :=
  ⟨h.sound.taskEnds hends, h.last, h.call, h.others, h.finds, h.latest⟩

/-- A `join` that is dropped. -/
theorem Alone.dropJoin (h : Alone m id .join pc) :
    Idle ⟨m.shared.dropJoin pc, m.calls.set id ⟨.join, .returned⟩⟩ := by
  by_cases hpc : pc = .returned
  · subst hpc
    have hset : m.calls.set id ⟨.join, .returned⟩ = m.calls := by
      obtain ⟨hlt, hget⟩ := List.getElem?_eq_some_iff.mp h.call
      rw [← hget, List.set_getElem_self]
    rw [hset]
    exact h.idle
  · obtain ⟨held, htasks, hstate⟩ := h.sound.dropJoin_held pc
    have hstarting : ∀ todo stage, pc ≠ .starting todo stage := by
      rintro todo stage rfl
      obtain ⟨⟨names, serializes, hkind, -⟩, -⟩ := h.sound.calls id _ h.call
      cases hkind
    refine ⟨h.sound.quiet h.call hstate htasks held trivial hpc (fun _ _ _ => hstarting _ _)
      (fun todo stage heq => absurd heq (hstarting todo stage)), ?_, ?_⟩
    · intro call hmem
      obtain ⟨i, hi⟩ := List.getElem?_of_mem hmem
      by_cases hid : i = id
      · subst hid
        rw [getElem?_set_self h.call] at hi
        cases hi
        rfl
      · rw [List.getElem?_set_ne (Ne.symm hid)] at hi
        exact h.others i call hi hid
    · intro ent hent
      exact (h.latest ent (hstate ▸ hent)).set h.call

/-! ## What is running -/

/-- With no call under way, what is running belongs to the state. -/
theorem Idle.running (h : Idle m) {t : ℕ} {task : Task}
    (htask : m.shared.servers.tasks[t]? = some task) (hunfinished : task.finished = false) :
    ∃ ent, m.shared.state = some ent ∧ task.server ∈ ent.servers := by
  refine (h.sound.located t task htask hunfinished).resolve_right ?_
  rintro ⟨names, serializes, todo, stage, hcall, -⟩
  cases h.returned _ (List.mem_of_getElem? hcall)

/-- **No two configs at once.**  What is running while a call is under way belongs to the last
config. -/
theorem Alone.running (h : Alone m id kind pc) {t : ℕ} {task : Task}
    (htask : m.shared.servers.tasks[t]? = some task) (hunfinished : task.finished = false) :
    ∃ ent, Latest m.calls ent ∧ task.server ∈ ent.servers := by
  rcases h.sound.located t task htask hunfinished with
    ⟨ent, hent, hmem⟩ | ⟨names, serializes, todo, stage, hcall, hname⟩
  · exact ⟨ent, h.latest ent hent, hmem⟩
  · -- only the call that is under way can be starting servers
    have hid : task.server.owner = id := by
      by_contra hne
      cases h.others _ _ hcall hne
    refine ⟨⟨id, names⟩, ⟨⟨serializes, _, hid ▸ hcall⟩, fun j call hj hcall' => ?_⟩,
      mem_servers.mpr ⟨hid, hname⟩⟩
    obtain ⟨hlt, -⟩ := List.getElem?_eq_some_iff.mp hcall'
    rw [h.last] at hlt
    exact absurd hlt (Nat.not_lt.mpr hj)

end Calls

/-! ## The configs that were started -/

/-- The names of the servers that a call starts. -/
def starts (calls : List Call) : List (List String) :=
  calls.filterMap fun call =>
    match call.kind with
    | .start names _ => some names
    | .stop | .join => none

theorem starts_append (calls : List Call) (kind : CallKind) (pc : Pc) :
    starts (calls ++ [⟨kind, pc⟩]) = starts calls ++ starts [⟨kind, pc⟩] :=
  List.filterMap_append

/-- A call that moves starts what it started. -/
theorem starts_set {calls : List Call} {id : ℕ} {kind : CallKind} {pc pc' : Pc}
    (hcall : calls[id]? = some ⟨kind, pc⟩) : starts (calls.set id ⟨kind, pc'⟩) = starts calls := by
  induction calls generalizing id with
  | nil => rfl
  | cons call calls ih =>
      cases id with
      | zero =>
          cases hcall
          rfl
      | succ id =>
          have hrest := ih (show calls[id]? = some ⟨kind, pc⟩ from hcall)
          simp only [starts, List.set_cons_succ, List.filterMap_cons] at hrest ⊢
          rw [hrest]

/-! ## All runs -/

section Runs

variable {E : Type} {s s' : State E}

/-- Where `start_stream` stands, and what it finds there. -/
def Placed (m : Manager) : Place E → Prop
  | .start id config => config.serializes = true ∧
      ∃ pc, Alone m id (.start config.names config.serializes) pc
  | .race id => ∃ pc, Alone m id .join pc
  | .stop id config => config.serializes = true ∧ ∃ pc, Alone m id .stop pc
  | .lastStop id => ∃ pc, Alone m id .stop pc
  | .first | .next | .close _ | .returned _ => Idle m ∧ m.shared.state = none

/-- Which of the configs have been started. -/
def Followed (configs : List Config) (started : List (List String)) : Place E → Prop
  | .first | .returned (.error .noConfig) | .returned (.error (.firstConfig _)) =>
      configs = [] ∧ started = []
  | .stop _ config => ∃ before, configs = before ++ [config] ∧ started = before.map Config.names
  | .returned (.error .build) => ∃ before config, configs = before ++ [config] ∧
      config.builds = false ∧ started = before.map Config.names
  | .returned (.error .serialize) => False
  | .start _ _ | .race _ | .next | .lastStop _ | .close _ | .returned (.ok _) =>
      configs ≠ [] ∧ started = configs.map Config.names

/-- **The invariant.** -/
structure Inv (s : State E) : Prop where
  placed : Placed s.manager s.place
  followed : Followed s.configs (starts s.manager.calls) s.place

theorem Inv.initial : Inv (State.initial : State E) where
  placed := ⟨⟨Sound.init, fun _ hmem => (nomatch hmem), fun _ hent => (nomatch hent)⟩, rfl⟩
  followed := ⟨rfl, rfl⟩

/-- The top of the loop. -/
theorem Inv.start {m : Manager} {place : Place E} {before : List Config} {config : Config}
    (idle : Idle m) (hstate : m.shared.state = none)
    (hstarted : starts m.calls = before.map Config.names) (hserializes : config.serializes = true) :
    Inv (State.start ⟨m, place, before ++ [config]⟩ config) := by
  unfold State.start
  split
  · refine ⟨⟨hserializes, _, idle.enter _ fun _ _ _ => hstate⟩, ?_, ?_⟩
    · exact List.append_ne_nil_of_right_ne_nil before (List.cons_ne_nil config [])
    show starts (m.calls ++ [_]) = (before ++ [config]).map Config.names
    rw [starts_append, hstarted, List.map_append]
    rfl
  · rename_i hbuilds
    exact ⟨⟨idle, hstate⟩, before, config, rfl, by simpa using hbuilds, hstarted⟩

/-- The end of the loop. -/
theorem Inv.received {m : Manager} {place : Place E} {configs : List Config} (idle : Idle m)
    (hconfigs : configs ≠ []) (hstarted : starts m.calls = configs.map Config.names)
    {item : Except E (Option Config)}
    (hitem : ∀ config, item = .ok (some config) → config.serializes = true) :
    Inv (State.received ⟨m, place, configs⟩ item) := by
  have hstop : starts (m.calls ++ [⟨.stop, .stopRead⟩]) = configs.map Config.names := by
    rw [starts_append, hstarted]
    exact List.append_nil _
  have halone := idle.enter .stop (fun _ _ h => nomatch h)
  rcases item with e | _ | config
  · exact ⟨⟨_, halone⟩, hconfigs, hstop⟩
  · exact ⟨⟨_, halone⟩, hconfigs, hstop⟩
  · exact ⟨⟨hitem config rfl, _, halone⟩, configs, rfl, hstop⟩

/-- What `proceed` can do. -/
theorem proceed_cases {id choice : ℕ} {next : State E → State E}
    (h : s.proceed id choice next = some s') {kind : CallKind} {pc : Pc}
    (hcall : s.manager.calls[id]? = some ⟨kind, pc⟩) :
    (pc = .returned ∧ s' = next s) ∨
      ∃ sh pc', advance s.manager.shared id kind choice pc = some (sh, pc') ∧
        s' = { s with manager := ⟨sh, s.manager.calls.set id ⟨kind, pc'⟩⟩ } := by
  unfold State.proceed at h
  by_cases hpc : pc = .returned
  · subst hpc
    rw [hcall] at h
    exact .inl ⟨rfl, (Option.some.inj h).symm⟩
  · right
    have hstep : (s.manager.step (.step id choice)).map (fun manager => { s with manager })
        = some s' := by
      rw [hcall] at h
      cases pc with
      | returned => exact absurd rfl hpc
      | _ => exact h
    obtain ⟨manager, hmanager, rfl⟩ := Option.map_eq_some_iff.mp hstep
    simp only [Manager.step, hcall] at hmanager
    obtain ⟨⟨sh, pc'⟩, hadvance, rfl⟩ := Option.map_eq_some_iff.mp hmanager
    exact ⟨sh, pc', hadvance, rfl⟩

/-- `start_stream` goes on. -/
theorem Inv.proceed (h : Inv s) {choice : ℕ} (hstep : s.step (.step choice) = some s') :
    Inv s' := by
  obtain ⟨m, place, configs⟩ := s
  obtain ⟨placed, followed⟩ := h
  cases place with
  | start id config =>
      simp only [State.step] at hstep
      obtain ⟨hserializes, pc, alone⟩ := placed
      rcases proceed_cases hstep alone.call with ⟨rfl, rfl⟩ | ⟨sh, pc', hadvance, rfl⟩
      · have halone := alone.idle.enter .join (fun _ _ h => nomatch h)
        simp only [hserializes, if_true]
        refine ⟨⟨_, halone⟩, followed.1, ?_⟩
        show starts (m.calls ++ [_]) = _
        rw [starts_append, followed.2]
        exact List.append_nil _
      · have hkind : ∀ names,
            CallKind.start config.names config.serializes ≠ .start names false := by
          rw [hserializes]
          exact nofun
        exact ⟨⟨hserializes, pc', alone.advance hkind hadvance⟩, followed.1,
          (starts_set alone.call).trans followed.2⟩
  | race | lastStop =>
      simp only [State.step] at hstep
      obtain ⟨pc, alone⟩ := placed
      rcases proceed_cases hstep alone.call with ⟨rfl, rfl⟩ | ⟨sh, pc', hadvance, rfl⟩
      · exact ⟨⟨alone.idle, alone.finds⟩, followed⟩
      · exact ⟨⟨pc', alone.advance nofun hadvance⟩, followed.1,
          (starts_set alone.call).trans followed.2⟩
  | stop id config =>
      simp only [State.step] at hstep
      obtain ⟨hserializes, pc, alone⟩ := placed
      obtain ⟨before, rfl, hstarted⟩ := followed
      rcases proceed_cases hstep alone.call with ⟨rfl, rfl⟩ | ⟨sh, pc', hadvance, rfl⟩
      · exact .start alone.idle alone.finds hstarted hserializes
      · exact ⟨⟨hserializes, pc', alone.advance nofun hadvance⟩, before, rfl,
          (starts_set alone.call).trans hstarted⟩
  | first | next | close | returned => cases hstep

/-- The stream yields something. -/
theorem Inv.yields (h : Inv s) {item : Except E (Option Config)}
    (hitem : ∀ config, item = .ok (some config) → config.serializes = true)
    (hstep : s.step (.yields item) = some s') : Inv s' := by
  obtain ⟨m, place, configs⟩ := s
  obtain ⟨placed, followed⟩ := h
  cases place with
  | first =>
      obtain ⟨idle, hstate⟩ := placed
      obtain ⟨rfl, hstarted⟩ := followed
      rcases item with e | _ | config
      all_goals cases hstep
      · exact ⟨⟨idle, hstate⟩, rfl, hstarted⟩
      · exact ⟨⟨idle, hstate⟩, rfl, hstarted⟩
      · show Inv (State.start ⟨m, .first, [] ++ [config]⟩ config)
        exact .start idle hstate hstarted (hitem config rfl)
  | race id =>
      obtain ⟨pc, alone⟩ := placed
      have hdrop : (⟨m, .race id, configs⟩ : State E).dropJoin id
          = ⟨⟨m.shared.dropJoin pc, m.calls.set id ⟨.join, .returned⟩⟩, .race id, configs⟩ := by
        simp only [State.dropJoin, alone.call]
      cases hstep
      rw [hdrop]
      exact .received alone.dropJoin followed.1 ((starts_set alone.call).trans followed.2) hitem
  | next =>
      obtain ⟨idle, -⟩ := placed
      cases hstep
      exact .received idle followed.1 followed.2 hitem
  | start | stop | lastStop | close | returned => cases hstep

/-- A task ends. -/
theorem Inv.taskEnds (h : Inv s) {t : ℕ} {closes : Bool}
    (hstep : s.step (.taskEnds t closes) = some s') : Inv s' := by
  obtain ⟨m, place, configs⟩ := s
  obtain ⟨placed, followed⟩ := h
  obtain ⟨m', hm, rfl⟩ := Option.map_eq_some_iff.mp hstep
  obtain ⟨w, hends, rfl⟩ := Option.map_eq_some_iff.mp hm
  refine ⟨?_, followed⟩
  cases place with
  | start | stop =>
      obtain ⟨hserializes, pc, alone⟩ := placed
      exact ⟨hserializes, pc, alone.taskEnds hends⟩
  | race | lastStop =>
      obtain ⟨pc, alone⟩ := placed
      exact ⟨pc, alone.taskEnds hends⟩
  | first | next | close | returned => exact ⟨placed.1.taskEnds hends, placed.2⟩

/-- **The step lemma.** -/
theorem Inv.step (s : State E) (event : Event E) (s' : State E) (h : Inv s)
    (hserializes : serializes s event = true) (hstep : s.step event = some s') : Inv s' := by
  cases event with
  | timeout =>
      obtain ⟨m, place, configs⟩ := s
      cases place with
      | first =>
          cases hstep
          exact ⟨h.placed, h.followed⟩
      | _ => cases hstep
  | yields item =>
      refine h.yields ?_ hstep
      rintro config rfl
      exact hserializes
  | step choice => exact h.proceed hstep
  | look count stopped =>
      obtain ⟨m, place, configs⟩ := s
      cases place with
      | close closeCount =>
          simp only [State.step] at hstep
          split at hstep <;> cases hstep <;> exact ⟨h.placed, h.followed⟩
      | _ => cases hstep
  | taskEnds t closes => exact h.taskEnds hstep

/-- The configs that have been started, and the one that waits. -/
theorem Inv.order (h : Inv s) :
    ∃ before waiting, s.configs = before ++ waiting ∧
      starts s.manager.calls = before.map Config.names ∧
      ∀ config ∈ waiting, waiting = [config] ∧
        ((∃ id, s.place = .stop id config) ∨
          (s.place = .returned (.error .build) ∧ config.builds = false)) := by
  have hfollowed := h.followed
  have hall : starts s.manager.calls = s.configs.map Config.names →
      ∃ before waiting, s.configs = before ++ waiting ∧
        starts s.manager.calls = before.map Config.names ∧
        ∀ config ∈ waiting, waiting = [config] ∧
          ((∃ id, s.place = .stop id config) ∨
            (s.place = .returned (.error .build) ∧ config.builds = false)) :=
    fun hstarted => ⟨s.configs, [], (List.append_nil _).symm, hstarted, nofun⟩
  cases hplace : s.place with
  | first =>
      rw [hplace] at hfollowed
      exact hplace ▸ hall (hfollowed.2.trans (by rw [hfollowed.1]; rfl))
  | stop id config =>
      rw [hplace] at hfollowed
      obtain ⟨before, hconfigs, hstarted⟩ := hfollowed
      refine ⟨before, [config], hconfigs, hstarted, fun config' hmem => ?_⟩
      cases List.mem_singleton.mp hmem
      exact ⟨rfl, .inl ⟨id, rfl⟩⟩
  | returned result =>
      rw [hplace] at hfollowed
      rcases result with (_ | e | _ | _) | _
      · exact hplace ▸ hall (hfollowed.2.trans (by rw [hfollowed.1]; rfl))
      · exact hplace ▸ hall (hfollowed.2.trans (by rw [hfollowed.1]; rfl))
      · obtain ⟨before, config, hconfigs, hbuilds, hstarted⟩ := hfollowed
        refine ⟨before, [config], hconfigs, hstarted, fun config' hmem => ?_⟩
        cases List.mem_singleton.mp hmem
        exact ⟨rfl, .inr ⟨rfl, hbuilds⟩⟩
      · exact hfollowed.elim
      · exact hplace ▸ hall hfollowed.2
  | _ =>
      rw [hplace] at hfollowed
      exact hplace ▸ hall hfollowed.2

/-- What is running belongs to the last config. -/
theorem Inv.running (h : Inv s) {t : ℕ} {task : Task}
    (htask : s.manager.shared.servers.tasks[t]? = some task) (hunfinished : task.finished = false) :
    ∃ ent, Latest s.manager.calls ent ∧ task.server ∈ ent.servers := by
  have hidle : Idle s.manager → ∃ ent, Latest s.manager.calls ent ∧ task.server ∈ ent.servers := by
    intro idle
    obtain ⟨ent, hent, hmem⟩ := idle.running htask hunfinished
    exact ⟨ent, idle.latest ent hent, hmem⟩
  have hplaced := h.placed
  cases hplace : s.place with
  | start | stop =>
      rw [hplace] at hplaced
      obtain ⟨-, pc, alone⟩ := hplaced
      exact alone.running htask hunfinished
  | race | lastStop =>
      rw [hplace] at hplaced
      obtain ⟨pc, alone⟩ := hplaced
      exact alone.running htask hunfinished
  | _ =>
      rw [hplace] at hplaced
      exact hidle hplaced.1

end Runs

end StartStream

end RabbitDigger
