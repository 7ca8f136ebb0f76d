import Mathlib.Data.Finset.Insert
import RabbitDigger.Foundation.Transition
import RabbitDigger.Manager.Connection

/-!
# Connections, channel and table as one system

Any number of connections, the event channel and the table, as one transition system.
A step is a call on one connection, the handling of one event type, or an attempt to
stop a connection; the calls of different tasks interleave as they like, and the channel
is a queue.  Handling is cut finer than in the source, where `input_event` handles the
event types of one event in one go: an event that is partly handled stays at the head of
the queue with the rest (`World.inputEvent_whole`).

The world also keeps the books that the source does not keep: what has ever been passed
to the calls of each connection (`passed`), and what the counters of a connection showed
when its entry was removed (`removed`).
-/

namespace RabbitDigger.ConnectionManager

open Transition

variable {Uuid : Type}

/-- The table, the channel and the connections. -/
structure World (Uuid : Type) where
  manager : ConnectionState Uuid
  queue : List (Event Uuid)
  /-- The `Connection` values that have not been dropped. -/
  live : Uuid → Option Connection
  channels : Uuid → Oneshot
  created : Finset Uuid
  /-- The sizes passed to the calls of a connection. -/
  passed : Uuid → Direction → ℕ
  /-- The counters of an entry when it was removed. -/
  removed : Uuid → Direction → ℕ

/-- What can happen. -/
inductive Action (Uuid : Type) where
  | newConnection (uuid : Uuid) (protocol : Protocol) (addr : Address) (ctx : Value)
      (time : ℕ)
  | read (uuid : Uuid) (size : ℕ)
  | write (uuid : Uuid) (size : ℕ)
  | recvFrom (uuid : Uuid) (addr : Address) (size : ℕ)
  | sendTo (uuid : Uuid) (addr : Address) (size : ℕ)
  | poll (uuid : Uuid) (heartbeat : Bool) (recv send : List (Address × ℕ)) (time : ℕ)
  | drop (uuid : Uuid) (recv send : List (Address × ℕ)) (time : ℕ)
  | inputEvent
  | stopConnection (uuid : Uuid)

namespace World

/-- `Connection::send`. -/
def send (w : World Uuid) (uuid : Uuid) (events : List (EventType Uuid)) (time : ℕ) :
    World Uuid :=
  if events.isEmpty then w else { w with queue := w.queue ++ [⟨uuid, events, time⟩] }

variable [DecidableEq Uuid]

/-- `ConnectionManager::new_connection`.  Uuids are distinct. -/
def newConnection (w : World Uuid) (uuid : Uuid) (protocol : Protocol) (addr : Address)
    (ctx : Value) (time : ℕ) : Option (World Uuid) :=
  if uuid ∈ w.created then none
  else
    some <| send
      { w with
        live := Function.update w.live uuid (some ⟨protocol.default, false⟩)
        channels := Function.update w.channels uuid .waiting
        created := insert uuid w.created }
      uuid [protocol.eventType addr ctx, .setStopper uuid] time

/-- A call that adds to an accumulator. -/
def record (w : World Uuid) (uuid : Uuid) (d : Direction) (size : ℕ)
    (call : ConnType → Option ConnType) : Option (World Uuid) := do
  let conn ← w.live uuid
  let state ← call conn.state
  pure
    { w with
      live := Function.update w.live uuid (some { conn with state })
      passed := Function.update w.passed uuid
        (Function.update (w.passed uuid) d (w.passed uuid d + size)) }

/-- `Connection::poll`. -/
def poll (w : World Uuid) (uuid : Uuid) (heartbeat : Bool)
    (recv send : List (Address × ℕ)) (time : ℕ) : Option (World Uuid) := do
  let conn ← w.live uuid
  if heartbeat then
    let events ← conn.state.getEvents recv send
    let conn := ({ conn with state := conn.state.drained }).pollStopped (w.channels uuid)
    pure ({ w with live := Function.update w.live uuid (some conn.1) }.send uuid events time)
  else
    let conn := conn.pollStopped (w.channels uuid)
    pure { w with live := Function.update w.live uuid (some conn.1) }

/-- `Drop for Connection`. -/
def drop (w : World Uuid) (uuid : Uuid) (recv send : List (Address × ℕ)) (time : ℕ) :
    Option (World Uuid) := do
  let conn ← w.live uuid
  let events ← conn.state.getEvents recv send
  pure (({ w with live := Function.update w.live uuid none }.send uuid events time).send
    uuid [.closeConnection] time)

/-- The books at the removal of an entry. -/
def recordRemoval (w : World Uuid) (uuid : Uuid) :
    EventType Uuid → Uuid → Direction → ℕ
  | .closeConnection => fun u d =>
      if u = uuid then
        ((w.manager.connections uuid).elim 0 fun info => info.counter d) + w.removed u d
      else w.removed u d
  | _ => w.removed

/-- Handle one event type. -/
def handle (w : World Uuid) (uuid : Uuid) (time : ℕ) (e : EventType Uuid) : World Uuid :=
  { w with
    manager := w.manager.inputEventType uuid time e
    channels := fun u =>
      if u ∈ w.manager.discards uuid e ∧ w.channels u = .waiting then .closed
      else w.channels u
    removed := w.recordRemoval uuid e }

/-- `recv_event`: take the next event type off the channel and handle it. -/
def inputEvent (w : World Uuid) : Option (World Uuid) :=
  match w.queue with
  | [] => none
  | ⟨_, [], _⟩ :: queue => some { w with queue }
  | ⟨uuid, e :: events, time⟩ :: queue =>
      some ({ w with queue := ⟨uuid, events, time⟩ :: queue }.handle uuid time e)

/-- `ConnectionManager::stop_connection`, and what `stop_connections` does with each
entry: take the sender and send.  That fails if the receiver has been dropped. -/
def stopConnection (w : World Uuid) (uuid : Uuid) : World Uuid :=
  match w.manager.connections uuid with
  | none => w
  | some info =>
      { w with
        manager := w.manager.set uuid (some { info with stopSender := none })
        channels := fun u =>
          if info.stopSender = some u then
            if (w.live u).isSome then .sent else .closed
          else w.channels u }

/-- One step of the world. -/
def step (w : World Uuid) : Action Uuid → Option (World Uuid)
  | .newConnection uuid protocol addr ctx time => w.newConnection uuid protocol addr ctx time
  | .read uuid size => w.record uuid .download size (ConnType.read size)
  | .write uuid size => w.record uuid .upload size (ConnType.write size)
  | .recvFrom uuid addr size => w.record uuid .download size (ConnType.recvFrom addr size)
  | .sendTo uuid addr size => w.record uuid .upload size (ConnType.sendTo addr size)
  | .poll uuid heartbeat recv send time => w.poll uuid heartbeat recv send time
  | .drop uuid recv send time => w.drop uuid recv send time
  | .inputEvent => w.inputEvent
  | .stopConnection uuid => some (w.stopConnection uuid)

/-- No connection yet. -/
def initial : World Uuid where
  manager := .new
  queue := []
  live _ := none
  channels _ := .waiting
  created := ∅
  passed _ _ := 0
  removed _ _ := 0

end World

/-- Handling the head of the queue to its end, one event type after the other, is
`ConnectionState::input_event`. -/
theorem World.inputEvent_whole [DecidableEq Uuid] {uuid : Uuid}
    {events : List (EventType Uuid)} {time : ℕ} {queue : List (Event Uuid)}
    (w : World Uuid) (hqueue : w.queue = ⟨uuid, events, time⟩ :: queue) :
    ∃ w', (fun w => w.bind World.inputEvent)^[events.length + 1] (some w) = some w' ∧
      w'.manager = w.manager.inputEvent ⟨uuid, events, time⟩ ∧ w'.queue = queue := by
  induction events generalizing w with
  | nil =>
      refine ⟨{ w with queue }, ?_, rfl, rfl⟩
      show w.inputEvent = _
      rw [World.inputEvent, hqueue]
  | cons e events ih =>
      obtain ⟨w', hrun, hmanager, hrest⟩ :=
        ih ({ w with queue := ⟨uuid, events, time⟩ :: queue }.handle uuid time e) rfl
      refine ⟨w', ?_, hmanager, hrest⟩
      rw [List.length_cons, Function.iterate_succ_apply]
      show _^[events.length + 1] w.inputEvent = _
      rw [World.inputEvent, hqueue]
      exact hrun

/-- The connections of one manager. -/
def system (Uuid : Type) [DecidableEq Uuid] : System (World Uuid) (Action Uuid) :=
  ⟨World.initial, World.step⟩

end RabbitDigger.ConnectionManager
