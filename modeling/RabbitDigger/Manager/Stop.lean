import RabbitDigger.Manager.Accounting

/-!
# Calls that stop connections

`ConnectionManager::stop_connection` and `stop_connections`
(`src/rabbit_digger/connection_manager.rs`), cut finer than in `World.stopConnection`.
Both take the sender out of an entry of the table and then send on it, but between the
two they differ in **what they hold**:

* `stop_connection` takes the sender inside a closure, `conn.stop_sender.lock().take()`,
  and sends outside of it.  When it sends, neither the lock nor the reference to the
  entry is held any more;
* `stop_connections` takes it in the scrutinee of an `if let`, whose temporaries live to
  the end of the statement.  Hence the entry **stays locked** until the value is sent.

A stop call is therefore a small machine (`Place`) that looks at an entry, sends, and
goes on or returns; any number of them run beside each other and beside the connections
and the handling of events.  The loop of `stop_connections` goes through the table in any
order.  It visits no entry twice, and before it returns it has visited all those that
were in the table when it was called and have not been removed.  (In the source it also
holds back insertions into the part of the table at which it looks, and removals from it;
here these are not held back.)

Beside what the code computes, the state keeps **the books**: which call has signalled
which connection, what every poll has reported, and for each call the connections that
were ready to be signalled when it was called.
-/

namespace RabbitDigger.ConnectionManager

open Transition

variable {Uuid : Type}

namespace World

variable [DecidableEq Uuid]

/-- `conn.stop_sender.lock().take()`: the sender is gone from the entry. -/
def takeStopper (w : World Uuid) (uuid : Uuid) (info : ConnectionInfo Uuid) : World Uuid :=
  { w with manager := w.manager.set uuid (some { info with stopSender := none }) }

/-- `sender.send(())`, which succeeds if the receiver has not been dropped. -/
def sendStop (w : World Uuid) (sender : Uuid) : World Uuid :=
  { w with
    channels := Function.update w.channels sender
      (if (w.live sender).isSome then .sent else .closed) }

/-- What a poll reports. -/
def reports (w : World Uuid) : Action Uuid → List (Uuid × PollResult)
  | .poll uuid _ _ _ _ =>
      ((w.live uuid).map fun conn => (uuid, (conn.pollStopped (w.channels uuid)).2)).toList
  | _ => []

end World

/-- `EventType::NewTcp`, `NewUdp` and `SetStopper`, of which the first event of a
connection consists. -/
def EventType.isCreation : EventType Uuid → Bool
  | .newTcp _ _ | .newUdp _ _ | .setStopper _ => true
  | _ => false

namespace Stop

/-- Where a stop call stands. -/
inductive Place (Uuid : Type) where
  /-- `stop_connection`, before it has looked at the entry. -/
  | get (uuid : Uuid)
  /-- `stop_connection`, with a sender in its hands. -/
  | send (uuid sender : Uuid)
  /-- `stop_connection` has returned. -/
  | answered (uuid : Uuid) (ok : Bool)
  /-- The loop of `stop_connections`, between two entries. -/
  | next (visited : Finset Uuid) (stopped : ℕ)
  /-- The loop, with the sender of the entry of `uuid` in its hands, and this entry
  locked. -/
  | body (visited : Finset Uuid) (stopped : ℕ) (uuid sender : Uuid)
  /-- `stop_connections` has returned. -/
  | counted (stopped : ℕ)
deriving DecidableEq

namespace Place

/-- The call has returned. -/
def returned : Place Uuid → Bool
  | .answered _ _ | .counted _ => true
  | _ => false

/-- The value that `stop_connections` has returned. -/
def count : Place Uuid → Option ℕ
  | .counted stopped => some stopped
  | _ => none

/-- `stop_connection` has returned `true`. -/
def isTrue : Place Uuid → Bool
  | .answered _ ok => ok
  | _ => false

/-- The variable `stopped` of a `stop_connections` that has not returned. -/
def running : Place Uuid → ℕ
  | .next _ stopped | .body _ stopped _ _ => stopped
  | _ => 0

variable [DecidableEq Uuid]

/-- The entry is the next one the call may look at. -/
def looksAt (uuid : Uuid) : Place Uuid → Bool
  | .get target => uuid = target
  | .next visited _ => uuid ∉ visited
  | _ => false

/-- The lock of the entry is held. -/
def locks (uuid : Uuid) : Place Uuid → Bool
  | .body _ _ locked _ => locked = uuid
  | _ => false

/-- There is no entry: `get` answers `None`.  The loop never meets this case. -/
def missing (uuid : Uuid) : Place Uuid → Option (Place Uuid)
  | .get _ => some (.answered uuid false)
  | _ => none

/-- The entry holds no sender: `take` answers `None`. -/
def empty (uuid : Uuid) : Place Uuid → Place Uuid
  | .get _ => .answered uuid false
  | .next visited stopped => .next (insert uuid visited) stopped
  | place => place

/-- `take` answers the sender. -/
def take (uuid sender : Uuid) : Place Uuid → Place Uuid
  | .get _ => .send uuid sender
  | .next visited stopped => .body (insert uuid visited) stopped uuid sender
  | place => place

/-- The sender in the hands of the call. -/
def holds : Place Uuid → Option Uuid
  | .send _ sender | .body _ _ _ sender => some sender
  | _ => none

/-- `send` has succeeded, or not. -/
def sent (ok : Bool) : Place Uuid → Place Uuid
  | .send uuid _ => .answered uuid ok
  | .body visited stopped _ _ => .next visited (if ok then stopped + 1 else stopped)
  | place => place

end Place

/-- Which connections a call is to stop: one, or all. -/
inductive Target (Uuid : Type) where
  | one (uuid : Uuid)
  | all
deriving DecidableEq

variable [DecidableEq Uuid]

/-- The connection is one of those to be stopped. -/
def Target.covers (uuid : Uuid) : Target Uuid → Bool
  | .one target => uuid = target
  | .all => true

/-- Where the call begins. -/
def Target.start : Target Uuid → Place Uuid
  | .one uuid => .get uuid
  | .all => .next ∅ 0

/-- A call of `stop_connection` or `stop_connections`. -/
structure Call (Uuid : Type) where
  place : Place Uuid
  /-- The entries of the table when it was called. -/
  table : Finset Uuid
  /-- The connections to be stopped that were ready when it was called. -/
  ready : Finset Uuid
deriving DecidableEq

/-- The connections, the stop calls, and the books. -/
structure State (Uuid : Type) where
  world : World Uuid
  calls : List (Call Uuid)
  /-- Which call has signalled which connection. -/
  signals : List (ℕ × Uuid)
  /-- How the polls of connections have ended. -/
  reports : List (Uuid × PollResult)

/-- What can happen: anything that happens to connections and events, a call, and the
steps of a call. -/
inductive Input (Uuid : Type) where
  | act (action : Action Uuid)
  | call (target : Target Uuid)
  | look (i : ℕ) (uuid : Uuid)
  | send (i : ℕ)
  | finish (i : ℕ)

namespace State

/-- The connections that have been signalled. -/
def signalled (s : State Uuid) : Finset Uuid := (s.signals.map Prod.snd).toFinset

/-- **Ready to be signalled**: the event that creates the connection has been handled to
its end, and the connection has been neither signalled nor dropped. -/
def Ready (s : State Uuid) (uuid : Uuid) : Prop :=
  uuid ∈ s.world.created ∧ (∀ e ∈ s.world.queuedFor uuid, e.isCreation = false) ∧
    (s.world.live uuid).isSome ∧ uuid ∉ s.signalled

instance (s : State Uuid) (uuid : Uuid) : Decidable (s.Ready uuid) :=
  inferInstanceAs (Decidable (_ ∧ _ ∧ _ ∧ _))

/-- Some call holds the lock of the entry. -/
def locked (s : State Uuid) (uuid : Uuid) : Bool :=
  s.calls.any fun call => call.place.locks uuid

/-- Move a call. -/
def put (s : State Uuid) (i : ℕ) (call : Call Uuid) (place : Place Uuid) : State Uuid :=
  { s with calls := s.calls.set i { call with place } }

/-- What happens to connections and events.  To stop a connection is left to the
calls. -/
def act (s : State Uuid) : Action Uuid → Option (State Uuid)
  | .stopConnection _ => none
  | action => (s.world.step action).map fun world =>
      { s with world, reports := s.reports ++ s.world.reports action }

/-- A stop call begins. -/
def call (s : State Uuid) (target : Target Uuid) : State Uuid :=
  { s with
    calls := s.calls ++ [{
      place := target.start
      table := s.world.created.filter fun uuid => (s.world.manager.connections uuid).isSome
      ready := s.world.created.filter fun uuid => target.covers uuid ∧ s.Ready uuid }] }

/-- A call takes the sender out of an entry. -/
def takeFrom (s : State Uuid) (i : ℕ) (call : Call Uuid) (uuid : Uuid)
    (info : ConnectionInfo Uuid) (sender : Uuid) : State Uuid :=
  { s.put i call (call.place.take uuid sender) with
    world := s.world.takeStopper uuid info }

/-- A call sends on a sender. -/
def sendOn (s : State Uuid) (i : ℕ) (call : Call Uuid) (sender : Uuid) : State Uuid :=
  { s.put i call (call.place.sent (s.world.live sender).isSome) with
    world := s.world.sendStop sender
    signals :=
      if (s.world.live sender).isSome then s.signals ++ [(i, sender)] else s.signals }

/-- A call looks at an entry, and takes the sender if there is one.  It waits while the
entry is locked. -/
def look (s : State Uuid) (i : ℕ) (uuid : Uuid) : Option (State Uuid) := do
  let call ← s.calls[i]?
  if call.place.looksAt uuid then
    match s.world.manager.connections uuid with
    | none => (call.place.missing uuid).map (s.put i call)
    | some info =>
        if s.locked uuid then none
        else
          match info.stopSender with
          | none => some (s.put i call (call.place.empty uuid))
          | some sender => some (s.takeFrom i call uuid info sender)
  else none

/-- A call sends on the sender in its hands. -/
def send (s : State Uuid) (i : ℕ) : Option (State Uuid) := do
  let call ← s.calls[i]?
  let sender ← call.place.holds
  pure (s.sendOn i call sender)

/-- The loop of `stop_connections` ends. -/
def finish (s : State Uuid) (i : ℕ) : Option (State Uuid) := do
  let call ← s.calls[i]?
  match call.place with
  | .next visited stopped =>
      if ∀ uuid ∈ call.table, uuid ∈ visited ∨ (s.world.manager.connections uuid).isNone then
        some (s.put i call (.counted stopped))
      else none
  | _ => none

/-- One step. -/
def step (s : State Uuid) : Input Uuid → Option (State Uuid)
  | .act action => s.act action
  | .call target => some (s.call target)
  | .look i uuid => s.look i uuid
  | .send i => s.send i
  | .finish i => s.finish i

/-- No connection, and no call. -/
def initial : State Uuid := ⟨.initial, [], [], []⟩

end State

/-- The connections of one manager, and the calls that stop them. -/
def system (Uuid : Type) [DecidableEq Uuid] : System (State Uuid) (Input Uuid) :=
  ⟨State.initial, State.step⟩

end Stop

end RabbitDigger.ConnectionManager
