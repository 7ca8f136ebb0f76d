import Mathlib.Logic.Function.Basic
import RabbitDigger.Interface.Address

/-!
# Connections and the connection table

`src/rabbit_digger/connection_manager.rs`.  A `Connection` counts the bytes that pass
through it in accumulators of its own, two numbers for TCP and two maps by address for
UDP.  From time to time, and when it is dropped, it empties them into **events**, which
travel through a channel to the one task that feeds them to `ConnectionState::input_event`,
where they are added to the counters of the connection's entry in the table and to the
totals.

The first event of a connection creates its entry and the last removes it.  **An event
whose connection has no entry is dropped in silence**, so that no byte is lost only
because of the order in which events are sent and handled.
-/

namespace RabbitDigger.ConnectionManager

/-- The two directions in which bytes are counted. -/
inductive Direction where
  | upload
  | download
deriving Repr, DecidableEq

inductive Protocol where
  | tcp
  | udp
deriving Repr, DecidableEq

section Types

variable (Uuid : Type)

/-- `ConnectionInfo`.  The sender of a connection's stop channel is named by the uuid of
the connection that holds the receiver. -/
structure ConnectionInfo where
  protocol : Protocol
  addr : Address
  startTime : ℕ
  ctx : Value
  upload : ℕ
  download : ℕ
  stopSender : Option Uuid

/-- `EventType`. -/
inductive EventType where
  | newTcp (addr : Address) (ctx : Value)
  | newUdp (addr : Address) (ctx : Value)
  | setStopper (sender : Uuid)
  | closeConnection
  | write (upload : ℕ)
  | read (download : ℕ)
  | sendTo (addr : Address) (upload : ℕ)
  | recvFrom (addr : Address) (download : ℕ)

/-- `Event`; of its time, the seconds since the epoch. -/
structure Event where
  uuid : Uuid
  events : List (EventType Uuid)
  time : ℕ

/-- `ConnectionState`. -/
structure ConnectionState where
  connections : Uuid → Option (ConnectionInfo Uuid)
  totalUpload : ℕ
  totalDownload : ℕ

end Types

variable {Uuid : Type}

/-! ## The table -/

namespace ConnectionInfo

/-- What a new entry holds. -/
def new (protocol : Protocol) (addr : Address) (ctx : Value) (time : ℕ) :
    ConnectionInfo Uuid where
  protocol := protocol
  addr := addr
  startTime := time
  ctx := ctx
  upload := 0
  download := 0
  stopSender := none

/-- The counter of a direction. -/
def counter (info : ConnectionInfo Uuid) : Direction → ℕ
  | .upload => info.upload
  | .download => info.download

/-- Add to a counter. -/
def add (info : ConnectionInfo Uuid) (n : ℕ) : Direction → ConnectionInfo Uuid
  | .upload => { info with upload := addU64 info.upload n }
  | .download => { info with download := addU64 info.download n }

end ConnectionInfo

namespace ConnectionState

/-- `ConnectionState::new`. -/
def new : ConnectionState Uuid := ⟨fun _ => none, 0, 0⟩

/-- The total of a direction. -/
def total (state : ConnectionState Uuid) : Direction → ℕ
  | .upload => state.totalUpload
  | .download => state.totalDownload

/-- Add to a total. -/
def addTotal (state : ConnectionState Uuid) (n : ℕ) : Direction → ConnectionState Uuid
  | .upload => { state with totalUpload := addU64 state.totalUpload n }
  | .download => { state with totalDownload := addU64 state.totalDownload n }

variable [DecidableEq Uuid]

/-- Replace an entry of the table. -/
def set (state : ConnectionState Uuid) (uuid : Uuid) (info : Option (ConnectionInfo Uuid)) :
    ConnectionState Uuid :=
  { state with connections := Function.update state.connections uuid info }

/-- Count bytes, if the connection is in the table. -/
def count (state : ConnectionState Uuid) (uuid : Uuid) (d : Direction) (n : ℕ) :
    ConnectionState Uuid :=
  match state.connections uuid with
  | none => state
  | some info => (state.set uuid (some (info.add n d))).addTotal n d

/-- What `input_event` does with one event type. -/
def inputEventType (state : ConnectionState Uuid) (uuid : Uuid) (time : ℕ) :
    EventType Uuid → ConnectionState Uuid
  | .newTcp addr ctx => state.set uuid (some (.new .tcp addr ctx time))
  | .newUdp addr ctx => state.set uuid (some (.new .udp addr ctx time))
  | .setStopper sender =>
      match state.connections uuid with
      | none => state
      | some info => state.set uuid (some { info with stopSender := some sender })
  | .read download => state.count uuid .download download
  | .write upload => state.count uuid .upload upload
  | .recvFrom _ download => state.count uuid .download download
  | .sendTo _ upload => state.count uuid .upload upload
  | .closeConnection => state.set uuid none

/-- `ConnectionState::input_event`. -/
def inputEvent (state : ConnectionState Uuid) (event : Event Uuid) : ConnectionState Uuid :=
  event.events.foldl (fun state e => state.inputEventType event.uuid event.time e) state

/-- The senders that are dropped by handling an event type: those of an entry that is
replaced or removed, and one for which there is no entry. -/
def discards (state : ConnectionState Uuid) (uuid : Uuid) : EventType Uuid → List Uuid
  | .newTcp _ _ | .newUdp _ _ | .closeConnection =>
      ((state.connections uuid).bind ConnectionInfo.stopSender).toList
  | .setStopper sender =>
      match state.connections uuid with
      | none => [sender]
      | some info => info.stopSender.toList
  | _ => []

end ConnectionState

/-! ## Connections -/

/-- The accumulators, `Tcp` or `Udp`. -/
inductive ConnType where
  | tcp (read write : ℕ)
  | udp (recvFrom sendTo : List (Address × ℕ))
deriving Repr, DecidableEq

/-- `T::default` for the type of connection. -/
def Protocol.default : Protocol → ConnType
  | .tcp => .tcp 0 0
  | .udp => .udp [] []

/-- `ConnType::event_type`. -/
def Protocol.eventType (addr : Address) (ctx : Value) : Protocol → EventType Uuid
  | .tcp => .newTcp addr ctx
  | .udp => .newUdp addr ctx

/-- `entry(addr).and_modify(|e| *e += size).or_insert(size)`. -/
def addAt (addr : Address) (size : ℕ) : List (Address × ℕ) → List (Address × ℕ)
  | [] => [(addr, size)]
  | (a, n) :: rest =>
      if a = addr then (a, addU64 n size) :: rest else (a, n) :: addAt addr size rest

namespace ConnType

/-- `Connection::<Tcp>::read`. -/
def read (size : ℕ) : ConnType → Option ConnType
  | .tcp r w => some (.tcp (addU64 r size) w)
  | .udp _ _ => none

/-- `Connection::<Tcp>::write`. -/
def write (size : ℕ) : ConnType → Option ConnType
  | .tcp r w => some (.tcp r (addU64 w size))
  | .udp _ _ => none

/-- `Connection::<Udp>::recv_from`. -/
def recvFrom (addr : Address) (size : ℕ) : ConnType → Option ConnType
  | .tcp _ _ => none
  | .udp r s => some (.udp (addAt addr size r) s)

/-- `Connection::<Udp>::send_to`. -/
def sendTo (addr : Address) (size : ℕ) : ConnType → Option ConnType
  | .tcp _ _ => none
  | .udp r s => some (.udp r (addAt addr size s))

/-- What is left after `get_events`. -/
def drained : ConnType → ConnType
  | .tcp _ _ => .tcp 0 0
  | .udp _ _ => .udp [] []

/-- `get_events`.  A hash map is drained in any order; `recv` and `send` are the orders
of this time. -/
def getEvents (recv send : List (Address × ℕ)) :
    ConnType → Option (List (EventType Uuid))
  | .tcp r w =>
      some ((if r > 0 then [.read r] else []) ++ if w > 0 then [.write w] else [])
  | .udp r s =>
      if recv.isPerm r && send.isPerm s then
        some (recv.map (fun entry => .recvFrom entry.1 entry.2) ++
          send.map fun entry => .sendTo entry.1 entry.2)
      else none

end ConnType

/-- The state of a oneshot channel: nothing happened yet, a value was sent, or the
sender is gone. -/
inductive Oneshot where
  | waiting
  | sent
  | closed
deriving Repr, DecidableEq

/-- `Connection`, apart from its channels: its accumulators, and whether the receiver
`stopped` has been ready already. -/
structure Connection where
  state : ConnType
  yielded : Bool
deriving Repr, DecidableEq

/-- How `Connection::poll` ends. -/
inductive PollResult where
  | ok
  | aborted
  | panicked
deriving Repr, DecidableEq

/-- The second half of `Connection::poll`: polling the receiver.  A receiver that has been
ready, with the value or because its sender is gone, must not be polled again. -/
def Connection.pollStopped (conn : Connection) (channel : Oneshot) :
    Connection × PollResult :=
  if conn.yielded then (conn, .panicked)
  else
    match channel with
    | .waiting => (conn, .ok)
    | .sent | .closed => ({ conn with yielded := true }, .aborted)

end RabbitDigger.ConnectionManager
