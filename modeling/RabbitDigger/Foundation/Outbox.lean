import RabbitDigger.Foundation.Polling
import RabbitDigger.Foundation.Transition

/-!
# Packets that wait to be sent

A sender packs what it is given into a **packet** and offers the packet to what lies below.
If this answers "not yet" the packet waits, and the caller repeats its call; the repeated
call offers the packet that waits instead of packing again.

A sender cannot tell a repeated call from a new one.  That a packet waits is all it goes by,
so everything depends on **no packet being left behind by a call that is over**.  A call that
returns an error is over.

* `Sender.Attempt` says what one attempt does, whatever the sender.
* `Caller` is a caller that repeats an outstanding call until it is over, with the books: the
  calls that are over, each with what its attempts have transmitted.
* `Lawful.honest` — if no attempt fails behind a packet, every call that succeeds has
  transmitted its own packet, once, and nothing else is ever transmitted.
* `Lawful.stale` — the condition is exact: after an attempt that fails behind a packet, the
  next call that succeeds transmits that packet, whatever it was called with.
-/

namespace Outbox

open Polling Transition

/-- A sender.  `Side` is what others do to the socket between two attempts. -/
structure Sender (Socket Answers Side Arg Packet Err Res : Type) where
  /-- An attempt to send, for given answers of what lies below. -/
  poll : Answers → Arg → Socket → Socket × Poll (Except Err Res)
  side : Side → Socket → Socket
  /-- The packet of an argument. -/
  pack : Arg → Except Err Packet
  /-- The packet that waits. -/
  waiting : Socket → Option Packet
  /-- All packets that were accepted below. -/
  transmitted : Socket → List Packet

variable {Socket Answers Side Arg Packet Err Res : Type}

namespace Sender

/-- The packet an attempt has to offer: the one that waits, else its own. -/
def Offers (S : Sender Socket Answers Side Arg Packet Err Res) (arg : Arg) (s : Socket)
    (packet : Packet) : Prop :=
  S.waiting s = some packet ∨ S.waiting s = none ∧ S.pack arg = .ok packet

/-- **What an attempt does.**  It is clean unless it fails and leaves a packet behind. -/
inductive Attempt (S : Sender Socket Answers Side Arg Packet Err Res) (arg : Arg)
    (s s' : Socket) : Bool → Poll (Except Err Res) → Prop where
  /-- An error, and nothing waits. -/
  | refused (e : Err) : S.waiting s' = none → S.transmitted s' = S.transmitted s →
      Attempt S arg s s' true (.ready (.error e))
  /-- An error, and something is left waiting. -/
  | failed (e : Err) (left : Packet) : S.waiting s' = some left →
      S.transmitted s' = S.transmitted s → Attempt S arg s s' false (.ready (.error e))
  /-- The packet has to wait. -/
  | pending (packet : Packet) : S.Offers arg s packet → S.waiting s' = some packet →
      S.transmitted s' = S.transmitted s → Attempt S arg s s' true .pending
  /-- The packet has been transmitted. -/
  | sent (packet : Packet) (res : Res) : S.Offers arg s packet → S.waiting s' = none →
      S.transmitted s' = S.transmitted s ++ [packet] → Attempt S arg s s' true (.ready (.ok res))

/-- What is asked of a sender; `clean` tells from the state before whether an attempt will be
clean. -/
structure Lawful (S : Sender Socket Answers Side Arg Packet Err Res)
    (clean : Answers → Arg → Socket → Bool) : Prop where
  attempt : ∀ answers arg s, S.Attempt arg s (S.poll answers arg s).1 (clean answers arg s)
    (S.poll answers arg s).2
  side_waiting : ∀ x s, S.waiting (S.side x s) = S.waiting s
  side_transmitted : ∀ x s, S.transmitted (S.side x s) = S.transmitted s

end Sender

/-! ## The caller -/

/-- A call that is over. -/
structure Call (Arg Packet Err Res : Type) where
  arg : Arg
  result : Except Err Res
  /-- What its attempts have transmitted. -/
  transmitted : List Packet
deriving DecidableEq

/-- The socket, the call that has been told "not yet", with what its attempts have
transmitted, and the calls that are over. -/
structure Caller (Socket Arg Packet Err Res : Type) where
  socket : Socket
  outstanding : Option (Arg × List Packet)
  served : List (Call Arg Packet Err Res)

/-- What can happen. -/
inductive Input (Answers Side Arg : Type) where
  | attempt (answers : Answers) (arg : Arg)
  | side (x : Side)

namespace Caller

variable (S : Sender Socket Answers Side Arg Packet Err Res)

/-- What an attempt has transmitted, with the attempts of the same call before it. -/
def newly (c : Caller Socket Arg Packet Err Res) (s' : Socket) : List Packet :=
  (c.outstanding.elim [] Prod.snd) ++ (S.transmitted s').drop (S.transmitted c.socket).length

/-- The books after an attempt. -/
def record (c : Caller Socket Arg Packet Err Res) (arg : Arg) (s' : Socket) :
    Poll (Except Err Res) → Caller Socket Arg Packet Err Res
  | .pending => { c with socket := s', outstanding := some (arg, c.newly S s') }
  | .ready result =>
      { socket := s'
        outstanding := none
        served := c.served ++ [⟨arg, result, c.newly S s'⟩] }

variable [DecidableEq Arg]

/-- One step.  A call that is outstanding has to be repeated before the next one. -/
def step (c : Caller Socket Arg Packet Err Res) :
    Input Answers Side Arg → Option (Caller Socket Arg Packet Err Res)
  | .attempt answers arg =>
      if ∀ call ∈ c.outstanding, call.1 = arg then
        some (c.record S arg (S.poll answers arg c.socket).1 (S.poll answers arg c.socket).2)
      else none
  | .side x => some { c with socket := S.side x c.socket }

theorem step_attempt {S : Sender Socket Answers Side Arg Packet Err Res}
    {c : Caller Socket Arg Packet Err Res} {answers : Answers} {arg : Arg}
    (h : ∀ call ∈ c.outstanding, call.1 = arg) :
    step S c (.attempt answers arg) =
      some (c.record S arg (S.poll answers arg c.socket).1 (S.poll answers arg c.socket).2) :=
  if_pos h

/-- The calls on a fresh socket. -/
def system (init : Socket) :
    System (Caller Socket Arg Packet Err Res) (Input Answers Side Arg) :=
  ⟨⟨init, none, []⟩, step S⟩

/-- Attempts are clean; there is no condition on what others do. -/
def allowed (clean : Answers → Arg → Socket → Bool) (c : Caller Socket Arg Packet Err Res) :
    Input Answers Side Arg → Bool
  | .attempt answers arg => clean answers arg c.socket
  | .side _ => true

end Caller

/-- **What a caller may rely on.** -/
structure Honest (S : Sender Socket Answers Side Arg Packet Err Res)
    (c : Caller Socket Arg Packet Err Res) : Prop where
  /-- A call that succeeds has transmitted its own packet, once. -/
  ok : ∀ call ∈ c.served, ∀ res, call.result = .ok res →
    ∃ packet, S.pack call.arg = .ok packet ∧ call.transmitted = [packet]
  /-- A call that fails has transmitted nothing. -/
  error : ∀ call ∈ c.served, ∀ e, call.result = .error e → call.transmitted = []
  /-- A call that is outstanding has transmitted nothing. -/
  outstanding : ∀ call ∈ c.outstanding, call.2 = []
  /-- Nothing else was transmitted. -/
  all : S.transmitted c.socket = c.served.flatMap Call.transmitted

namespace Sender.Lawful

variable {S : Sender Socket Answers Side Arg Packet Err Res}
variable {clean : Answers → Arg → Socket → Bool} {c : Caller Socket Arg Packet Err Res}

/-- The invariant: a packet waits exactly while its call is outstanding. -/
structure Inv (S : Sender Socket Answers Side Arg Packet Err Res)
    (c : Caller Socket Arg Packet Err Res) : Prop extends Honest S c where
  idle : c.outstanding = none → S.waiting c.socket = none
  busy : ∀ call ∈ c.outstanding, ∃ packet, S.pack call.1 = .ok packet ∧
    S.waiting c.socket = some packet

/-- The packet that is offered is the one of the call. -/
theorem Inv.own (hinv : Inv S c) {arg : Arg} {packet : Packet}
    (hsame : ∀ call ∈ c.outstanding, call.1 = arg) (h : S.Offers arg c.socket packet) :
    S.pack arg = .ok packet := by
  cases hout : c.outstanding with
  | none =>
      have hidle := hinv.idle hout
      rcases h with h | ⟨-, h⟩
      · rw [hidle] at h
        cases h
      · exact h
  | some call =>
      obtain ⟨own, hpack, hwaiting⟩ := hinv.busy call (by simp [hout])
      rw [hsame call (by simp [hout])] at hpack
      rcases h with h | ⟨h, -⟩
      · rw [hwaiting] at h
        obtain rfl := Option.some.inj h
        exact hpack
      · rw [hwaiting] at h
        cases h

/-- The attempts before have transmitted nothing. -/
theorem Inv.newly_eq (hinv : Inv S c) {s' : Socket} {packets : List Packet}
    (h : S.transmitted s' = S.transmitted c.socket ++ packets) : c.newly S s' = packets := by
  have hbefore : c.outstanding.elim [] Prod.snd = [] := by
    cases hout : c.outstanding with
    | none => rfl
    | some call => exact hinv.outstanding call (by simp [hout])
  rw [Caller.newly, hbefore, h, List.drop_left, List.nil_append]

/-- One more call is over. -/
theorem Inv.served (hinv : Inv S c) {arg : Arg} {s' : Socket} {result : Except Err Res}
    {packets : List Packet} (hwaiting : S.waiting s' = none)
    (htransmitted : S.transmitted s' = S.transmitted c.socket ++ packets)
    (hok : ∀ res, result = .ok res → ∃ packet, S.pack arg = .ok packet ∧ packets = [packet])
    (herror : ∀ e, result = .error e → packets = []) :
    Inv S (c.record S arg s' (.ready result)) := by
  have hnewly := hinv.newly_eq htransmitted
  refine ⟨⟨?_, ?_, nofun, ?_⟩, fun _ => hwaiting, nofun⟩
  · intro call hcall res hres
    rcases List.mem_append.mp hcall with hcall | hcall
    · exact hinv.ok call hcall res hres
    · obtain rfl := List.mem_singleton.mp hcall
      obtain ⟨packet, hpack, hpackets⟩ := hok res hres
      exact ⟨packet, hpack, hnewly.trans hpackets⟩
  · intro call hcall e he
    rcases List.mem_append.mp hcall with hcall | hcall
    · exact hinv.error call hcall e he
    · obtain rfl := List.mem_singleton.mp hcall
      exact hnewly.trans (herror e he)
  · show S.transmitted s' = _
    simp only [Caller.record, List.flatMap_append, List.flatMap_singleton, hnewly, htransmitted,
      hinv.all]

/-- **An attempt that is clean keeps the invariant.** -/
theorem Inv.attempt (laws : S.Lawful clean) (hinv : Inv S c) {answers : Answers} {arg : Arg}
    (hclean : clean answers arg c.socket = true)
    (hsame : ∀ call ∈ c.outstanding, call.1 = arg) :
    Inv S (c.record S arg (S.poll answers arg c.socket).1 (S.poll answers arg c.socket).2) := by
  have hattempt := laws.attempt answers arg c.socket
  rw [hclean] at hattempt
  revert hattempt
  generalize (S.poll answers arg c.socket).1 = s'
  generalize (S.poll answers arg c.socket).2 = r
  intro hattempt
  cases hattempt with
  | refused e hwaiting htransmitted =>
      exact hinv.served hwaiting (by rw [htransmitted, List.append_nil]) nofun fun _ _ => rfl
  | sent packet res hoffers hwaiting htransmitted =>
      exact hinv.served hwaiting htransmitted (fun _ _ => ⟨packet, hinv.own hsame hoffers, rfl⟩)
        nofun
  | pending packet hoffers hwaiting htransmitted =>
      have hnewly : c.newly S s' = [] := hinv.newly_eq (by rw [htransmitted, List.append_nil])
      refine ⟨⟨hinv.ok, hinv.error, ?_, htransmitted.trans hinv.all⟩, nofun, ?_⟩
      · intro call hcall
        obtain rfl := Option.some.inj hcall
        exact hnewly
      · intro call hcall
        obtain rfl := Option.some.inj hcall
        exact ⟨packet, hinv.own hsame hoffers, hwaiting⟩

/-- What others do keeps the invariant. -/
theorem Inv.side (laws : S.Lawful clean) (hinv : Inv S c) (x : Side) :
    Inv S { c with socket := S.side x c.socket } where
  ok := hinv.ok
  error := hinv.error
  outstanding := hinv.outstanding
  all := (laws.side_transmitted x c.socket).trans hinv.all
  idle h := (laws.side_waiting x c.socket).trans (hinv.idle h)
  busy call hcall := by
    obtain ⟨packet, hpack, hwaiting⟩ := hinv.busy call hcall
    exact ⟨packet, hpack, (laws.side_waiting x c.socket).trans hwaiting⟩

variable [DecidableEq Arg]

/-- **Without attempts that fail behind a packet, a caller gets what it asks for.** -/
theorem honest (laws : S.Lawful clean) {init : Socket} (hwaiting : S.waiting init = none)
    (hfresh : S.transmitted init = [])
    (reach : (Caller.system S init).Reach (fun c input => Caller.allowed clean c input = true) c) :
    Honest S c := by
  have hinv : Inv S c := by
    refine System.Reach.invariant (P := Inv S) ?_ ?_ reach
    · exact ⟨⟨nofun, nofun, nofun, hfresh⟩, fun _ => hwaiting, nofun⟩
    · intro c input c' hinv hallowed hstep
      cases input with
      | attempt answers arg =>
          replace hstep : (if ∀ call ∈ c.outstanding, call.1 = arg then some _ else none)
            = some c' := hstep
          split at hstep
          next hsame =>
              obtain rfl := Option.some.inj hstep
              exact hinv.attempt laws hallowed hsame
          next => cases hstep
      | side x =>
          obtain rfl := Option.some.inj hstep
          exact hinv.side laws x
  exact hinv.toHonest

/-- A call that succeeds while a packet waits transmits this packet, whatever its own. -/
theorem served_of_waiting (laws : S.Lawful clean) {packet : Packet}
    (hidle : c.outstanding = none) (hwaiting : S.waiting c.socket = some packet)
    {answers : Answers} {arg : Arg} {res : Res}
    (hres : (S.poll answers arg c.socket).2 = .ready (.ok res)) :
    ∃ c', Caller.step S c (.attempt answers arg) = some c' ∧
      c'.served = c.served ++ [⟨arg, .ok res, [packet]⟩] := by
  refine ⟨_, Caller.step_attempt (by simp [hidle]), ?_⟩
  have hattempt := laws.attempt answers arg c.socket
  revert hattempt
  generalize clean answers arg c.socket = b
  intro hattempt
  rw [hres] at hattempt ⊢
  cases hattempt with
  | sent offered _ hoffers _ htransmitted =>
      rcases hoffers with hoffers | ⟨hoffers, -⟩
      · obtain rfl := Option.some.inj (hwaiting.symm.trans hoffers)
        simp only [Caller.record, Caller.newly, hidle, htransmitted, List.drop_left,
          Option.elim_none, List.nil_append]
      · rw [hwaiting] at hoffers
        cases hoffers

/-- **The condition is exact.**  An attempt that is not clean ends its call and leaves a
packet; the next call that succeeds at once transmits this packet, whatever its own. -/
theorem stale (laws : S.Lawful clean) (c : Caller Socket Arg Packet Err Res) {answers : Answers}
    {arg : Arg} (h : clean answers arg c.socket = false)
    (hsame : ∀ call ∈ c.outstanding, call.1 = arg) :
    ∃ c' packet, Caller.step S c (.attempt answers arg) = some c' ∧ c'.outstanding = none ∧
      ∀ answers' arg' res, (S.poll answers' arg' c'.socket).2 = .ready (.ok res) →
        ∃ c'', Caller.step S c' (.attempt answers' arg') = some c'' ∧
          c''.served = c'.served ++ [⟨arg', .ok res, [packet]⟩] := by
  have hattempt := laws.attempt answers arg c.socket
  rw [h] at hattempt
  generalize hresult : (S.poll answers arg c.socket).2 = r at hattempt
  cases hattempt with
  | failed e packet hwaiting htransmitted =>
      refine ⟨c.record S arg (S.poll answers arg c.socket).1 (.ready (.error e)), packet, ?_,
        rfl, ?_⟩
      · rw [← hresult]
        exact Caller.step_attempt hsame
      · intro answers' arg' res hres
        exact laws.served_of_waiting rfl hwaiting hres

end Sender.Lawful

end Outbox
