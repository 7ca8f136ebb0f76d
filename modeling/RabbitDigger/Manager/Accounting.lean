import Mathlib.Algebra.BigOperators.Group.Finset.Basic
import Mathlib.Algebra.Order.BigOperators.Group.Finset
import Mathlib.Algebra.GroupWithZero.Nat
import RabbitDigger.Manager.World

/-!
# Every byte is counted once

What is passed to the calls of a connection sits in its accumulators, then in the queue,
then in the counters of its entry and in the totals.  This module shows that on this way
**nothing is lost and nothing is counted twice**, whatever the interleaving.

The proof follows each connection by itself.  What is queued for it is always **one
creation, then counters, then one removal**, as far as they have not been handled
(`Track`), hence a counter never meets a missing entry, and what is counted, buffered and
queued adds up to what was passed (`Accounts.balance`).  The totals are the sum over all
connections.
-/

namespace RabbitDigger.ConnectionManager

open Transition

variable {Uuid : Type}

/-! ## The amounts -/

/-- The bytes that an event type reports. -/
def EventType.bytes : Direction → EventType Uuid → ℕ
  | .upload, .write upload => upload
  | .upload, .sendTo _ upload => upload
  | .download, .read download => download
  | .download, .recvFrom _ download => download
  | _, _ => 0

/-- The bytes reported by several event types. -/
def bytes (d : Direction) (events : List (EventType Uuid)) : ℕ :=
  (events.map (EventType.bytes d)).sum

/-- The bytes in the accumulators of a connection. -/
def ConnType.buffered : Direction → ConnType → ℕ
  | .upload, .tcp _ w => w
  | .download, .tcp r _ => r
  | .upload, .udp _ s => (s.map Prod.snd).sum
  | .download, .udp r _ => (r.map Prod.snd).sum

namespace World

/-- The bytes in the accumulators of a connection that has not been dropped. -/
def buffered (w : World Uuid) (uuid : Uuid) (d : Direction) : ℕ :=
  (w.live uuid).elim 0 fun conn => conn.state.buffered d

/-- The counter of a connection in the table. -/
def counter (w : World Uuid) (uuid : Uuid) (d : Direction) : ℕ :=
  (w.manager.connections uuid).elim 0 fun info => info.counter d

/-- The event types in the queue that belong to a connection. -/
def queuedFor [DecidableEq Uuid] (w : World Uuid) (uuid : Uuid) : List (EventType Uuid) :=
  w.queue.flatMap fun event => if event.uuid = uuid then event.events else []

end World

@[simp] theorem bytes_nil (d : Direction) : bytes d ([] : List (EventType Uuid)) = 0 := rfl

@[simp] theorem bytes_cons (d : Direction) (e : EventType Uuid)
    (events : List (EventType Uuid)) :
    bytes d (e :: events) = e.bytes d + bytes d events := by
  simp [bytes]

@[simp] theorem bytes_append (d : Direction) (events events' : List (EventType Uuid)) :
    bytes d (events ++ events') = bytes d events + bytes d events' := by
  simp [bytes]

/-- The events of a new connection carry no bytes. -/
theorem bytes_newConnection (protocol : Protocol) (addr : Address) (ctx : Value) (uuid : Uuid)
    (d : Direction) :
    bytes d [(protocol.eventType addr ctx : EventType Uuid), .setStopper uuid] = 0 := by
  cases protocol <;> cases d <;> rfl

/-- Adding at an address adds to the sum of a map. -/
theorem sum_addAt {addr : Address} {size : ℕ} {map : List (Address × ℕ)}
    (h : (map.map Prod.snd).sum + size < 2 ^ 64) :
    ((addAt addr size map).map Prod.snd).sum = (map.map Prod.snd).sum + size := by
  induction map with
  | nil => simp [addAt]
  | cons entry rest ih =>
      obtain ⟨a, n⟩ := entry
      simp only [List.map_cons, List.sum_cons] at h
      rw [addAt]
      split
      · simp only [List.map_cons, List.sum_cons]
        rw [addU64_eq (by omega)]
        omega
      · simp only [List.map_cons, List.sum_cons]
        rw [ih (by omega)]
        omega

/-- Neither creates nor removes an entry. -/
def EventType.isInner : EventType Uuid → Bool
  | .newTcp _ _ | .newUdp _ _ | .closeConnection => false
  | _ => true

/-- Creates an entry. -/
def EventType.isNew : EventType Uuid → Bool
  | .newTcp _ _ | .newUdp _ _ => true
  | _ => false

/-- Reports bytes, and does nothing else. -/
def EventType.isCounter : EventType Uuid → Bool
  | .write _ | .read _ | .sendTo _ _ | .recvFrom _ _ => true
  | _ => false

theorem EventType.isInner_of_isCounter {e : EventType Uuid} (h : e.isCounter) : e.isInner := by
  cases e <;> first | rfl | cases h

/-- The sizes of entries that are all reported in one direction. -/
theorem bytes_map {make : Address × ℕ → EventType Uuid} {d : Direction} (d' : Direction)
    (hmake : ∀ entry, (make entry).bytes d = if d = d' then entry.2 else 0)
    (entries : List (Address × ℕ)) :
    bytes d (entries.map make) = if d = d' then (entries.map Prod.snd).sum else 0 := by
  induction entries with
  | nil => simp [bytes]
  | cons entry entries ih =>
      rw [List.map_cons, bytes_cons, ih, hmake]
      split <;> simp

namespace ConnType

/-- **Emptying the accumulators.**  The events report what was in them, whatever the
order, and do nothing else. -/
theorem getEvents_spec {state : ConnType} {recv send : List (Address × ℕ)}
    {events : List (EventType Uuid)} (h : state.getEvents recv send = some events) :
    (∀ d, bytes d events = state.buffered d) ∧ ∀ e ∈ events, e.isCounter := by
  cases state with
  | tcp r w =>
      cases h
      constructor
      · intro d
        rw [bytes_append]
        split <;> split <;> cases d <;> simp [EventType.bytes, buffered] <;> omega
      · intro e he
        rcases List.mem_append.mp he with he | he
        · split at he <;> simp_all [EventType.isCounter]
        · split at he <;> simp_all [EventType.isCounter]
  | udp r s =>
      rw [getEvents] at h
      split at h
      · rename_i hperm
        cases h
        rw [Bool.and_eq_true, List.isPerm_iff, List.isPerm_iff] at hperm
        constructor
        · intro d
          rw [bytes_append, bytes_map .download fun _ => by cases d <;> rfl,
            bytes_map .upload fun _ => by cases d <;> rfl]
          cases d with
          | upload => simpa [buffered] using (hperm.2.map Prod.snd).sum_eq
          | download => simpa [buffered] using (hperm.1.map Prod.snd).sum_eq
        · intro e he
          rcases List.mem_append.mp he with he | he
          all_goals
            obtain ⟨entry, _, rfl⟩ := List.mem_map.mp he
            rfl
      · cases h

@[simp] theorem buffered_drained (state : ConnType) (d : Direction) :
    state.drained.buffered d = 0 := by
  cases state <;> cases d <;> rfl

end ConnType

/-! ## One connection -/

/-- What is still to be sent to the table when a connection is dropped. -/
def closing (live : Bool) : List (EventType Uuid) := if live then [] else [.closeConnection]

/-- **What is queued for a connection**, given whether it is alive and whether it has an
entry: its creation, if that has not been handled, then events that leave the entry in
place, then its removal, if it has been dropped. -/
inductive Track : Bool → Bool → List (EventType Uuid) → Prop where
  | fresh (live : Bool) {e : EventType Uuid} {body : List (EventType Uuid)} :
      e.isNew → (∀ e ∈ body, e.isInner) → Track live false (e :: (body ++ closing live))
  | entered (live : Bool) {body : List (EventType Uuid)} :
      (∀ e ∈ body, e.isInner) → Track live true (body ++ closing live)
  | gone : Track false false []

namespace Track

variable {live entry : Bool} {queued events : List (EventType Uuid)}

theorem inner_append {body : List (EventType Uuid)} (hbody : ∀ e ∈ body, e.isInner)
    (hevents : ∀ e ∈ events, e.isInner) : ∀ e ∈ body ++ events, e.isInner := by
  intro e he
  rcases List.mem_append.mp he with he | he
  · exact hbody e he
  · exact hevents e he

/-- A connection that is alive sends counters. -/
theorem send (h : Track true entry queued) (hevents : ∀ e ∈ events, e.isInner) :
    Track true entry (queued ++ events) := by
  cases h with
  | @fresh _ e body hnew hbody =>
      have := fresh true hnew (inner_append hbody hevents)
      simpa [closing] using this
  | @entered _ body hbody =>
      have := entered true (inner_append hbody hevents)
      simpa [closing] using this

/-- A connection that is dropped sends counters and its removal. -/
theorem drop (h : Track true entry queued) (hevents : ∀ e ∈ events, e.isInner) :
    Track false entry (queued ++ (events ++ [.closeConnection])) := by
  cases h with
  | @fresh _ e body hnew hbody =>
      have := fresh false hnew (inner_append hbody hevents)
      simpa [closing] using this
  | @entered _ body hbody =>
      have := entered false (inner_append hbody hevents)
      simpa [closing] using this

/-- **What is handled next**: the creation while there is no entry, a counter while
there is one, or the removal of the entry. -/
theorem handle {e : EventType Uuid} (h : Track live entry (e :: queued)) :
    e.isNew ∧ entry = false ∧ Track live true queued ∨
      e.isInner ∧ entry = true ∧ Track live true queued ∨
      e = .closeConnection ∧ entry = true ∧ Track live false queued := by
  generalize hall : e :: queued = all at h
  cases h with
  | fresh _ hnew hbody =>
      cases hall
      exact .inl ⟨hnew, rfl, .entered _ hbody⟩
  | @entered _ body hbody =>
      cases body with
      | nil =>
          cases live with
          | true => cases hall
          | false =>
              cases hall
              exact .inr (.inr ⟨rfl, rfl, .gone⟩)
      | cons e' body =>
          cases hall
          exact .inr (.inl ⟨hbody e (by simp), rfl, .entered _ fun e he => hbody e (by simp [he])⟩)
  | gone => cases hall

/-- When nothing is queued, a connection has an entry exactly if it is alive. -/
theorem entry_eq_live (h : Track live entry ([] : List (EventType Uuid))) : entry = live := by
  generalize hall : ([] : List (EventType Uuid)) = all at h
  cases h with
  | fresh _ _ _ => cases hall
  | entered _ _ =>
      cases live with
      | true => rfl
      | false => simp [closing] at hall
  | gone => rfl

end Track

/-! ## All connections -/

/-- The sums stay below `2 ^ 64`. -/
def World.Bounded (w : World Uuid) : Prop :=
  ∀ d, ∑ uuid ∈ w.created, w.passed uuid d < 2 ^ 64

section Accounts

variable [DecidableEq Uuid]

/-- **The books balance.** -/
structure Accounts (w : World Uuid) : Prop where
  owned : ∀ event ∈ w.queue, event.uuid ∈ w.created
  unknown : ∀ uuid ∉ w.created, w.live uuid = none ∧ w.manager.connections uuid = none ∧
    ∀ d, w.removed uuid d = 0
  track : ∀ uuid ∈ w.created,
    Track (w.live uuid).isSome (w.manager.connections uuid).isSome (w.queuedFor uuid)
  balance : ∀ uuid d, w.counter uuid d + w.removed uuid d + w.buffered uuid d +
    bytes d (w.queuedFor uuid) = w.passed uuid d
  total : ∀ d, w.manager.total d =
    ∑ uuid ∈ w.created, (w.counter uuid d + w.removed uuid d)

theorem Accounts.initial : Accounts (World.initial : World Uuid) where
  owned := by
    intro event h
    cases h
  unknown := fun _ _ => ⟨rfl, rfl, fun _ => rfl⟩
  track := by
    intro uuid h
    cases h
  balance := fun _ _ => rfl
  total := by
    intro d
    cases d <;> rfl

/-- Changing one summand. -/
theorem sum_change {s : Finset Uuid} {f g : Uuid → ℕ} {uuid : Uuid} (huuid : uuid ∈ s)
    (h : ∀ v ≠ uuid, g v = f v) :
    ∑ v ∈ s, g v + f uuid = ∑ v ∈ s, f v + g uuid := by
  have hrest : ∑ v ∈ s.erase uuid, g v = ∑ v ∈ s.erase uuid, f v :=
    Finset.sum_congr rfl fun v hv => h v (Finset.ne_of_mem_erase hv)
  rw [← Finset.add_sum_erase s g huuid, ← Finset.add_sum_erase s f huuid, hrest]
  omega

end Accounts

section Frames

variable {w : World Uuid} {uuid : Uuid} {events : List (EventType Uuid)} {time : ℕ}

theorem queuedFor_send [DecidableEq Uuid] (v : Uuid) :
    (w.send uuid events time).queuedFor v =
      w.queuedFor v ++ if uuid = v then events else [] := by
  unfold World.send
  split
  · rename_i hempty
    rw [List.isEmpty_iff] at hempty
    simp [hempty]
  · simp [World.queuedFor, List.flatMap_append]

theorem mem_queue_send {event : Event Uuid} (h : event ∈ (w.send uuid events time).queue) :
    event ∈ w.queue ∨ event.uuid = uuid := by
  unfold World.send at h
  split at h
  · exact .inl h
  · rcases List.mem_append.mp h with h | h
    · exact .inl h
    · rw [List.mem_singleton] at h
      exact .inr (by rw [h])

@[simp] theorem send_manager : (w.send uuid events time).manager = w.manager := by
  unfold World.send
  split <;> rfl

@[simp] theorem send_live : (w.send uuid events time).live = w.live := by
  unfold World.send
  split <;> rfl

@[simp] theorem send_created : (w.send uuid events time).created = w.created := by
  unfold World.send
  split <;> rfl

@[simp] theorem send_passed : (w.send uuid events time).passed = w.passed := by
  unfold World.send
  split <;> rfl

@[simp] theorem send_channels : (w.send uuid events time).channels = w.channels := by
  unfold World.send
  split <;> rfl

@[simp] theorem send_removed : (w.send uuid events time).removed = w.removed := by
  unfold World.send
  split <;> rfl

end Frames

section Steps

variable [DecidableEq Uuid] {w w' : World Uuid} {uuid : Uuid}

/-- A connection that is alive has been created. -/
theorem Accounts.created_of_live (h : Accounts w) {conn : Connection}
    (hlive : w.live uuid = some conn) : uuid ∈ w.created := by
  by_contra hnot
  rw [(h.unknown uuid hnot).1] at hlive
  cases hlive

omit [DecidableEq Uuid] in
/-- What is passed to one connection is part of the sum. -/
theorem World.Bounded.passed_lt (h : w.Bounded) (hmem : uuid ∈ w.created) (d : Direction) :
    w.passed uuid d < 2 ^ 64 :=
  lt_of_le_of_lt (Finset.single_le_sum (f := fun v => w.passed v d)
    (fun _ _ => Nat.zero_le _) hmem) (h d)

/-- A connection moves bytes from its accumulators into events that it sends. -/
structure Emits (w w' : World Uuid) (uuid : Uuid) (conn : Connection)
    (conn' : Option Connection) (events : List (EventType Uuid)) : Prop where
  was : w.live uuid = some conn
  manager : w'.manager = w.manager
  channels : w'.channels = w.channels
  created : w'.created = w.created
  passed : w'.passed = w.passed
  removed : w'.removed = w.removed
  live : w'.live = Function.update w.live uuid conn'
  queued : ∀ v, w'.queuedFor v = w.queuedFor v ++ if uuid = v then events else []
  owned : ∀ event ∈ w'.queue, event ∈ w.queue ∨ event.uuid = uuid
  bytes : ∀ d, bytes d events + conn'.elim 0 (fun conn => conn.state.buffered d) =
    conn.state.buffered d
  track : ∀ entry queued, Track true entry queued →
    Track conn'.isSome entry (queued ++ events)

/-- Bytes that move from the accumulators to the queue stay in the books. -/
theorem Accounts.emits (h : Accounts w) {conn : Connection} {conn' : Option Connection}
    {events : List (EventType Uuid)} (hemits : Emits w w' uuid conn conn' events) :
    Accounts w' := by
  have hmem := h.created_of_live hemits.was
  have hcounter : ∀ v d, w'.counter v d = w.counter v d := by
    intro v d
    unfold World.counter
    rw [hemits.manager]
  constructor
  · intro event hevent
    rw [hemits.created]
    rcases hemits.owned event hevent with hold | hown
    · exact h.owned event hold
    · rw [hown]
      exact hmem
  · intro v hv
    rw [hemits.created] at hv
    have hne : v ≠ uuid := fun heq => hv (heq ▸ hmem)
    rw [hemits.live, hemits.manager, hemits.removed, Function.update_of_ne hne]
    exact h.unknown v hv
  · intro v hv
    rw [hemits.created] at hv
    rw [hemits.live, hemits.manager, hemits.queued]
    have hold := h.track v hv
    by_cases heq : v = uuid
    · subst heq
      rw [hemits.was] at hold
      rw [Function.update_self, if_pos rfl]
      exact hemits.track _ _ hold
    · rw [Function.update_of_ne heq, if_neg (Ne.symm heq), List.append_nil]
      exact hold
  · -- what leaves the accumulators of this connection is queued for it
    intro v d
    have hold := h.balance v d
    rw [hcounter, hemits.removed, hemits.passed, hemits.queued]
    unfold World.buffered at hold ⊢
    rw [hemits.live]
    by_cases heq : v = uuid
    · subst heq
      have := hemits.bytes d
      rw [hemits.was] at hold
      rw [Function.update_self, if_pos rfl, bytes_append]
      simp only [Option.elim_some] at hold
      omega
    · rw [Function.update_of_ne heq, if_neg (Ne.symm heq), List.append_nil]
      exact hold
  · intro d
    rw [hemits.manager, h.total, hemits.created]
    exact Finset.sum_congr rfl fun v _ => by rw [hcounter, hemits.removed]

theorem pollStopped_state (conn : Connection) (channel : Oneshot) :
    (conn.pollStopped channel).1.state = conn.state := by
  unfold Connection.pollStopped
  split
  · rfl
  · split <;> rfl

theorem emits_poll {heartbeat : Bool} {recv send : List (Address × ℕ)} {time : ℕ}
    (hstep : w.poll uuid heartbeat recv send time = some w') :
    ∃ conn conn' events, (∀ e ∈ events, e.isCounter) ∧
      Emits w w' uuid conn (some conn') events := by
  unfold World.poll at hstep
  rw [Option.bind_eq_bind, Option.bind_eq_some_iff] at hstep
  obtain ⟨conn, hlive, hstep⟩ := hstep
  cases heartbeat with
  | true =>
      rw [if_pos rfl, Option.bind_eq_bind, Option.bind_eq_some_iff] at hstep
      obtain ⟨events, hevents, hstep⟩ := hstep
      cases hstep
      obtain ⟨hbytes, hcounters⟩ := ConnType.getEvents_spec hevents
      refine ⟨conn, _, events, hcounters, hlive, by simp, by simp, by simp, by simp, by simp,
        by simp; rfl, queuedFor_send, ?_, ?_, ?_⟩
      · intro event hevent
        exact (mem_queue_send hevent :)
      · intro d
        simp [pollStopped_state, hbytes d]
      · intro entry queued htrack
        exact htrack.send fun e he => EventType.isInner_of_isCounter (hcounters e he)
  | false =>
      rw [if_neg (by decide)] at hstep
      cases hstep
      refine ⟨conn, _, [], by simp, hlive, rfl, rfl, rfl, rfl, rfl, rfl, ?_, ?_, ?_, ?_⟩
      · intro v
        simp [World.queuedFor]
      · intro event hevent
        exact .inl hevent
      · intro d
        simp [pollStopped_state]
      · intro entry queued htrack
        simpa using htrack

theorem emits_drop {recv send : List (Address × ℕ)} {time : ℕ}
    (hstep : w.drop uuid recv send time = some w') :
    ∃ conn events, (∀ e ∈ events, e.isCounter) ∧
      Emits w w' uuid conn none (events ++ [.closeConnection]) := by
  unfold World.drop at hstep
  rw [Option.bind_eq_bind, Option.bind_eq_some_iff] at hstep
  obtain ⟨conn, hlive, hstep⟩ := hstep
  rw [Option.bind_eq_bind, Option.bind_eq_some_iff] at hstep
  obtain ⟨events, hevents, hstep⟩ := hstep
  cases hstep
  obtain ⟨hbytes, hcounters⟩ := ConnType.getEvents_spec hevents
  refine ⟨conn, events, hcounters, hlive, by simp, by simp, by simp, by simp, by simp, by simp,
    ?_, ?_, ?_, ?_⟩
  · intro v
    rw [queuedFor_send, queuedFor_send]
    by_cases heq : uuid = v
    · simp [heq, World.queuedFor]
    · simp [heq, World.queuedFor]
  · intro event hevent
    rcases mem_queue_send hevent with hevent | hown
    · exact (mem_queue_send hevent :)
    · exact .inr hown
  · intro d
    rw [bytes_append, hbytes d]
    cases d <;> simp [EventType.bytes]
  · intro entry queued htrack
    exact htrack.drop fun e he => EventType.isInner_of_isCounter (hcounters e he)

/-- Nothing is queued for a connection that was never created. -/
theorem Accounts.queuedFor_eq_nil (h : Accounts w) (hnew : uuid ∉ w.created) :
    w.queuedFor uuid = [] := by
  unfold World.queuedFor
  rw [List.flatMap_eq_nil_iff]
  intro event hevent
  rw [if_neg]
  rintro rfl
  exact hnew (h.owned event hevent)

/-- A connection begins with empty accumulators. -/
theorem buffered_default (protocol : Protocol) (d : Direction) :
    protocol.default.buffered d = 0 := by
  cases protocol <;> cases d <;> rfl

/-- `new_connection` keeps the books. -/
theorem Accounts.newConnection (h : Accounts w) {protocol : Protocol} {addr : Address}
    {ctx : Value} {time : ℕ}
    (hstep : w.newConnection uuid protocol addr ctx time = some w') : Accounts w' := by
  unfold World.newConnection at hstep
  split at hstep
  · cases hstep
  rename_i hnew
  cases hstep
  obtain ⟨hlive, hentry, hremoved⟩ := h.unknown uuid hnew
  -- a new uuid has no entry yet, and nothing is queued for it
  have hqueued := h.queuedFor_eq_nil hnew
  have hcreates : (protocol.eventType addr ctx : EventType Uuid).isNew := by
    cases protocol <;> rfl
  constructor
  · intro event hevent
    rw [send_created]
    rcases mem_queue_send hevent with hold | hown
    · exact Finset.mem_insert_of_mem (h.owned event hold)
    · rw [hown]
      exact Finset.mem_insert_self _ _
  · intro v hv
    rw [send_created, Finset.mem_insert, not_or] at hv
    rw [send_live, send_manager, send_removed]
    show Function.update w.live uuid _ v = none ∧ _
    rw [Function.update_of_ne hv.1]
    exact h.unknown v hv.2
  · intro v hv
    rw [send_created, Finset.mem_insert] at hv
    rw [send_live, send_manager, queuedFor_send]
    show Track (Function.update w.live uuid _ v).isSome (w.manager.connections v).isSome
      (w.queuedFor v ++ _)
    by_cases heq : v = uuid
    · subst heq
      rw [Function.update_self, hentry, hqueued, if_pos rfl]
      have htrack : Track true false (_ :: ([.setStopper v] ++ closing true)) :=
        .fresh true hcreates (by simp [EventType.isInner])
      simpa [closing] using htrack
    · rw [Function.update_of_ne heq, if_neg (Ne.symm heq), List.append_nil]
      exact h.track v (hv.resolve_left heq)
  · intro v d
    have hold := h.balance v d
    unfold World.counter World.buffered at hold ⊢
    rw [send_live, send_manager, send_removed, send_passed, queuedFor_send, bytes_append]
    show (w.manager.connections v).elim 0 _ + w.removed v d +
      (Function.update w.live uuid _ v).elim 0 _ + (bytes d (w.queuedFor v) + _) =
        w.passed v d
    by_cases heq : v = uuid
    · subst heq
      rw [Function.update_self, if_pos rfl, bytes_newConnection]
      rw [hlive] at hold
      simp only [Option.elim_none, Option.elim_some, buffered_default] at hold ⊢
      omega
    · rw [Function.update_of_ne heq, if_neg (Ne.symm heq), bytes_nil]
      exact hold
  · intro d
    rw [send_manager, send_created, send_removed]
    show w.manager.total d = _
    unfold World.counter
    rw [send_manager, Finset.sum_insert hnew, hentry, hremoved, h.total]
    simp [World.counter]

/-- A call that adds `size` to the accumulators of one direction. -/
def Adds (d : Direction) (size : ℕ) (call : ConnType → Option ConnType) : Prop :=
  ∀ state state', call state = some state' → state.buffered d + size < 2 ^ 64 →
    ∀ d', state'.buffered d' = state.buffered d' + if d' = d then size else 0

theorem adds_read (size : ℕ) : Adds .download size (ConnType.read size) := by
  intro state state' h hlt d'
  cases state with
  | tcp r w =>
      cases h
      cases d' with
      | upload => rfl
      | download => exact addU64_eq hlt
  | udp r s => cases h

theorem adds_write (size : ℕ) : Adds .upload size (ConnType.write size) := by
  intro state state' h hlt d'
  cases state with
  | tcp r w =>
      cases h
      cases d' with
      | upload => exact addU64_eq hlt
      | download => rfl
  | udp r s => cases h

theorem adds_recvFrom (addr : Address) (size : ℕ) :
    Adds .download size (ConnType.recvFrom addr size) := by
  intro state state' h hlt d'
  cases state with
  | tcp r w => cases h
  | udp r s =>
      cases h
      cases d' with
      | upload => rfl
      | download => exact sum_addAt hlt

theorem adds_sendTo (addr : Address) (size : ℕ) :
    Adds .upload size (ConnType.sendTo addr size) := by
  intro state state' h hlt d'
  cases state with
  | tcp r w => cases h
  | udp r s =>
      cases h
      cases d' with
      | upload => exact sum_addAt hlt
      | download => rfl

/-- What a call that adds to an accumulator has done. -/
theorem record_eq_some {d : Direction} {size : ℕ} {call : ConnType → Option ConnType} :
    w.record uuid d size call = some w' ↔
      ∃ conn state, w.live uuid = some conn ∧ call conn.state = some state ∧
        w' = { w with
          live := Function.update w.live uuid (some { conn with state })
          passed := Function.update w.passed uuid
            (Function.update (w.passed uuid) d (w.passed uuid d + size)) } := by
  unfold World.record
  simp only [Option.bind_eq_bind, Option.bind_eq_some_iff, Option.pure_def,
    Option.some.injEq]
  constructor
  · rintro ⟨conn, hlive, state, hstate, rfl⟩
    exact ⟨conn, state, hlive, hstate, rfl⟩
  · rintro ⟨conn, state, hlive, hstate, rfl⟩
    exact ⟨conn, hlive, state, hstate, rfl⟩

/-- A call that adds to an accumulator keeps the books. -/
theorem Accounts.record (h : Accounts w) {d : Direction} {size : ℕ}
    {call : ConnType → Option ConnType} (hcall : Adds d size call)
    (hstep : w.record uuid d size call = some w') (hbounded : w'.Bounded) :
    Accounts w' := by
  obtain ⟨conn, state, hlive, hstate, rfl⟩ := record_eq_some.mp hstep
  have hmem := h.created_of_live hlive
  have hpassed : w.passed uuid d + size < 2 ^ 64 := by
    have hlt := hbounded.passed_lt hmem d
    simpa using hlt
  have hbuffered : conn.state.buffered d + size < 2 ^ 64 := by
    have hold := h.balance uuid d
    unfold World.buffered at hold
    rw [hlive] at hold
    simp only [Option.elim_some] at hold
    omega
  have hadded := hcall conn.state state hstate hbuffered
  constructor
  · exact h.owned
  · intro v hv
    have hne : v ≠ uuid := fun heq => hv (heq ▸ hmem)
    show Function.update w.live uuid _ v = none ∧ _
    rw [Function.update_of_ne hne]
    exact h.unknown v hv
  · intro v hv
    show Track (Function.update w.live uuid _ v).isSome (w.manager.connections v).isSome
      (w.queuedFor v)
    have hold := h.track v hv
    by_cases heq : v = uuid
    · subst heq
      rw [hlive] at hold
      rw [Function.update_self]
      exact hold
    · rw [Function.update_of_ne heq]
      exact hold
  · intro v d'
    have hold := h.balance v d'
    unfold World.counter World.buffered at hold ⊢
    show (w.manager.connections v).elim 0 _ + w.removed v d' +
      (Function.update w.live uuid _ v).elim 0 _ + bytes d' (w.queuedFor v) =
        Function.update w.passed uuid _ v d'
    by_cases heq : v = uuid
    · subst heq
      have := hadded d'
      rw [hlive] at hold
      rw [Function.update_self, Function.update_self]
      simp only [Option.elim_some] at hold ⊢
      by_cases hd : d' = d
      · subst hd
        rw [if_pos rfl] at this
        rw [Function.update_self]
        omega
      · rw [if_neg hd] at this
        rw [Function.update_of_ne hd]
        omega
    · rw [Function.update_of_ne heq, Function.update_of_ne heq]
      exact hold
  · exact h.total

/-- The next event type of a connection is taken off the queue and counted. -/
structure Handles (w w' : World Uuid) (uuid : Uuid) (e : EventType Uuid)
    (queued : List (EventType Uuid)) : Prop where
  created : w'.created = w.created
  live : w'.live = w.live
  passed : w'.passed = w.passed
  owned : ∀ event ∈ w'.queue, event.uuid ∈ w.created
  before : w.queuedFor uuid = e :: queued
  after : w'.queuedFor uuid = queued
  elsewhere : ∀ v ≠ uuid, w'.queuedFor v = w.queuedFor v ∧
    w'.manager.connections v = w.manager.connections v ∧ w'.removed v = w.removed v
  track : Track (w.live uuid).isSome (w'.manager.connections uuid).isSome queued
  counted : ∀ d, w'.counter uuid d + w'.removed uuid d =
    w.counter uuid d + w.removed uuid d + e.bytes d
  total : ∀ d, w'.manager.total d = w.manager.total d + e.bytes d

theorem Accounts.handles (h : Accounts w) (hmem : uuid ∈ w.created) {e : EventType Uuid}
    {queued : List (EventType Uuid)} (hhandles : Handles w w' uuid e queued) :
    Accounts w' := by
  have hsame : ∀ v ≠ uuid, ∀ d, w'.counter v d = w.counter v d := by
    intro v hv d
    unfold World.counter
    rw [(hhandles.elsewhere v hv).2.1]
  constructor
  · rw [hhandles.created]
    exact hhandles.owned
  · intro v hv
    rw [hhandles.created] at hv
    have hne : v ≠ uuid := fun heq => hv (heq ▸ hmem)
    obtain ⟨_, hentry, hremoved⟩ := hhandles.elsewhere v hne
    rw [hhandles.live, hentry, hremoved]
    exact h.unknown v hv
  · intro v hv
    rw [hhandles.created] at hv
    rw [hhandles.live]
    by_cases heq : v = uuid
    · subst heq
      rw [hhandles.after]
      exact hhandles.track
    · obtain ⟨hqueued, hentry, _⟩ := hhandles.elsewhere v heq
      rw [hqueued, hentry]
      exact h.track v hv
  · intro v d
    have hold := h.balance v d
    have hbuffered : w'.buffered v d = w.buffered v d := by
      unfold World.buffered
      rw [hhandles.live]
    rw [hbuffered, hhandles.passed]
    by_cases heq : v = uuid
    · subst heq
      have hcounted := hhandles.counted d
      rw [hhandles.before, bytes_cons] at hold
      rw [hhandles.after]
      omega
    · obtain ⟨hqueued, _, hremoved⟩ := hhandles.elsewhere v heq
      rw [hsame v heq, hqueued, hremoved]
      exact hold
  · -- the total and one summand grow by the same amount
    intro d
    have hchange := sum_change (f := fun v => w.counter v d + w.removed v d)
      (g := fun v => w'.counter v d + w'.removed v d) hmem (by
        intro v hv
        rw [hsame v hv, (hhandles.elsewhere v hv).2.2])
    have hcounted := hhandles.counted d
    rw [hhandles.total, h.total, hhandles.created]
    omega

omit [DecidableEq Uuid] in
theorem ConnectionInfo.counter_add {info : ConnectionInfo Uuid} {n : ℕ} {d : Direction}
    (h : info.counter d + n < 2 ^ 64) (d' : Direction) :
    (info.add n d).counter d' = info.counter d' + if d' = d then n else 0 := by
  cases d <;> cases d' <;> first | rfl | exact addU64_eq h

omit [DecidableEq Uuid] in
theorem ConnectionState.total_addTotal {state : ConnectionState Uuid} {n : ℕ}
    {d : Direction} (h : state.total d + n < 2 ^ 64) (d' : Direction) :
    (state.addTotal n d).total d' = state.total d' + if d' = d then n else 0 := by
  cases d <;> cases d' <;> first | rfl | exact addU64_eq h

omit [DecidableEq Uuid] in
theorem ConnectionState.connections_addTotal (state : ConnectionState Uuid) (n : ℕ)
    (d : Direction) : (state.addTotal n d).connections = state.connections := by
  cases d <;> rfl

/-- Counting bytes of a connection that is in the table. -/
theorem ConnectionState.count_spec {state : ConnectionState Uuid}
    {info : ConnectionInfo Uuid} (hinfo : state.connections uuid = some info)
    {d : Direction} {n : ℕ} (hcounter : info.counter d + n < 2 ^ 64)
    (htotal : state.total d + n < 2 ^ 64) :
    ∃ info', (state.count uuid d n).connections =
        Function.update state.connections uuid (some info') ∧
      ∀ d', info'.counter d' = info.counter d' + (if d' = d then n else 0) ∧
        (state.count uuid d n).total d' = state.total d' + if d' = d then n else 0 := by
  refine ⟨info.add n d, ?_, ?_⟩
  · unfold ConnectionState.count
    rw [hinfo]
    exact ConnectionState.connections_addTotal _ n d
  · intro d'
    refine ⟨ConnectionInfo.counter_add hcounter d', ?_⟩
    have htotal' : (state.set uuid (some (info.add n d))).total d + n < 2 ^ 64 := by
      cases d <;> exact htotal
    have hadd := ConnectionState.total_addTotal htotal' d'
    unfold ConnectionState.count
    rw [hinfo]
    cases d' <;> exact hadd

/-- **An event type of a connection that is in the table is counted**, in its entry and
in the totals. -/
theorem ConnectionState.inputEventType_inner {state : ConnectionState Uuid}
    {info : ConnectionInfo Uuid} (hinfo : state.connections uuid = some info)
    {e : EventType Uuid} (hinner : e.isInner) (time : ℕ)
    (hcounter : ∀ d, info.counter d + e.bytes d < 2 ^ 64)
    (htotal : ∀ d, state.total d + e.bytes d < 2 ^ 64) :
    ∃ info', (state.inputEventType uuid time e).connections =
        Function.update state.connections uuid (some info') ∧
      ∀ d, info'.counter d = info.counter d + e.bytes d ∧
        (state.inputEventType uuid time e).total d = state.total d + e.bytes d := by
  have hcount : ∀ d n, (∀ d', e.bytes d' = if d' = d then n else 0) →
      state.inputEventType uuid time e = state.count uuid d n →
      ∃ info', (state.inputEventType uuid time e).connections =
          Function.update state.connections uuid (some info') ∧
        ∀ d, info'.counter d = info.counter d + e.bytes d ∧
          (state.inputEventType uuid time e).total d = state.total d + e.bytes d := by
    intro d n hbytes heq
    have hn : e.bytes d = n := by rw [hbytes d, if_pos rfl]
    obtain ⟨info', hconnections, hd⟩ :=
      ConnectionState.count_spec hinfo (hn ▸ hcounter d) (hn ▸ htotal d)
    refine ⟨info', heq ▸ hconnections, ?_⟩
    intro d'
    rw [heq, hbytes d']
    exact hd d'
  cases e with
  | newTcp | newUdp | closeConnection => cases hinner
  | setStopper sender =>
      refine ⟨{ info with stopSender := some sender }, ?_, ?_⟩
      · simp only [ConnectionState.inputEventType, hinfo]
        rfl
      · intro d
        simp only [ConnectionState.inputEventType, hinfo]
        cases d <;> exact ⟨rfl, rfl⟩
  | write n => exact hcount .upload n (by intro d; cases d <;> rfl) rfl
  | read n => exact hcount .download n (by intro d; cases d <;> rfl) rfl
  | sendTo addr n => exact hcount .upload n (by intro d; cases d <;> rfl) rfl
  | recvFrom addr n => exact hcount .download n (by intro d; cases d <;> rfl) rfl

/-- An event type that creates an entry. -/
theorem ConnectionState.inputEventType_new (state : ConnectionState Uuid) (uuid : Uuid)
    {e : EventType Uuid} (hnew : e.isNew) (time : ℕ) :
    ∃ info, (state.inputEventType uuid time e).connections =
        Function.update state.connections uuid (some info) ∧
      ∀ d, info.counter d = 0 ∧ e.bytes d = 0 ∧
        (state.inputEventType uuid time e).total d = state.total d := by
  cases e with
  | newTcp | newUdp =>
      exact ⟨_, rfl, fun d => by cases d <;> exact ⟨rfl, rfl, rfl⟩⟩
  | _ => cases hnew

/-- What is counted and queued does not exceed what was passed. -/
theorem Accounts.total_add_le (h : Accounts w) (hmem : uuid ∈ w.created) (d : Direction) :
    w.manager.total d + bytes d (w.queuedFor uuid) ≤ ∑ v ∈ w.created, w.passed v d := by
  have hsum : ∑ v ∈ w.created, w.passed v d =
      ∑ v ∈ w.created, (w.counter v d + w.removed v d) +
        ∑ v ∈ w.created, (w.buffered v d + bytes d (w.queuedFor v)) := by
    rw [← Finset.sum_add_distrib]
    refine Finset.sum_congr rfl fun v _ => ?_
    have := h.balance v d
    omega
  have hone := Finset.single_le_sum
    (f := fun v => w.buffered v d + bytes d (w.queuedFor v)) (fun _ _ => Nat.zero_le _) hmem
  rw [h.total, hsum]
  omega

/-- What is queued fits into the counter of its connection and into the total. -/
theorem Accounts.fits (h : Accounts w) (hbounded : w.Bounded) (hmem : uuid ∈ w.created)
    {e : EventType Uuid} {queued : List (EventType Uuid)}
    (hqueued : w.queuedFor uuid = e :: queued) {info : ConnectionInfo Uuid}
    (hinfo : w.manager.connections uuid = some info) (d : Direction) :
    info.counter d + e.bytes d < 2 ^ 64 ∧ w.manager.total d + e.bytes d < 2 ^ 64 := by
  have hcounter : w.counter uuid d = info.counter d := by
    unfold World.counter
    rw [hinfo]
    rfl
  have hle : e.bytes d ≤ bytes d (w.queuedFor uuid) := by
    rw [hqueued, bytes_cons]
    omega
  have hbalance := h.balance uuid d
  have hpassed := hbounded.passed_lt hmem d
  have htotal := h.total_add_le hmem d
  have hsum := hbounded d
  omega

theorem recordRemoval_of_ne {e : EventType Uuid} {v : Uuid} (hv : v ≠ uuid) :
    w.recordRemoval uuid e v = w.removed v := by
  cases e with
  | closeConnection =>
      funext d
      simp only [World.recordRemoval, if_neg hv]
  | _ => rfl

/-- What is queued for the connection of the head of the queue. -/
theorem queuedFor_head {e : EventType Uuid} {events : List (EventType Uuid)} {time : ℕ}
    {queue : List (Event Uuid)} (hqueue : w.queue = ⟨uuid, e :: events, time⟩ :: queue) :
    w.queuedFor uuid = e :: (events ++
      queue.flatMap fun event => if event.uuid = uuid then event.events else []) := by
  unfold World.queuedFor
  rw [hqueue]
  simp

/-- Handling the head of the queue, given what becomes of the entry. -/
theorem Accounts.handles_head (h : Accounts w) {e : EventType Uuid}
    {events : List (EventType Uuid)} {time : ℕ} {queue : List (Event Uuid)}
    (hqueue : w.queue = ⟨uuid, e :: events, time⟩ :: queue)
    {entry : Option (ConnectionInfo Uuid)}
    (hentry : (w.manager.inputEventType uuid time e).connections =
      Function.update w.manager.connections uuid entry)
    {queued : List (EventType Uuid)} (hqueued : w.queuedFor uuid = e :: queued)
    (htrack : Track (w.live uuid).isSome entry.isSome queued)
    (hcounted : ∀ d, entry.elim 0 (fun info => info.counter d) +
      w.recordRemoval uuid e uuid d = w.counter uuid d + w.removed uuid d + e.bytes d)
    (htotal : ∀ d, (w.manager.inputEventType uuid time e).total d =
      w.manager.total d + e.bytes d) :
    Accounts ({ w with queue := ⟨uuid, events, time⟩ :: queue }.handle uuid time e) := by
  have hmem : uuid ∈ w.created := h.owned ⟨uuid, e :: events, time⟩ (by simp [hqueue])
  have hafter := List.tail_eq_of_cons_eq ((queuedFor_head hqueue).symm.trans hqueued)
  refine h.handles hmem (e := e) ⟨rfl, rfl, rfl, ?_, hqueued, ?_, ?_, ?_, ?_, htotal⟩
  · intro event hevent
    rcases List.mem_cons.mp hevent with rfl | hevent
    · exact hmem
    · exact h.owned event (by simp [hqueue, hevent])
  · rw [← hafter]
    simp [World.queuedFor, World.handle]
  · intro v hv
    refine ⟨?_, ?_, ?_⟩
    · simp [World.queuedFor, World.handle, hqueue, Ne.symm hv]
    · show (w.manager.inputEventType uuid time e).connections v = _
      rw [hentry, Function.update_of_ne hv]
    · exact recordRemoval_of_ne hv
  · show Track _ ((w.manager.inputEventType uuid time e).connections uuid).isSome _
    rw [hentry, Function.update_self]
    exact htrack
  · intro d
    have hcounter : ({ w with queue := ⟨uuid, events, time⟩ :: queue }.handle uuid time
        e).counter uuid d = entry.elim 0 fun info => info.counter d := by
      unfold World.counter
      show ((w.manager.inputEventType uuid time e).connections uuid).elim 0 _ = _
      rw [hentry, Function.update_self]
    rw [hcounter]
    exact hcounted d

/-- Handling an event type keeps the books: nothing is handled that does not find its
entry, and nothing overflows. -/
theorem Accounts.inputEvent (h : Accounts w) (hstep : w.inputEvent = some w')
    (hbounded : w.Bounded) : Accounts w' := by
  unfold World.inputEvent at hstep
  split at hstep
  · cases hstep
  · -- an event without types is only taken off the queue
    rename_i uuid time queue hqueue
    cases hstep
    have hqueued : ∀ v, ({ w with queue } : World Uuid).queuedFor v = w.queuedFor v := by
      intro v
      simp [World.queuedFor, hqueue]
    refine ⟨?_, h.unknown, ?_, ?_, h.total⟩
    · intro event hevent
      exact h.owned event (by simp [hqueue, hevent])
    · intro v hv
      rw [hqueued]
      exact h.track v hv
    · intro v d
      rw [hqueued]
      exact h.balance v d
  · rename_i uuid e events time queue hqueue
    cases hstep
    have hmem : uuid ∈ w.created := h.owned ⟨uuid, e :: events, time⟩ (by simp [hqueue])
    obtain ⟨queued, hqueued⟩ : ∃ queued, w.queuedFor uuid = e :: queued :=
      ⟨_, queuedFor_head hqueue⟩
    have htrack := h.track uuid hmem
    rw [hqueued] at htrack
    have hcounter : ∀ d, w.counter uuid d =
        (w.manager.connections uuid).elim 0 fun info => info.counter d := fun _ => rfl
    have hremoved : e ≠ .closeConnection → w.recordRemoval uuid e uuid = w.removed uuid := by
      intro hne
      cases e <;> first | rfl | exact absurd rfl hne
    rcases htrack.handle with ⟨hnew, hnone, hnext⟩ | ⟨hinner, hsome, hnext⟩ |
      ⟨rfl, hsome, hnext⟩
    · -- the entry is created
      obtain ⟨info, hentry, hd⟩ := ConnectionState.inputEventType_new w.manager uuid hnew time
      rw [Option.isSome_eq_false_iff, Option.isNone_iff_eq_none] at hnone
      refine h.handles_head hqueue hentry hqueued hnext ?_ ?_
      · intro d
        rw [hremoved (by rintro rfl; cases hnew), hcounter, hnone, (hd d).2.1]
        simp [(hd d).1]
      · intro d
        rw [(hd d).2.2, (hd d).2.1, Nat.add_zero]
    · -- the entry is there, and the event type is counted
      obtain ⟨info, hinfo⟩ := Option.isSome_iff_exists.mp hsome
      have hfits := h.fits hbounded hmem hqueued hinfo
      obtain ⟨info', hentry, hd⟩ := ConnectionState.inputEventType_inner hinfo hinner time
        (fun d => (hfits d).1) fun d => (hfits d).2
      refine h.handles_head hqueue hentry hqueued hnext ?_ fun d => (hd d).2
      intro d
      rw [hremoved (by rintro rfl; cases hinner), hcounter, hinfo]
      simp only [Option.elim_some, (hd d).1]
      omega
    · -- the entry is removed, and what it shows goes into the books
      refine h.handles_head hqueue rfl hqueued hnext ?_ ?_
      · intro d
        show 0 + w.recordRemoval uuid .closeConnection uuid d = _
        rw [hcounter]
        simp only [World.recordRemoval, if_pos]
        cases d <;> simp [EventType.bytes]
      · intro d
        cases d <;> rfl

/-- Trying to stop a connection does not touch the books. -/
theorem Accounts.stopConnection (h : Accounts w) : Accounts (w.stopConnection uuid) := by
  unfold World.stopConnection
  split
  · exact h
  rename_i info hinfo
  have hentry : ∀ v d, (Function.update w.manager.connections uuid
      (some { info with stopSender := none }) v).elim 0 (fun info => info.counter d) =
        w.counter v d := by
    intro v d
    by_cases heq : v = uuid
    · subst heq
      rw [Function.update_self]
      unfold World.counter
      rw [hinfo]
      cases d <;> rfl
    · rw [Function.update_of_ne heq]
      rfl
  have hsome : ∀ v, (Function.update w.manager.connections uuid
      (some { info with stopSender := none }) v).isSome =
        (w.manager.connections v).isSome := by
    intro v
    by_cases heq : v = uuid
    · subst heq
      rw [Function.update_self, hinfo]
      rfl
    · rw [Function.update_of_ne heq]
  refine ⟨h.owned, ?_, ?_, ?_, ?_⟩
  · intro v hv
    obtain ⟨hlive, hnone, hremoved⟩ := h.unknown v hv
    refine ⟨hlive, ?_, hremoved⟩
    have := hsome v
    rw [hnone] at this
    simpa [ConnectionState.set] using this
  · intro v hv
    have htrack := h.track v hv
    rw [← hsome v] at htrack
    exact htrack
  · intro v d
    have hbalance := h.balance v d
    rw [← hentry v d] at hbalance
    exact hbalance
  · intro d
    have htotal := h.total d
    simp only [← hentry] at htotal
    cases d <;> exact htotal

/-- A call adds what it is passed to the books. -/
theorem record_passed {d : Direction} {size : ℕ} {call : ConnType → Option ConnType}
    (hstep : w.record uuid d size call = some w') :
    w.created ⊆ w'.created ∧ ∀ v d', w.passed v d' ≤ w'.passed v d' := by
  obtain ⟨conn, state, _, _, rfl⟩ := record_eq_some.mp hstep
  refine ⟨subset_rfl, ?_⟩
  intro v d'
  show _ ≤ Function.update w.passed uuid _ v d'
  by_cases hv : v = uuid
  · subst hv
    rw [Function.update_self]
    by_cases hd : d' = d
    · subst hd
      rw [Function.update_self]
      omega
    · rw [Function.update_of_ne hd]
  · rw [Function.update_of_ne hv]

/-- Connections are not forgotten, and what has been passed only grows. -/
theorem passed_step {action : Action Uuid} (hstep : w.step action = some w') :
    w.created ⊆ w'.created ∧ ∀ v d, w.passed v d ≤ w'.passed v d := by
  have hemits : ∀ {uuid conn conn' events}, Emits w w' uuid conn conn' events →
      w.created ⊆ w'.created ∧ ∀ v d, w.passed v d ≤ w'.passed v d := by
    intro uuid conn conn' events h
    rw [h.created, h.passed]
    exact ⟨subset_rfl, fun _ _ => le_rfl⟩
  cases action with
  | newConnection uuid protocol addr ctx time =>
      rw [World.step, World.newConnection] at hstep
      split at hstep
      · cases hstep
      · cases hstep
        rw [send_created, send_passed]
        exact ⟨Finset.subset_insert _ _, fun _ _ => le_rfl⟩
  | read | write | recvFrom | sendTo => exact record_passed hstep
  | poll uuid heartbeat recv send time =>
      obtain ⟨_, _, _, _, h⟩ := emits_poll hstep
      exact hemits h
  | drop uuid recv send time =>
      obtain ⟨_, _, _, h⟩ := emits_drop hstep
      exact hemits h
  | inputEvent =>
      rw [World.step, World.inputEvent] at hstep
      split at hstep
      all_goals cases hstep
      all_goals exact ⟨subset_rfl, fun _ _ => le_rfl⟩
  | stopConnection uuid =>
      cases hstep
      unfold World.stopConnection
      split <;> exact ⟨subset_rfl, fun _ _ => le_rfl⟩

/-- If the sums are small after a step, they were before. -/
theorem bounded_of_step {action : Action Uuid} (hstep : w.step action = some w')
    (h : w'.Bounded) : w.Bounded := by
  obtain ⟨hcreated, hpassed⟩ := passed_step hstep
  intro d
  calc ∑ v ∈ w.created, w.passed v d
      ≤ ∑ v ∈ w.created, w'.passed v d := Finset.sum_le_sum fun v _ => hpassed v d
    _ ≤ ∑ v ∈ w'.created, w'.passed v d :=
        Finset.sum_le_sum_of_subset hcreated
    _ < 2 ^ 64 := h d

/-- Every step keeps the books. -/
theorem Accounts.step (h : Accounts w) {action : Action Uuid}
    (hstep : w.step action = some w') (hbounded : w'.Bounded) : Accounts w' := by
  have hbefore := bounded_of_step hstep hbounded
  cases action with
  | newConnection uuid protocol addr ctx time => exact h.newConnection hstep
  | read uuid size => exact h.record (adds_read size) hstep hbounded
  | write uuid size => exact h.record (adds_write size) hstep hbounded
  | recvFrom uuid addr size => exact h.record (adds_recvFrom addr size) hstep hbounded
  | sendTo uuid addr size => exact h.record (adds_sendTo addr size) hstep hbounded
  | poll uuid heartbeat recv send time =>
      obtain ⟨_, _, _, _, hemits⟩ := emits_poll hstep
      exact h.emits hemits
  | drop uuid recv send time =>
      obtain ⟨_, _, _, hemits⟩ := emits_drop hstep
      exact h.emits hemits
  | inputEvent => exact h.inputEvent hstep hbefore
  | stopConnection uuid =>
      cases hstep
      exact h.stopConnection

end Steps

/-! ## The totals -/

section Totals

variable [DecidableEq Uuid] {w : World Uuid}

/-- The books balance in every state that is reached without an overflow. -/
theorem accounts_of_reachable (reach : (system Uuid).Reachable w) :
    w.Bounded → Accounts w := by
  refine System.Reachable.invariant (P := fun w => w.Bounded → Accounts w) ?_ ?_ reach
  · intro _
    exact Accounts.initial
  · intro w action w' ih hstep hbounded
    exact (ih (bounded_of_step hstep hbounded)).step hstep hbounded

/-- The bytes in the queue are those queued for the connections. -/
theorem sum_queuedFor {created : Finset Uuid} (d : Direction) (queue : List (Event Uuid))
    (howned : ∀ event ∈ queue, event.uuid ∈ created) :
    ∑ uuid ∈ created, bytes d (queue.flatMap fun event =>
        if event.uuid = uuid then event.events else []) =
      (queue.map fun event => bytes d event.events).sum := by
  induction queue with
  | nil => simp
  | cons event queue ih =>
      have hone : ∑ uuid ∈ created, bytes d (if event.uuid = uuid then event.events else []) =
          bytes d event.events := by
        rw [Finset.sum_eq_single_of_mem event.uuid (howned event (by simp))]
        · rw [if_pos rfl]
        · intro uuid _ hne
          rw [if_neg (Ne.symm hne), bytes_nil]
      have hrest := ih fun event' hevent' => howned event' (by simp [hevent'])
      simp only [List.flatMap_cons, bytes_append, Finset.sum_add_distrib, List.map_cons,
        List.sum_cons]
      rw [hone, hrest]

end Totals

/-- **Every byte is counted exactly once.**  In every state that any interleaving
reaches, as long as the sums stay below `2 ^ 64`: what the totals show, what is buffered
in connections and what is queued adds up to all that was ever passed; the totals are
the counters of the table and of the entries that were removed; and when the queue is
empty, the table holds exactly the connections that have not been dropped, while all that
was passed to the others has been counted. -/
theorem every_byte_counted_once [DecidableEq Uuid] {w : World Uuid}
    (reach : (system Uuid).Reachable w)
    (hbounded : ∀ d, ∑ uuid ∈ w.created, w.passed uuid d < 2 ^ 64) :
    (∀ d, w.manager.total d + ∑ uuid ∈ w.created, w.buffered uuid d +
        (w.queue.map fun event => bytes d event.events).sum =
      ∑ uuid ∈ w.created, w.passed uuid d) ∧
      (∀ d, w.manager.total d =
        ∑ uuid ∈ w.created, w.counter uuid d + ∑ uuid ∈ w.created, w.removed uuid d) ∧
      (∀ uuid, (w.manager.connections uuid).isSome → uuid ∈ w.created) ∧
      (w.queue = [] →
        (∀ uuid, (w.manager.connections uuid).isSome ↔ (w.live uuid).isSome) ∧
        ∀ uuid ∈ w.created, w.live uuid = none →
          ∀ d, w.removed uuid d = w.passed uuid d) := by
  have h := accounts_of_reachable reach hbounded
  refine ⟨?_, ?_, ?_, ?_⟩
  · intro d
    rw [h.total, ← sum_queuedFor d w.queue h.owned, ← Finset.sum_add_distrib,
      ← Finset.sum_add_distrib]
    exact Finset.sum_congr rfl fun uuid _ => h.balance uuid d
  · intro d
    rw [h.total, Finset.sum_add_distrib]
  · intro uuid hsome
    by_contra hnot
    rw [(h.unknown uuid hnot).2.1] at hsome
    cases hsome
  · intro hqueue
    have hqueued : ∀ uuid, w.queuedFor uuid = [] := by
      intro uuid
      simp [World.queuedFor, hqueue]
    have hentry : ∀ uuid, (w.manager.connections uuid).isSome = (w.live uuid).isSome := by
      intro uuid
      by_cases hmem : uuid ∈ w.created
      · have htrack := h.track uuid hmem
        rw [hqueued] at htrack
        exact htrack.entry_eq_live
      · obtain ⟨hlive, hnone, _⟩ := h.unknown uuid hmem
        rw [hlive, hnone]
        rfl
    refine ⟨fun uuid => by rw [hentry], ?_⟩
    intro uuid hmem hlive d
    have hbalance := h.balance uuid d
    have hnone : w.manager.connections uuid = none := by
      have := hentry uuid
      rw [hlive] at this
      simpa using this
    simpa [World.counter, World.buffered, hqueued, hlive, hnone] using hbalance

/-- A TCP and a UDP connection; the first has been dropped, and everything is handled. -/
def twoConnections : List (Action ℕ) :=
  let addr : Address := .socketAddr (.v4 0 80)
  let peer : Address := .socketAddr (.v4 1 53)
  [.newConnection 0 .tcp addr .null 0, .write 0 5, .newConnection 1 .udp peer .null 0,
    .poll 0 true [] [] 1, .read 0 7, .sendTo 1 peer 3, .sendTo 1 peer 4, .drop 0 [] [] 2,
    .poll 1 true [] [(peer, 7)] 3] ++ List.replicate 14 .inputEvent

theorem every_byte_counted_once_twoConnections :
    ∃ w : World ℕ, (system ℕ).run twoConnections = some w ∧ w.queue = [] ∧
      (∀ uuid, (w.manager.connections uuid).isSome ↔ (w.live uuid).isSome) ∧
      (∀ d, w.removed 0 d = w.passed 0 d) ∧ w.passed 0 .upload = 5 ∧
      w.manager.total .upload = 12 := by
  obtain ⟨w, hrun, hqueue, hcreated, hupload, hdownload, hlive, hpassed, htotal⟩ :
      ∃ w, (system ℕ).run twoConnections = some w ∧ w.queue = [] ∧ 0 ∈ w.created ∧
        ∑ uuid ∈ w.created, w.passed uuid .upload = 12 ∧
        ∑ uuid ∈ w.created, w.passed uuid .download = 7 ∧ w.live 0 = none ∧
        w.passed 0 .upload = 5 ∧ w.manager.total .upload = 12 := by
    refine ⟨_, rfl, ?_⟩
    exact ⟨rfl, by decide, rfl, rfl, rfl, rfl, rfl⟩
  have hbounded : ∀ d, ∑ uuid ∈ w.created, w.passed uuid d < 2 ^ 64 := by
    intro d
    cases d with
    | upload => rw [hupload]; decide
    | download => rw [hdownload]; decide
  obtain ⟨_, _, _, hdone⟩ :=
    every_byte_counted_once (System.reachable_of_run _ twoConnections hrun) hbounded
  obtain ⟨hkeys, hcounted⟩ := hdone hqueue
  exact ⟨w, hrun, hqueue, hkeys, hcounted 0 hcreated hlive, hpassed, htotal⟩

end RabbitDigger.ConnectionManager
