import RabbitDigger.Foundation.Tally
import RabbitDigger.Manager.Stop

/-!
# Who owns the stopper

The sender of a connection's stop channel is **always in exactly one place**: first in the
queue, then in the entry of the table, then in the hands of one stop call, until it is used
up or dropped.  This module follows it there, for each connection by itself.

What concerns one connection is collected in a `View`: whether it is alive, its entry, what
is queued for it, its channel, and how many calls hold or have used its sender.
`Stopper uuid` lists the views that are possible, in the order in which a connection goes
through them.  Every step changes the view of at most one connection (`Owned.change`), and
leads from a possible view to a possible view.

From this follows what can be said about stop calls: **a poll reports an abort only after a
stop call has signalled this very connection**, since as long as the connection is alive
its sender is not dropped; a connection is signalled at most once, since there is one
sender; and a call that finds an entry without a sender finds a connection that has been
dropped, has been signalled, or **is about to be signalled** by a `stop_connection` that
has taken the sender and not yet sent.
-/

namespace RabbitDigger.ConnectionManager

open Transition Tally

variable {Uuid : Type}

/-! ## One connection -/

namespace EventType

/-- What handling an event type makes of an entry, of which only the sender counts:
`none` is no entry, and `some none` an entry without a sender. -/
def entry : EventType Uuid → Option (Option Uuid) → Option (Option Uuid)
  | .newTcp _ _, _ | .newUdp _ _, _ => some none
  | .setStopper sender, entry => entry.map fun _ => some sender
  | .closeConnection, _ => none
  | _, entry => entry

/-- The senders that are dropped by handling an event type. -/
def drops : EventType Uuid → Option (Option Uuid) → List Uuid
  | .newTcp _ _, entry | .newUdp _ _, entry | .closeConnection, entry =>
      (entry.bind id).toList
  | .setStopper sender, none => [sender]
  | .setStopper _, some entry => entry.toList
  | _, _ => []

theorem entry_of_isCounter {e : EventType Uuid} (h : e.isCounter)
    (entry : Option (Option Uuid)) : e.entry entry = entry ∧ e.drops entry = [] := by
  cases e <;> first | exact ⟨rfl, rfl⟩ | cases h

theorem entry_of_isNew {e : EventType Uuid} (h : e.isNew) :
    e.entry none = some none ∧ e.drops none = [] := by
  cases e <;> first | exact ⟨rfl, rfl⟩ | cases h

theorem isCreation_of_isNew {e : EventType Uuid} (h : e.isNew) : e.isCreation := by
  cases e <;> first | rfl | cases h

theorem isCreation_of_isCounter {e : EventType Uuid} (h : e.isCounter) :
    e.isCreation = false := by
  cases e <;> first | rfl | cases h

end EventType

section Handling

variable [DecidableEq Uuid] (state : ConnectionState Uuid) (uuid : Uuid)

/-- Counting bytes leaves the sender of every entry alone. -/
theorem count_stopSender (d : Direction) (n : ℕ) (v : Uuid) :
    ((state.count uuid d n).connections v).map ConnectionInfo.stopSender =
      (state.connections v).map ConnectionInfo.stopSender := by
  unfold ConnectionState.count
  split
  · rfl
  rename_i info hinfo
  rw [ConnectionState.connections_addTotal]
  show (Function.update state.connections uuid _ v).map _ = _
  by_cases hv : v = uuid
  · subst hv
    rw [Function.update_self, hinfo]
    cases d <;> rfl
  · rw [Function.update_of_ne hv]

/-- What handling an event type does to the senders in the table. -/
theorem inputEventType_stopSender (time : ℕ) (e : EventType Uuid) (v : Uuid) :
    ((state.inputEventType uuid time e).connections v).map ConnectionInfo.stopSender =
      if v = uuid then e.entry ((state.connections uuid).map ConnectionInfo.stopSender)
      else (state.connections v).map ConnectionInfo.stopSender := by
  have hset : ∀ info, ((state.set uuid info).connections v).map ConnectionInfo.stopSender =
      if v = uuid then info.map ConnectionInfo.stopSender
      else (state.connections v).map ConnectionInfo.stopSender := by
    intro info
    show (Function.update state.connections uuid info v).map _ = _
    by_cases hv : v = uuid
    · subst hv
      rw [Function.update_self, if_pos rfl]
    · rw [Function.update_of_ne hv, if_neg hv]
  have hcount : ∀ d n, ((state.count uuid d n).connections v).map ConnectionInfo.stopSender =
      if v = uuid then (state.connections uuid).map ConnectionInfo.stopSender
      else (state.connections v).map ConnectionInfo.stopSender := by
    intro d n
    rw [count_stopSender]
    by_cases hv : v = uuid
    · rw [hv, if_pos rfl]
    · rw [if_neg hv]
  cases e with
  | newTcp | newUdp | closeConnection => exact hset _
  | read n | write n | recvFrom addr n | sendTo addr n => exact hcount _ n
  | setStopper sender =>
      unfold ConnectionState.inputEventType
      cases hinfo : state.connections uuid with
      | none =>
          by_cases hv : v = uuid
          · rw [hv, if_pos rfl]
            simp only [hinfo]
            rfl
          · rw [if_neg hv]
      | some info => exact hset _

omit [DecidableEq Uuid] in
theorem discards_eq_drops (e : EventType Uuid) :
    state.discards uuid e =
      e.drops ((state.connections uuid).map ConnectionInfo.stopSender) := by
  cases e <;> simp only [ConnectionState.discards, EventType.drops] <;>
    cases state.connections uuid <;> rfl

end Handling

namespace Stop

/-- What concerns one connection. -/
@[ext] structure View (Uuid : Type) where
  live : Bool
  /-- The sender in its entry, if there is an entry. -/
  entry : Option (Option Uuid)
  queued : List (EventType Uuid)
  channel : Oneshot
  /-- How many `stop_connection` hold the sender. -/
  sending : ℕ
  /-- How many `stop_connections` hold the sender. -/
  blocking : ℕ
  /-- How often it has been signalled. -/
  signalled : ℕ

namespace View

/-- Nothing is known of a connection that has not been created. -/
def unknown : View Uuid := ⟨false, none, [], .waiting, 0, 0, 0⟩

/-- The event that creates the connection has been handled. -/
def Announced (v : View Uuid) : Prop := ∀ e ∈ v.queued, e.isCreation = false

/-- **No call needs to care for the connection any more**: it has been dropped, it has
been signalled, or a `stop_connection` is about to signal it. -/
def Settled (v : View Uuid) : Prop := v.live = false ∨ 0 < v.signalled ∨ 0 < v.sending

end View

/-- **The sender after it was taken**, given whether the connection is alive: in the hands
of one call, sent on, or used up in vain.  The last happens only if the connection has
been dropped. -/
inductive Taken : Bool → Oneshot → ℕ → ℕ → ℕ → Prop where
  | sending (live : Bool) : Taken live .waiting 1 0 0
  | blocking (live : Bool) : Taken live .waiting 0 1 0
  | signalled (live : Bool) : Taken live .sent 0 0 1
  | lost : Taken false .closed 0 0 0

/-- **The way of the sender** `uuid`: in the queue behind the creation of the entry, at
the head of the queue with an entry that waits for it, in the entry, taken out of it; and
at last the entry is gone. -/
inductive Stopper (uuid : Uuid) : View Uuid → Prop where
  | fresh (live : Bool) {e : EventType Uuid} {body : List (EventType Uuid)} :
      e.isNew → (∀ e ∈ body, e.isCounter) →
      Stopper uuid ⟨live, none, e :: .setStopper uuid :: (body ++ closing live), .waiting,
        0, 0, 0⟩
  | entered (live : Bool) {body : List (EventType Uuid)} : (∀ e ∈ body, e.isCounter) →
      Stopper uuid ⟨live, some none, .setStopper uuid :: (body ++ closing live), .waiting,
        0, 0, 0⟩
  | armed (live : Bool) {body : List (EventType Uuid)} : (∀ e ∈ body, e.isCounter) →
      Stopper uuid ⟨live, some (some uuid), body ++ closing live, .waiting, 0, 0, 0⟩
  | taken {live : Bool} {body : List (EventType Uuid)} {channel : Oneshot} {a b c : ℕ} :
      Taken live channel a b c → (∀ e ∈ body, e.isCounter) →
      Stopper uuid ⟨live, some none, body ++ closing live, channel, a, b, c⟩
  | gone {channel : Oneshot} {a b c : ℕ} : Taken false channel a b c →
      Stopper uuid ⟨false, none, [], channel, a, b, c⟩

/-- A connection may be dropped at any time. -/
theorem Taken.drop {channel : Oneshot} {a b c : ℕ} (h : Taken true channel a b c)
    (alive : Bool) : Taken alive channel a b c := by
  cases h with
  | sending => exact .sending alive
  | blocking => exact .blocking alive
  | signalled => exact .signalled alive

/-- Somebody holds the sender. -/
theorem Taken.of_held {live : Bool} {channel : Oneshot} {a b c : ℕ}
    (h : Taken live channel a b c) (hheld : 0 < a + b) : a + b = 1 ∧ c = 0 := by
  cases h with
  | sending | blocking => exact ⟨rfl, rfl⟩
  | signalled | lost => cases hheld

namespace Stopper

variable {uuid : Uuid} {v : View Uuid} {e : EventType Uuid}
  {events rest : List (EventType Uuid)}

/-- A connection that is alive reports bytes, and may be dropped with that. -/
theorem sends (h : Stopper uuid v) (hlive : v.live = true)
    (hevents : ∀ e ∈ events, e.isCounter) (alive : Bool) :
    Stopper uuid { v with live := alive, queued := v.queued ++ (events ++ closing alive) } := by
  cases h with
  | fresh live hnew hbody =>
      cases hlive
      have : Stopper uuid _ := fresh alive hnew (List.forall_mem_append.mpr ⟨hbody, hevents⟩)
      simpa [closing] using this
  | entered live hbody =>
      cases hlive
      have : Stopper uuid _ := entered alive (List.forall_mem_append.mpr ⟨hbody, hevents⟩)
      simpa [closing] using this
  | armed live hbody =>
      cases hlive
      have : Stopper uuid _ := armed alive (List.forall_mem_append.mpr ⟨hbody, hevents⟩)
      simpa [closing] using this
  | taken htaken hbody =>
      cases hlive
      have : Stopper uuid _ :=
        taken (htaken.drop alive) (List.forall_mem_append.mpr ⟨hbody, hevents⟩)
      simpa [closing] using this
  | gone => cases hlive

/-- The head of what is queued while there is an entry with or without its sender: a
counter, or the removal. -/
theorem head_of_body {live : Bool} {body : List (EventType Uuid)}
    (hbody : ∀ e ∈ body, e.isCounter) (hqueued : body ++ closing live = e :: rest) :
    (e.isCounter ∧ ∃ body', (∀ e ∈ body', e.isCounter) ∧ rest = body' ++ closing live) ∨
      e = .closeConnection ∧ live = false ∧ rest = [] := by
  cases body with
  | nil =>
      cases live with
      | true => cases hqueued
      | false =>
          cases hqueued
          exact .inr ⟨rfl, rfl, rfl⟩
  | cons e' body =>
      cases hqueued
      exact .inl ⟨hbody e (by simp), body, fun e he => hbody e (by simp [he]), rfl⟩

/-- **Handling an event type.**  No sender but the connection's own is dropped, and that
only after the connection was dropped. -/
theorem handle (h : Stopper uuid v) (hqueued : v.queued = e :: rest) [DecidableEq Uuid] :
    (∀ sender ∈ e.drops v.entry, sender = uuid) ∧
      Stopper uuid { v with
        entry := e.entry v.entry
        queued := rest
        channel := if uuid ∈ e.drops v.entry ∧ v.channel = .waiting then .closed
          else v.channel } := by
  cases h with
  | fresh live hnew hbody =>
      cases hqueued
      obtain ⟨hentry, hdrops⟩ := EventType.entry_of_isNew hnew
      simp only [hentry, hdrops]
      exact ⟨by simp, by simpa using entered live hbody⟩
  | entered live hbody =>
      cases hqueued
      exact ⟨by simp [EventType.drops],
        by simpa [EventType.drops, EventType.entry] using armed live hbody⟩
  | armed live hbody =>
      rcases head_of_body hbody hqueued with ⟨hcounter, body, hbody, rfl⟩ | ⟨rfl, rfl, rfl⟩
      · obtain ⟨hentry, hdrops⟩ := EventType.entry_of_isCounter hcounter (some (some uuid))
        simp only [hentry, hdrops]
        exact ⟨by simp, by simpa using armed live hbody⟩
      · exact ⟨by simp [EventType.drops],
          by simpa [EventType.drops, EventType.entry] using gone .lost⟩
  | taken htaken hbody =>
      rcases head_of_body hbody hqueued with ⟨hcounter, body, hbody, rfl⟩ | ⟨rfl, rfl, rfl⟩
      · obtain ⟨hentry, hdrops⟩ := EventType.entry_of_isCounter hcounter (some none)
        simp only [hentry, hdrops]
        exact ⟨by simp, by simpa using taken htaken hbody⟩
      · exact ⟨by simp [EventType.drops],
          by simpa [EventType.drops, EventType.entry] using gone htaken⟩
  | gone => cases hqueued

/-- **Taking the sender** out of the entry, into the hands of one call. -/
theorem take {sender : Uuid} (h : Stopper uuid v) (hentry : v.entry = some (some sender)) :
    sender = uuid ∧ v.sending = 0 ∧ v.blocking = 0 ∧
      ∀ a b, a + b = 1 →
        Stopper uuid { v with entry := some none, sending := a, blocking := b } := by
  cases h with
  | fresh | entered | taken | gone => cases hentry
  | armed live hbody =>
      cases hentry
      refine ⟨rfl, rfl, rfl, ?_⟩
      intro a b hab
      obtain ⟨rfl, rfl⟩ | ⟨rfl, rfl⟩ := Nat.add_eq_one_iff.mp hab
      · exact taken (.blocking live) hbody
      · exact taken (.sending live) hbody

/-- **Sending on it.** -/
theorem sent (h : Stopper uuid v) (hheld : 0 < v.sending + v.blocking) :
    v.sending + v.blocking = 1 ∧ v.signalled = 0 ∧
      Stopper uuid { v with
        channel := if v.live then .sent else .closed
        sending := 0
        blocking := 0
        signalled := if v.live then 1 else 0 } := by
  have hused : ∀ live : Bool, Taken live (if live then .sent else .closed) 0 0
      (if live then 1 else 0) := by
    intro live
    cases live with
    | true => exact .signalled true
    | false => exact .lost
  cases h with
  | fresh | entered | armed => cases hheld
  | taken htaken hbody =>
      obtain ⟨hone, hnone⟩ := htaken.of_held hheld
      exact ⟨hone, hnone, taken (hused _) hbody⟩
  | gone htaken =>
      obtain ⟨hone, hnone⟩ := htaken.of_held hheld
      exact ⟨hone, hnone, gone (hused false)⟩

/-- A connection is signalled at most once. -/
theorem signalled_le_one (h : Stopper uuid v) : v.signalled ≤ 1 := by
  cases h with
  | taken htaken => cases htaken <;> simp
  | gone htaken => cases htaken <;> simp
  | _ => simp

/-- The value is in the channel exactly if the connection was signalled. -/
theorem channel_eq_sent_iff (h : Stopper uuid v) : v.channel = .sent ↔ 0 < v.signalled := by
  cases h with
  | taken htaken => cases htaken <;> simp
  | gone htaken => cases htaken <;> simp
  | _ => simp

/-- **As long as a connection is alive, its receiver completes only if it is signalled.** -/
theorem signalled_of_live (h : Stopper uuid v) (hlive : v.live = true)
    (hchannel : v.channel ≠ .waiting) : 0 < v.signalled := by
  cases h with
  | taken htaken =>
      cases htaken with
      | signalled => exact Nat.one_pos
      | lost => cases hlive
      | _ => exact absurd rfl hchannel
  | gone => cases hlive
  | _ => exact absurd rfl hchannel

/-- When its creation has been handled, a connection without an entry has been dropped. -/
theorem settled_of_missing (h : Stopper uuid v) (hann : v.Announced)
    (hentry : v.entry = none) : v.Settled := by
  cases h with
  | fresh live hnew hbody =>
      have := hann _ (List.mem_cons_self ..)
      rw [EventType.isCreation_of_isNew hnew] at this
      cases this
  | gone => exact .inl rfl
  | _ => cases hentry

/-- When its creation has been handled, a connection whose entry holds no sender is
settled, unless a `stop_connections` holds the sender. -/
theorem settled_of_empty (h : Stopper uuid v) (hann : v.Announced)
    (hentry : v.entry = some none) (hblocking : v.blocking = 0) : v.Settled := by
  cases h with
  | entered live hbody =>
      have := hann _ (List.mem_cons_self ..)
      cases this
  | taken htaken =>
      cases htaken with
      | sending => exact .inr (.inr Nat.one_pos)
      | blocking => cases hblocking
      | signalled => exact .inr (.inl Nat.one_pos)
      | lost => exact .inl rfl
  | _ => cases hentry

/-- When its creation has been handled, a connection that is alive has an entry. -/
theorem entry_of_live (h : Stopper uuid v) (hann : v.Announced) (hlive : v.live = true) :
    v.entry.isSome := by
  cases h with
  | fresh live hnew hbody =>
      have := hann _ (List.mem_cons_self ..)
      rw [EventType.isCreation_of_isNew hnew] at this
      cases this
  | gone => cases hlive
  | _ => rfl

end Stopper

/-! ## All connections -/

namespace Place

/-- The weight of a call of `stop_connection` that holds the sender. -/
def sending [DecidableEq Uuid] (uuid : Uuid) : Place Uuid → ℕ
  | .send _ sender => if sender = uuid then 1 else 0
  | _ => 0

/-- The weight of a call of `stop_connections` that holds the sender. -/
def blocking [DecidableEq Uuid] (uuid : Uuid) : Place Uuid → ℕ
  | .body _ _ _ sender => if sender = uuid then 1 else 0
  | _ => 0

end Place

variable [DecidableEq Uuid] {s s' : State Uuid} {uuid : Uuid} {w' : World Uuid}

/-- The view of a connection. -/
def State.view (s : State Uuid) (uuid : Uuid) : View Uuid where
  live := (s.world.live uuid).isSome
  entry := (s.world.manager.connections uuid).map ConnectionInfo.stopSender
  queued := s.world.queuedFor uuid
  channel := s.world.channels uuid
  sending := tally (fun call => call.place.sending uuid) s.calls
  blocking := tally (fun call => call.place.blocking uuid) s.calls
  signalled := (s.signals.map Prod.snd).count uuid

/-- Every connection is on the way of its sender. -/
structure Owned (s : State Uuid) : Prop where
  unknown : ∀ uuid ∉ s.world.created, s.view uuid = .unknown
  stopper : ∀ uuid ∈ s.world.created, Stopper uuid (s.view uuid)

/-- What a step keeps. -/
structure Evolves (s s' : State Uuid) : Prop where
  owned : Owned s'
  created : s.world.created ⊆ s'.world.created
  announced : ∀ uuid ∈ s.world.created, (s.view uuid).Announced → (s'.view uuid).Announced
  settled : ∀ uuid ∈ s.world.created, (s.view uuid).Settled → (s'.view uuid).Settled

namespace Owned

/-- A connection of which the view shows something has been created. -/
theorem created_of_ne {α : Type} (h : Owned s) (field : View Uuid → α)
    (hne : field (s.view uuid) ≠ field .unknown) : uuid ∈ s.world.created := by
  by_contra hnot
  exact hne (congrArg field (h.unknown uuid hnot))

/-- **A step that concerns one connection.** -/
theorem change (h : Owned s) (uuid : Uuid) (hmem : uuid ∈ s'.world.created)
    (hcreated : ∀ v ≠ uuid, v ∈ s'.world.created ↔ v ∈ s.world.created)
    (helse : ∀ v ≠ uuid, s'.view v = s.view v) (hstopper : Stopper uuid (s'.view uuid))
    (hann : uuid ∈ s.world.created → (s.view uuid).Announced → (s'.view uuid).Announced)
    (hsettled : uuid ∈ s.world.created → (s.view uuid).Settled → (s'.view uuid).Settled) :
    Evolves s s' := by
  refine ⟨⟨?_, ?_⟩, ?_, ?_, ?_⟩
  · intro v hv
    have hne : v ≠ uuid := fun heq => hv (heq ▸ hmem)
    rw [helse v hne]
    exact h.unknown v fun hold => hv ((hcreated v hne).mpr hold)
  · intro v hv
    by_cases heq : v = uuid
    · rw [heq]
      exact hstopper
    · rw [helse v heq]
      exact h.stopper v ((hcreated v heq).mp hv)
  · intro v hv
    by_cases heq : v = uuid
    · rw [heq]
      exact hmem
    · exact (hcreated v heq).mpr hv
  · intro v hv hold
    by_cases heq : v = uuid
    · subst heq
      exact hann hv hold
    · rw [helse v heq]
      exact hold
  · intro v hv hold
    by_cases heq : v = uuid
    · subst heq
      exact hsettled hv hold
    · rw [helse v heq]
      exact hold

/-- A step that concerns no connection. -/
theorem same (h : Owned s) (hcreated : s'.world.created = s.world.created)
    (hview : ∀ v, s'.view v = s.view v) : Evolves s s' := by
  refine ⟨⟨?_, ?_⟩, ?_, ?_, ?_⟩
  · intro v hv
    rw [hview]
    exact h.unknown v (hcreated ▸ hv)
  · intro v hv
    rw [hview]
    exact h.stopper v (hcreated ▸ hv)
  · rw [hcreated]
  · intro v _ hold
    rw [hview]
    exact hold
  · intro v _ hold
    rw [hview]
    exact hold

end Owned

/-! ### Connections and events -/

section Acting

variable {w : World Uuid} {reports : List (Uuid × PollResult)}

/-- A connection sends events to the table, and stays alive or not. -/
structure Sends (w w' : World Uuid) (uuid : Uuid) (alive : Bool)
    (events : List (EventType Uuid)) : Prop where
  was : (w.live uuid).isSome
  manager : w'.manager = w.manager
  channels : w'.channels = w.channels
  created : w'.created = w.created
  live : ∀ v, (w'.live v).isSome = if v = uuid then alive else (w.live v).isSome
  queued : ∀ v, w'.queuedFor v = w.queuedFor v ++ if uuid = v then events else []

theorem isSome_update {live : Uuid → Option Connection} {conn : Option Connection}
    (v : Uuid) : (Function.update live uuid conn v).isSome =
      if v = uuid then conn.isSome else (live v).isSome := by
  by_cases hv : v = uuid
  · rw [hv, Function.update_self, if_pos rfl]
  · rw [Function.update_of_ne hv, if_neg hv]

theorem sends_record {d : Direction} {size : ℕ} {call : ConnType → Option ConnType}
    (hstep : w.record uuid d size call = some w') : Sends w w' uuid true [] := by
  obtain ⟨conn, state, hlive, _, rfl⟩ := record_eq_some.mp hstep
  refine ⟨by rw [hlive]; rfl, rfl, rfl, rfl, ?_, ?_⟩
  · intro v
    exact isSome_update v
  · intro v
    simp [World.queuedFor]

theorem sends_of_emits {conn : Connection} {conn' : Option Connection}
    {events : List (EventType Uuid)} (h : Emits w w' uuid conn conn' events) :
    Sends w w' uuid conn'.isSome events := by
  refine ⟨by rw [h.was]; rfl, h.manager, h.channels, h.created, ?_, h.queued⟩
  intro v
  rw [h.live]
  exact isSome_update v

/-- Events that a connection sends do not touch its sender. -/
theorem Owned.sends (h : Owned s) (alive : Bool) (events : List (EventType Uuid))
    (hevents : ∀ e ∈ events, e.isCounter)
    (hsends : Sends s.world w' uuid alive (events ++ closing alive)) :
    Evolves s { s with world := w', reports } := by
  have hmem : uuid ∈ s.world.created := by
    apply h.created_of_ne View.live
    rw [show (s.view uuid).live = true from hsends.was]
    intro hfalse
    cases hfalse
  have hview : ({ s with world := w', reports } : State Uuid).view uuid = { s.view uuid with
      live := alive, queued := (s.view uuid).queued ++ (events ++ closing alive) } := by
    simp only [State.view, hsends.manager, hsends.channels, hsends.live, hsends.queued,
      if_true]
  refine h.change uuid ?_ ?_ ?_ ?_ ?_ ?_
  · show uuid ∈ w'.created
    rw [hsends.created]
    exact hmem
  · intro v _
    show v ∈ w'.created ↔ _
    rw [hsends.created]
  · intro v hv
    simp only [State.view, hsends.manager, hsends.channels, hsends.live, hsends.queued,
      if_neg hv, if_neg (Ne.symm hv), List.append_nil]
  · rw [hview]
    exact (h.stopper uuid hmem).sends hsends.was hevents alive
  · intro _ hann e he
    rw [hview] at he
    rcases List.mem_append.mp he with he | he
    · exact hann e he
    rcases List.mem_append.mp he with he | he
    · exact EventType.isCreation_of_isCounter (hevents e he)
    · cases alive with
      | true => cases he
      | false =>
          cases List.mem_singleton.mp he
          rfl
  · intro _ hsettled
    rw [hview]
    rcases hsettled with hdead | hsettled
    · rw [show (s.view uuid).live = true from hsends.was] at hdead
      cases hdead
    · exact .inr hsettled

/-- A new connection sends its sender behind the creation of its entry. -/
theorem Owned.newConnection (h : Owned s) {protocol : Protocol} {addr : Address}
    {ctx : Value} {time : ℕ}
    (hstep : s.world.newConnection uuid protocol addr ctx time = some w') :
    Evolves s { s with world := w', reports } := by
  unfold World.newConnection at hstep
  split at hstep
  · cases hstep
  rename_i hnew
  injection hstep with heq
  have hcreates : (protocol.eventType addr ctx : EventType Uuid).isNew := by
    cases protocol <;> rfl
  have hmanager : w'.manager = s.world.manager := by
    rw [← heq, send_manager]
  have hlive : ∀ v, (w'.live v).isSome = if v = uuid then true else (s.world.live v).isSome := by
    intro v
    rw [← heq, send_live]
    exact isSome_update v
  have hchannels : w'.channels = Function.update s.world.channels uuid .waiting := by
    rw [← heq, send_channels]
  have hcreated : w'.created = insert uuid s.world.created := by
    rw [← heq, send_created]
  have hqueued : ∀ v, w'.queuedFor v = s.world.queuedFor v ++
      if uuid = v then [protocol.eventType addr ctx, .setStopper uuid] else [] := by
    intro v
    rw [← heq]
    exact queuedFor_send v
  refine h.change uuid ?_ ?_ ?_ ?_ ?_ ?_
  · show uuid ∈ w'.created
    rw [hcreated]
    exact Finset.mem_insert_self _ _
  · intro v hv
    show v ∈ w'.created ↔ _
    rw [hcreated, Finset.mem_insert, or_iff_right hv]
  · intro v hv
    simp only [State.view, hmanager, hlive, hchannels, hqueued, if_neg hv,
      if_neg (Ne.symm hv), Function.update_of_ne hv, List.append_nil]
  · have hunknown := h.unknown uuid hnew
    simp only [State.view, View.unknown, View.mk.injEq] at hunknown
    obtain ⟨_, hentry, hnothing, _, hsending, hblocking, hsignalled⟩ := hunknown
    simp only [State.view, hmanager, hlive, hchannels, hqueued, if_true,
      Function.update_self, hentry, hnothing, hsending, hblocking, hsignalled]
    have hbody : ∀ e ∈ ([] : List (EventType Uuid)), e.isCounter := by simp
    exact Stopper.fresh true hcreates hbody
  · intro hold
    exact absurd hold hnew
  · intro hold
    exact absurd hold hnew

/-- Handling an event type. -/
theorem Owned.inputEvent (h : Owned s) (hstep : s.world.inputEvent = some w') :
    Evolves s { s with world := w', reports } := by
  unfold World.inputEvent at hstep
  split at hstep
  · cases hstep
  · -- an event without types is only taken off the queue
    rename_i uuid time queue hqueue
    cases hstep
    refine h.same rfl ?_
    intro v
    simp [State.view, World.queuedFor, hqueue]
  · rename_i uuid e events time queue hqueue
    cases hstep
    obtain ⟨rest, hrest⟩ : ∃ rest, s.world.queuedFor uuid = e :: rest :=
      ⟨_, queuedFor_head hqueue⟩
    have hmem : uuid ∈ s.world.created := by
      apply h.created_of_ne View.queued
      rw [show (s.view uuid).queued = e :: rest from hrest]
      exact List.cons_ne_nil e rest
    obtain ⟨hown, hstopper⟩ := (h.stopper uuid hmem).handle hrest
    have hafter := List.tail_eq_of_cons_eq ((queuedFor_head hqueue).symm.trans hrest)
    have hview : ({ s with
        world := { s.world with queue := ⟨uuid, events, time⟩ :: queue }.handle uuid time e
        reports } : State Uuid).view uuid = { s.view uuid with
          entry := e.entry (s.view uuid).entry
          queued := rest
          channel := if uuid ∈ e.drops (s.view uuid).entry ∧ (s.view uuid).channel = .waiting
            then .closed else (s.view uuid).channel } := by
      apply View.ext
      · rfl
      · exact (inputEventType_stopSender _ uuid time e uuid).trans (if_pos rfl)
      · rw [← hafter]
        simp [State.view, World.queuedFor, World.handle]
      · show (if uuid ∈ s.world.manager.discards uuid e ∧ s.world.channels uuid = .waiting
          then .closed else s.world.channels uuid) = _
        rw [discards_eq_drops]
        rfl
      · rfl
      · rfl
      · rfl
    refine h.change uuid hmem (fun _ _ => Iff.rfl) ?_ ?_ ?_ ?_
    · intro v hv
      -- a sender that is dropped is the connection's own
      have hnot : v ∉ e.drops (s.view uuid).entry := fun hdrop => hv (hown v hdrop)
      apply View.ext
      · rfl
      · exact (inputEventType_stopSender _ uuid time e v).trans (if_neg hv)
      · simp [State.view, World.queuedFor, World.handle, hqueue, Ne.symm hv]
      · show (if v ∈ s.world.manager.discards uuid e ∧ s.world.channels v = .waiting
          then .closed else s.world.channels v) = _
        rw [discards_eq_drops]
        exact if_neg fun hdrop => hnot hdrop.1
      · rfl
      · rfl
      · rfl
    · rw [hview]
      exact hstopper
    · intro _ hann e' he'
      rw [hview] at he'
      refine hann e' ?_
      rw [show (s.view uuid).queued = e :: rest from hrest]
      exact List.mem_cons_of_mem _ he'
    · intro _ hsettled
      rw [hview]
      exact hsettled

/-- Whatever happens to connections and events. -/
theorem Owned.act (h : Owned s) {action : Action Uuid} (hstep : s.act action = some s') :
    Evolves s s' := by
  cases action with
  | stopConnection uuid => cases hstep
  | newConnection uuid protocol addr ctx time =>
      obtain ⟨w, hw, rfl⟩ := Option.map_eq_some_iff.mp hstep
      exact h.newConnection hw
  | read | write | recvFrom | sendTo =>
      obtain ⟨w, hw, rfl⟩ := Option.map_eq_some_iff.mp hstep
      exact h.sends true [] (by simp) (sends_record hw)
  | poll uuid heartbeat recv send time =>
      obtain ⟨w, hw, rfl⟩ := Option.map_eq_some_iff.mp hstep
      obtain ⟨_, _, events, hevents, hemits⟩ := emits_poll hw
      exact h.sends true events hevents (by simpa [closing] using sends_of_emits hemits)
  | drop uuid recv send time =>
      obtain ⟨w, hw, rfl⟩ := Option.map_eq_some_iff.mp hstep
      obtain ⟨_, events, hevents, hemits⟩ := emits_drop hw
      exact h.sends false events hevents (sends_of_emits hemits)
  | inputEvent =>
      obtain ⟨w, hw, rfl⟩ := Option.map_eq_some_iff.mp hstep
      exact h.inputEvent hw

end Acting

end Stop

end RabbitDigger.ConnectionManager
