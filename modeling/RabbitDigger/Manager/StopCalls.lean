import RabbitDigger.Manager.Ownership

/-!
# Every connection is stopped once

What is recorded of the stop calls, whatever the interleaving: `Inv` adds the books to the
ownership of the senders.  A call counts the connections it signals, and a connection that
was ready when a call began is, at every later time, **still ahead of the call, or
settled** (`Call.Sound`).  When the call has returned nothing is ahead of it.

Settled is weaker than signalled by one case.  Between `take` and `send`, a
`stop_connection` holds the sender and no lock; another call that looks at the entry then
finds it empty and **returns without the connection having been signalled**
(`stop_returns_before_signal`).  The connection is signalled nevertheless, by the call that
holds the sender, or is dropped before.
-/

namespace RabbitDigger.ConnectionManager

namespace Stop

open Transition Tally

variable {Uuid : Type} [DecidableEq Uuid] {s s' : State Uuid} {uuid : Uuid}

/-! ## Steps of a call -/

section Calling

variable {i : ℕ} {call : Call Uuid} {place : Place Uuid} {sender : Uuid}

namespace Place

/-- What a call has counted: what it has returned, or will have to return so far. -/
def stopped : Place Uuid → ℕ
  | .answered _ ok => if ok then 1 else 0
  | .next _ stopped | .body _ stopped _ _ | .counted stopped => stopped
  | _ => 0

/-- The sender in the hands of a call comes from the entry it has looked at. -/
def Own : Place Uuid → Prop
  | .send uuid sender | .body _ _ uuid sender => sender = uuid
  | _ => True

/-- The call may still signal the connection. -/
def Ahead (uuid : Uuid) : Place Uuid → Prop
  | .get target => uuid = target
  | .send _ sender => uuid = sender
  | .next visited _ => uuid ∉ visited
  | .body visited _ _ sender => uuid ∉ visited ∨ uuid = sender
  | _ => False

/-- A call looks at an entry in one of two places. -/
theorem eq_of_looksAt (h : place.looksAt uuid) :
    place = .get uuid ∨ ∃ visited stopped, place = .next visited stopped ∧ uuid ∉ visited := by
  cases place with
  | get target => exact .inl (by rw [of_decide_eq_true h])
  | next visited stopped => exact .inr ⟨visited, stopped, rfl, of_decide_eq_true h⟩
  | _ => cases h

omit [DecidableEq Uuid] in
/-- A call holds a sender in one of two places. -/
theorem eq_of_holds (h : place.holds = some sender) :
    (∃ uuid, place = .send uuid sender) ∨
      ∃ visited stopped uuid, place = .body visited stopped uuid sender := by
  cases place with
  | send uuid sender' =>
      cases h
      exact .inl ⟨uuid, rfl⟩
  | body visited stopped uuid sender' =>
      cases h
      exact .inr ⟨visited, stopped, uuid, rfl⟩
  | _ => cases h

/-- A call with empty hands holds no sender. -/
theorem weights_of_empty_hands (h : place.holds = none) (v : Uuid) :
    place.sending v = 0 ∧ place.blocking v = 0 := by
  cases place with
  | send | body => cases h
  | _ => exact ⟨rfl, rfl⟩

/-- A call holds one sender. -/
theorem weights_of_holds (h : place.holds = some sender) :
    place.sending sender + place.blocking sender = 1 ∧
      ∀ v ≠ sender, place.sending v = 0 ∧ place.blocking v = 0 := by
  rcases eq_of_holds h with ⟨uuid, rfl⟩ | ⟨visited, stopped, uuid, rfl⟩
  · refine ⟨by simp [sending, blocking], ?_⟩
    intro v hv
    exact ⟨if_neg (Ne.symm hv), rfl⟩
  · refine ⟨by simp [sending, blocking], ?_⟩
    intro v hv
    exact ⟨rfl, if_neg (Ne.symm hv)⟩

/-- A call that looks at an entry has empty hands. -/
theorem holds_of_looksAt (h : place.looksAt uuid) : place.holds = none := by
  rcases eq_of_looksAt h with rfl | ⟨_, _, rfl, _⟩ <;> rfl

theorem holds_empty (h : place.looksAt uuid) : (place.empty uuid).holds = none := by
  rcases eq_of_looksAt h with rfl | ⟨_, _, rfl, _⟩ <;> rfl

theorem holds_take (h : place.looksAt uuid) (sender : Uuid) :
    (place.take uuid sender).holds = some sender := by
  rcases eq_of_looksAt h with rfl | ⟨_, _, rfl, _⟩ <;> rfl

omit [DecidableEq Uuid] in
theorem holds_sent (h : place.holds = some sender) (ok : Bool) :
    (place.sent ok).holds = none := by
  rcases eq_of_holds h with ⟨uuid, rfl⟩ | ⟨visited, stopped, uuid, rfl⟩ <;> rfl

/-- Finding no sender, the call leaves one connection behind. -/
theorem empty_spec (h : place.looksAt uuid) :
    (place.empty uuid).stopped = place.stopped ∧
      (∀ v, place.empty uuid ≠ .answered v true) ∧ (place.empty uuid).Own ∧
      ∀ v ≠ uuid, place.Ahead v → (place.empty uuid).Ahead v := by
  rcases eq_of_looksAt h with rfl | ⟨visited, stopped, rfl, _⟩
  · refine ⟨rfl, nofun, trivial, ?_⟩
    intro v hv hahead
    exact absurd hahead hv
  · refine ⟨rfl, nofun, trivial, ?_⟩
    intro v hv hahead hvisited
    exact (Finset.mem_insert.mp hvisited).elim hv hahead

/-- Taking a sender, the call leaves no connection behind. -/
theorem take_spec (h : place.looksAt uuid) :
    (place.take uuid uuid).stopped = place.stopped ∧
      (∀ v, place.take uuid uuid ≠ .answered v true) ∧ (place.take uuid uuid).Own ∧
      ∀ v, place.Ahead v → (place.take uuid uuid).Ahead v := by
  rcases eq_of_looksAt h with rfl | ⟨visited, stopped, rfl, _⟩
  · exact ⟨rfl, nofun, rfl, fun _ hahead => hahead⟩
  · refine ⟨rfl, nofun, rfl, ?_⟩
    intro v hahead
    by_cases hv : v = uuid
    · exact .inr hv
    · exact .inl fun hvisited => (Finset.mem_insert.mp hvisited).elim hv hahead

omit [DecidableEq Uuid] in
/-- Sending, the call leaves one connection behind, and counts it if it was alive. -/
theorem sent_spec (h : place.holds = some sender) (hown : place.Own) (ok : Bool) :
    (place.sent ok).stopped = place.stopped + (if ok then 1 else 0) ∧
      (∀ v, place.sent ok = .answered v true → v = sender ∧ ok = true) ∧
      (place.sent ok).Own ∧ ∀ v ≠ sender, place.Ahead v → (place.sent ok).Ahead v := by
  rcases eq_of_holds h with ⟨uuid, rfl⟩ | ⟨visited, stopped, uuid, rfl⟩
  · refine ⟨(Nat.zero_add _).symm, ?_, trivial, ?_⟩
    · intro v hanswered
      injection hanswered with huuid hok
      exact ⟨huuid.symm.trans hown.symm, hok⟩
    · intro v hv hahead
      exact absurd hahead hv
  · refine ⟨?_, nofun, trivial, ?_⟩
    · cases ok <;> rfl
    · intro v hv hahead
      exact hahead.resolve_right hv

omit [DecidableEq Uuid] in
/-- Nothing is ahead of a call that has returned. -/
theorem not_ahead_of_returned (h : place.returned) (uuid : Uuid) : ¬ place.Ahead uuid := by
  cases place with
  | answered | counted => exact id
  | _ => cases h

/-- Without an entry the call ends as it does without a sender. -/
theorem empty_of_missing {place' : Place Uuid} (h : place.missing uuid = some place') :
    place' = place.empty uuid := by
  cases place with
  | get target =>
      cases h
      rfl
  | _ => cases h

end Place

/-- **A step of a stop call**: it finds no sender in an entry, takes the one that is there,
sends on it, or comes to the end of the table. -/
inductive Moved (s : State Uuid) (i : ℕ) (call : Call Uuid) : State Uuid → Prop where
  | empty {uuid : Uuid} : call.place.looksAt uuid →
      (s.view uuid).entry = none ∨ (s.view uuid).entry = some none ∧ s.locked uuid = false →
      Moved s i call (s.put i call (call.place.empty uuid))
  | take {uuid sender : Uuid} {info : ConnectionInfo Uuid} : call.place.looksAt uuid →
      s.world.manager.connections uuid = some info → info.stopSender = some sender →
      Moved s i call (s.takeFrom i call uuid info sender)
  | send {sender : Uuid} : call.place.holds = some sender →
      Moved s i call (s.sendOn i call sender)
  | finish {visited : Finset Uuid} {stopped : ℕ} : call.place = .next visited stopped →
      (∀ uuid ∈ call.table, uuid ∈ visited ∨ (s.view uuid).entry = none) →
      Moved s i call (s.put i call (.counted stopped))

theorem look_cases (hstep : s.look i uuid = some s') :
    ∃ call, s.calls[i]? = some call ∧ Moved s i call s' := by
  unfold State.look at hstep
  rw [Option.bind_eq_bind, Option.bind_eq_some_iff] at hstep
  obtain ⟨call, hcall, hstep⟩ := hstep
  refine ⟨call, hcall, ?_⟩
  split at hstep
  · rename_i hlooks
    split at hstep
    · rename_i hnone
      obtain ⟨place, hplace, rfl⟩ := Option.map_eq_some_iff.mp hstep
      rw [Place.empty_of_missing hplace]
      exact .empty hlooks (.inl (by simp [State.view, hnone]))
    · rename_i info hinfo
      split at hstep
      · cases hstep
      rename_i hfree
      split at hstep
      · rename_i hsender
        cases hstep
        exact .empty hlooks (.inr ⟨by simp [State.view, hinfo, hsender], by simpa using hfree⟩)
      · rename_i sender hsender
        cases hstep
        exact .take hlooks hinfo hsender
  · cases hstep

theorem send_cases (hstep : s.send i = some s') :
    ∃ call, s.calls[i]? = some call ∧ Moved s i call s' := by
  unfold State.send at hstep
  rw [Option.bind_eq_bind, Option.bind_eq_some_iff] at hstep
  obtain ⟨call, hcall, hstep⟩ := hstep
  rw [Option.bind_eq_bind, Option.bind_eq_some_iff] at hstep
  obtain ⟨sender, hsender, hstep⟩ := hstep
  cases hstep
  exact ⟨call, hcall, .send hsender⟩

theorem finish_cases (hstep : s.finish i = some s') :
    ∃ call, s.calls[i]? = some call ∧ Moved s i call s' := by
  unfold State.finish at hstep
  rw [Option.bind_eq_bind, Option.bind_eq_some_iff] at hstep
  obtain ⟨call, hcall, hstep⟩ := hstep
  refine ⟨call, hcall, ?_⟩
  split at hstep
  · rename_i visited stopped hplace
    split at hstep
    · rename_i hdone
      cases hstep
      refine .finish hplace ?_
      intro uuid huuid
      refine (hdone uuid huuid).imp_right ?_
      intro hnone
      simpa [State.view] using hnone
    · cases hstep
  · cases hstep

omit [DecidableEq Uuid] in
/-- What becomes of a sum over the calls when one of them moves. -/
theorem tally_put (f : Place Uuid → ℕ) (hcall : s.calls[i]? = some call)
    (place : Place Uuid) :
    tally (fun call => f call.place) (s.put i call place).calls + f call.place =
      tally (fun call => f call.place) s.calls + f place :=
  tally_set (fun call => f call.place) hcall { call with place }

omit [DecidableEq Uuid] in
/-- The calls after one of them has moved. -/
theorem getElem?_put {j : ℕ} {call' : Call Uuid}
    (h : (s.put i call place).calls[j]? = some call') :
    i = j ∧ call' = { call with place } ∨ s.calls[j]? = some call' := by
  rw [State.put, List.getElem?_set] at h
  split at h
  · rename_i heq
    split at h
    · cases h
      exact .inl ⟨heq, rfl⟩
    · cases h
  · exact .inr h

/-- The calls after one of them has begun. -/
theorem getElem?_call {target : Target Uuid} {j : ℕ} {call' : Call Uuid}
    (h : (s.call target).calls[j]? = some call') :
    s.calls[j]? = some call' ∨ call'.place = target.start ∧
      (∀ uuid ∈ s.world.created, (s.view uuid).entry.isSome → uuid ∈ call'.table) ∧
      ∀ uuid ∈ call'.ready, target.covers uuid ∧ s.Ready uuid := by
  rw [State.call, List.getElem?_append] at h
  split at h
  · exact .inl h
  rw [List.getElem?_singleton] at h
  split at h
  · cases h
    refine .inr ⟨rfl, ?_, ?_⟩
    · intro uuid hmem hentry
      exact Finset.mem_filter.mpr ⟨hmem, by simpa [State.view] using hentry⟩
    · intro uuid huuid
      exact (Finset.mem_filter.mp huuid).2
  · cases h

/-- How many calls hold a sender after one of them has moved. -/
theorem weights_put (hcall : s.calls[i]? = some call)
    (hcalls : s'.calls = (s.put i call place).calls) (v : Uuid) :
    (s'.view v).sending + call.place.sending v = (s.view v).sending + place.sending v ∧
      (s'.view v).blocking + call.place.blocking v =
        (s.view v).blocking + place.blocking v := by
  simp only [State.view, hcalls]
  exact ⟨tally_put (Place.sending v) hcall place, tally_put (Place.blocking v) hcall place⟩

/-- A call that has empty hands before and after it moves concerns no connection. -/
theorem view_put (hcall : s.calls[i]? = some call) (hbefore : call.place.holds = none)
    (hafter : place.holds = none) (v : Uuid) : (s.put i call place).view v = s.view v := by
  obtain ⟨hsending, hblocking⟩ := weights_put hcall (rfl : (s.put i call place).calls = _) v
  have hbefore := Place.weights_of_empty_hands hbefore v
  have hafter := Place.weights_of_empty_hands hafter v
  apply View.ext
  · rfl
  · rfl
  · rfl
  · rfl
  · omega
  · omega
  · rfl

/-- Taking a sender concerns its connection. -/
theorem Owned.take (h : Owned s) (hcall : s.calls[i]? = some call)
    (hlooks : call.place.looksAt uuid) {info : ConnectionInfo Uuid}
    (hinfo : s.world.manager.connections uuid = some info)
    (hsender : info.stopSender = some sender) :
    sender = uuid ∧ Evolves s (s.takeFrom i call uuid info sender) := by
  have hentry : (s.view uuid).entry = some (some sender) := by
    simp [State.view, hinfo, hsender]
  have hmem : uuid ∈ s.world.created := by
    apply h.created_of_ne View.entry
    rw [hentry]
    exact Option.some_ne_none _
  obtain ⟨rfl, hnone, hnone', hstopper⟩ := (h.stopper uuid hmem).take hentry
  refine ⟨rfl, ?_⟩
  -- before, nobody holds the sender, and then one call does
  have hput := weights_put hcall (rfl : (s.takeFrom i call sender info sender).calls = _)
  have hbefore := Place.weights_of_empty_hands (Place.holds_of_looksAt hlooks)
  obtain ⟨hone, hother⟩ := Place.weights_of_holds (Place.holds_take hlooks sender)
  refine h.change sender hmem (fun _ _ => Iff.rfl) ?_ ?_ ?_ ?_
  · intro v hv
    obtain ⟨hsending, hblocking⟩ := hput v
    have hbefore := hbefore v
    have hother := hother v hv
    apply View.ext
    · rfl
    · show (Function.update s.world.manager.connections sender _ v).map _ = _
      rw [Function.update_of_ne hv]
      rfl
    · rfl
    · rfl
    · omega
    · omega
    · rfl
  · obtain ⟨hsending, hblocking⟩ := hput sender
    have hbefore := hbefore sender
    have hview : (s.takeFrom i call sender info sender).view sender = { s.view sender with
        entry := some none
        sending := ((s.takeFrom i call sender info sender).view sender).sending
        blocking := ((s.takeFrom i call sender info sender).view sender).blocking } := by
      apply View.ext
      · rfl
      · show (Function.update s.world.manager.connections sender _ sender).map _ = some none
        rw [Function.update_self]
        rfl
      all_goals rfl
    rw [hview]
    exact hstopper _ _ (by omega)
  · intro _ hann
    exact hann
  · intro _ hsettled
    rcases hsettled with hdead | hsignalled | hsending
    · exact .inl hdead
    · exact .inr (.inl hsignalled)
    · omega

/-- Sending does not concern other connections. -/
theorem view_sendOn_of_ne (hcall : s.calls[i]? = some call)
    (hholds : call.place.holds = some sender) {v : Uuid} (hv : v ≠ sender) :
    (s.sendOn i call sender).view v = s.view v := by
  obtain ⟨hsending, hblocking⟩ := weights_put hcall (rfl : (s.sendOn i call sender).calls = _) v
  have hother := (Place.weights_of_holds hholds).2 v hv
  have hafter := Place.weights_of_empty_hands
    (Place.holds_sent hholds (s.world.live sender).isSome) v
  apply View.ext
  · rfl
  · rfl
  · rfl
  · exact Function.update_of_ne hv ..
  · omega
  · omega
  · show ((if (s.world.live sender).isSome then s.signals ++ [(i, sender)]
      else s.signals).map Prod.snd).count v = (s.signals.map Prod.snd).count v
    split
    · simp [Ne.symm hv]
    · rfl

/-- Sending concerns the connection that is signalled. -/
theorem Owned.send (h : Owned s) (hcall : s.calls[i]? = some call)
    (hholds : call.place.holds = some sender) :
    Evolves s (s.sendOn i call sender) ∧ ((s.sendOn i call sender).view sender).Settled := by
  obtain ⟨hsending, hblocking⟩ :=
    weights_put hcall (rfl : (s.sendOn i call sender).calls = _) sender
  have hone := (Place.weights_of_holds hholds).1
  have hafter := Place.weights_of_empty_hands
    (Place.holds_sent hholds (s.world.live sender).isSome) sender
  have hheld : 0 < (s.view sender).sending + (s.view sender).blocking := by omega
  have hmem : sender ∈ s.world.created := by
    apply h.created_of_ne fun view => view.sending + view.blocking
    exact Nat.ne_of_gt hheld
  obtain ⟨hheld, hfirst, hstopper⟩ := (h.stopper sender hmem).sent hheld
  have hview : (s.sendOn i call sender).view sender = { s.view sender with
      channel := if (s.view sender).live then .sent else .closed
      sending := 0
      blocking := 0
      signalled := if (s.view sender).live then 1 else 0 } := by
    apply View.ext
    · rfl
    · rfl
    · rfl
    · exact Function.update_self ..
    · show ((s.sendOn i call sender).view sender).sending = 0
      omega
    · show ((s.sendOn i call sender).view sender).blocking = 0
      omega
    · have hfirst : (s.signals.map Prod.snd).count sender = 0 := hfirst
      show ((if (s.world.live sender).isSome then s.signals ++ [(i, sender)]
        else s.signals).map Prod.snd).count sender = if (s.world.live sender).isSome then 1 else 0
      split
      · simp [hfirst]
      · exact hfirst
  have hsettled : ((s.sendOn i call sender).view sender).Settled := by
    rw [hview]
    cases hlive : (s.view sender).live with
    | true => exact .inr (.inl (by simp))
    | false => exact .inl hlive
  refine ⟨h.change sender hmem (fun _ _ => Iff.rfl) ?_ ?_ ?_ ?_, hsettled⟩
  · intro v hv
    exact view_sendOn_of_ne hcall hholds hv
  · rw [hview]
    exact hstopper
  · intro _ hann
    exact hann
  · intro _ _
    exact hsettled

/-! ## The books -/

/-- What is known of a call: a connection that was ready when it was called is still ahead
of it, or settled. -/
structure Call.Sound (s : State Uuid) (call : Call Uuid) : Prop where
  own : call.place.Own
  ready : ∀ uuid ∈ call.ready, uuid ∈ s.world.created ∧ uuid ∈ call.table ∧
    (s.view uuid).Announced ∧ (call.place.Ahead uuid ∨ (s.view uuid).Settled)

/-- What is known of all calls stays known. -/
theorem Call.Sound.evolves (h : call.Sound s) (hevolves : Evolves s s') : call.Sound s' := by
  refine ⟨h.own, ?_⟩
  intro uuid huuid
  obtain ⟨hmem, htable, hann, hwhere⟩ := h.ready uuid huuid
  exact ⟨hevolves.created hmem, htable, hevolves.announced uuid hmem hann,
    hwhere.imp_right (hevolves.settled uuid hmem)⟩

/-- **The invariant.** -/
structure Inv (s : State Uuid) : Prop where
  owned : Owned s
  counted : tally (fun call => call.place.stopped) s.calls = s.signals.length
  answered : ∀ (i : ℕ) (call : Call Uuid) (uuid : Uuid), s.calls[i]? = some call →
    call.place = .answered uuid true → (i, uuid) ∈ s.signals
  reported : ∀ uuid, (uuid, PollResult.aborted) ∈ s.reports → ∃ i, (i, uuid) ∈ s.signals
  sound : ∀ (i : ℕ) (call : Call Uuid), s.calls[i]? = some call → call.Sound s

/-- The books show who has signalled a connection. -/
theorem exists_signal (h : 0 < (s.view uuid).signalled) : ∃ i, (i, uuid) ∈ s.signals := by
  have hmem : uuid ∈ s.signals.map Prod.snd := List.count_pos_iff.mp h
  obtain ⟨⟨i, v⟩, hsignal, rfl⟩ := List.mem_map.mp hmem
  exact ⟨i, hsignal⟩

namespace Inv

theorem initial : Inv (State.initial : State Uuid) where
  owned := ⟨fun _ _ => rfl, fun _ h => by cases h⟩
  counted := rfl
  answered := by
    intro i call uuid h
    cases h
  reported := by
    intro uuid h
    cases h
  sound := by
    intro i call h
    cases h

/-- **A poll reports an abort only of a connection that has been signalled.** -/
theorem signalled_of_report (h : Inv s) {action : Action Uuid}
    (hreport : (uuid, PollResult.aborted) ∈ s.world.reports action) :
    ∃ i, (i, uuid) ∈ s.signals := by
  cases action with
  | poll polled heartbeat recv send time =>
      rw [World.reports, Option.mem_toList, Option.map_eq_some_iff] at hreport
      obtain ⟨conn, hlive, hreport⟩ := hreport
      injection hreport with hpolled hresult
      subst hpolled
      have hmem : polled ∈ s.world.created := by
        apply h.owned.created_of_ne View.live
        rw [show (s.view polled).live = true by simp [State.view, hlive]]
        intro hfalse
        cases hfalse
      refine exists_signal ((h.owned.stopper polled hmem).signalled_of_live
        (by simp [State.view, hlive]) ?_)
      intro hwaiting
      rw [show s.world.channels polled = .waiting from hwaiting] at hresult
      unfold Connection.pollStopped at hresult
      split at hresult <;> cases hresult
  | _ => cases hreport

/-- Connections and events. -/
theorem act (h : Inv s) {action : Action Uuid} (hstep : s.act action = some s') : Inv s' := by
  have hevolves := h.owned.act hstep
  obtain ⟨w, rfl⟩ : ∃ w, s' =
      { s with world := w, reports := s.reports ++ s.world.reports action } := by
    cases action with
    | stopConnection uuid => cases hstep
    | _ =>
        obtain ⟨w, _, rfl⟩ := Option.map_eq_some_iff.mp hstep
        exact ⟨w, rfl⟩
  refine ⟨hevolves.owned, h.counted, h.answered, ?_, ?_⟩
  · intro uuid hreport
    rcases List.mem_append.mp hreport with hold | hnew
    · exact h.reported uuid hold
    · exact h.signalled_of_report hnew
  · intro i call hcall
    exact (h.sound i call hcall).evolves hevolves

/-- A call begins with empty hands. -/
theorem view_call (s : State Uuid) (target : Target Uuid) (v : Uuid) :
    (s.call target).view v = s.view v := by
  have hstart : target.start.holds = none := by
    cases target <;> rfl
  obtain ⟨hsending, hblocking⟩ := Place.weights_of_empty_hands hstart v
  simp [State.view, State.call, hsending, hblocking]

/-- A call begins. -/
theorem begin (h : Inv s) (target : Target Uuid) : Inv (s.call target) := by
  have hevolves : Evolves s (s.call target) := h.owned.same rfl (view_call s target)
  have hstopped : target.start.stopped = 0 := by
    cases target <;> rfl
  refine ⟨hevolves.owned, ?_, ?_, h.reported, ?_⟩
  · simp [State.call, hstopped, h.counted]
  · intro i call uuid hcall hplace
    rcases getElem?_call hcall with hold | ⟨hstart, _⟩
    · exact h.answered i call uuid hold hplace
    · rw [hstart] at hplace
      cases target <;> cases hplace
  · intro i call hcall
    rcases getElem?_call hcall with hold | ⟨hstart, htable, hready⟩
    · exact (h.sound i call hold).evolves hevolves
    refine ⟨by rw [hstart]; cases target <;> trivial, ?_⟩
    intro uuid huuid
    obtain ⟨hcovers, hmem, hann, hlive, _⟩ := hready uuid huuid
    refine ⟨hmem, ?_, ?_, .inl ?_⟩
    · exact htable uuid hmem ((h.owned.stopper uuid hmem).entry_of_live hann hlive)
    · rw [view_call]
      exact hann
    · rw [hstart]
      cases target with
      | one target => exact (of_decide_eq_true hcovers : uuid = target)
      | all => exact Finset.notMem_empty uuid

/-- **A call moves.**  What is to be shown is what concerns this call. -/
theorem put (h : Inv s) (hcall : s.calls[i]? = some call) (hevolves : Evolves s s')
    (hcalls : s'.calls = (s.put i call place).calls) (hreports : s'.reports = s.reports)
    (hsignals : ∀ signal ∈ s.signals, signal ∈ s'.signals)
    (hcounted : place.stopped + s.signals.length = call.place.stopped + s'.signals.length)
    (hanswered : ∀ uuid, place = .answered uuid true → (i, uuid) ∈ s'.signals)
    (hown : place.Own)
    (hready : ∀ uuid ∈ call.ready, call.place.Ahead uuid →
      place.Ahead uuid ∨ (s'.view uuid).Settled) : Inv s' := by
  refine ⟨hevolves.owned, ?_, ?_, ?_, ?_⟩
  · have := tally_put Place.stopped hcall place
    have := h.counted
    rw [hcalls]
    omega
  · intro j call' uuid hcall' hplace
    rw [hcalls] at hcall'
    rcases getElem?_put hcall' with ⟨rfl, rfl⟩ | hold
    · exact hanswered uuid hplace
    · exact hsignals _ (h.answered j call' uuid hold hplace)
  · intro uuid hreport
    rw [hreports] at hreport
    obtain ⟨j, hsignal⟩ := h.reported uuid hreport
    exact ⟨j, hsignals _ hsignal⟩
  · intro j call' hcall'
    rw [hcalls] at hcall'
    rcases getElem?_put hcall' with ⟨rfl, rfl⟩ | hold
    · refine ⟨hown, ?_⟩
      intro uuid huuid
      obtain ⟨hmem, htable, hann, hwhere⟩ := (h.sound i call hcall).ready uuid huuid
      refine ⟨hevolves.created hmem, htable, hevolves.announced uuid hmem hann, ?_⟩
      rcases hwhere with hahead | hsettled
      · exact hready uuid huuid hahead
      · exact .inr (hevolves.settled uuid hmem hsettled)
    · exact (h.sound j call' hold).evolves hevolves

/-- While an entry is not locked, no `stop_connections` holds its sender. -/
theorem blocking_eq_zero (h : Inv s) (hfree : s.locked uuid = false) :
    (s.view uuid).blocking = 0 := by
  by_contra hne
  obtain ⟨j, call, hcall, hpos⟩ := exists_of_tally_pos (Nat.pos_of_ne_zero hne)
  have hown := (h.sound j call hcall).own
  have hlocks : call.place.locks uuid = true := by
    cases hplace : call.place with
    | body visited stopped locked sender =>
        rw [hplace] at hpos hown
        have hsender : sender = uuid := by
          by_contra hother
          rw [Place.blocking, if_neg hother] at hpos
          cases hpos
        rw [Place.locks]
        exact decide_eq_true (hown.symm.trans hsender)
    | _ =>
        rw [hplace] at hpos
        cases hpos
  have : s.locked uuid = true :=
    List.any_eq_true.mpr ⟨call, List.mem_of_getElem? hcall, hlocks⟩
  rw [hfree] at this
  cases this

/-- A step of a call. -/
theorem moved (h : Inv s) (hcall : s.calls[i]? = some call) (hmoved : Moved s i call s') :
    Inv s' := by
  have hready := (h.sound i call hcall).ready
  cases hmoved with
  | @empty uuid hlooks hentry =>
      have hevolves : Evolves s (s.put i call (call.place.empty uuid)) :=
        h.owned.same rfl
          (view_put hcall (Place.holds_of_looksAt hlooks) (Place.holds_empty hlooks))
      obtain ⟨hstopped, hanswered, hown, hahead⟩ := Place.empty_spec hlooks
      refine h.put hcall hevolves rfl rfl (fun _ hsignal => hsignal) (by rw [hstopped]; rfl)
        (fun v hplace => absurd hplace (hanswered v)) hown ?_
      intro v hv hold
      by_cases heq : v = uuid
      · -- what the call leaves behind is settled
        subst heq
        obtain ⟨hmem, _, hann, _⟩ := hready v hv
        refine .inr (hevolves.settled v hmem ?_)
        rcases hentry with hnone | ⟨hempty, hfree⟩
        · exact (h.owned.stopper v hmem).settled_of_missing hann hnone
        · exact (h.owned.stopper v hmem).settled_of_empty hann hempty
            (h.blocking_eq_zero hfree)
      · exact .inl (hahead v heq hold)
  | @take uuid sender info hlooks hinfo hsender =>
      obtain ⟨rfl, hevolves⟩ := h.owned.take hcall hlooks hinfo hsender
      obtain ⟨hstopped, hanswered, hown, hahead⟩ := Place.take_spec hlooks
      exact h.put hcall hevolves rfl rfl (fun _ hsignal => hsignal) (by rw [hstopped]; rfl)
        (fun v hplace => absurd hplace (hanswered v)) hown fun v _ hold => .inl (hahead v hold)
  | @send sender hholds =>
      obtain ⟨hevolves, hsettled⟩ := h.owned.send hcall hholds
      obtain ⟨hstopped, hanswered, hown, hahead⟩ := Place.sent_spec hholds
        (h.sound i call hcall).own (s.world.live sender).isSome
      have hsignals : (s.sendOn i call sender).signals = s.signals ++
          if (s.world.live sender).isSome then [(i, sender)] else [] := by
        show (if (s.world.live sender).isSome then s.signals ++ [(i, sender)]
          else s.signals) = _
        split
        · rfl
        · rw [List.append_nil]
      refine h.put hcall hevolves rfl rfl ?_ ?_ ?_ hown ?_
      · intro signal hsignal
        rw [hsignals]
        exact List.mem_append_left _ hsignal
      · rw [hsignals, hstopped, List.length_append]
        split
        · simp only [List.length_singleton]
          omega
        · simp only [List.length_nil]
          omega
      · intro v hplace
        obtain ⟨rfl, halive⟩ := hanswered v hplace
        rw [hsignals, if_pos halive]
        simp
      · intro v _ hold
        by_cases heq : v = sender
        · rw [heq]
          exact .inr hsettled
        · exact .inl (hahead v heq hold)
  | @finish visited stopped hplace hdone =>
      have hevolves : Evolves s (s.put i call (.counted stopped)) :=
        h.owned.same rfl (view_put hcall (by rw [hplace]; rfl) rfl)
      refine h.put hcall hevolves rfl rfl (fun _ hsignal => hsignal) (by rw [hplace]; rfl)
        nofun trivial ?_
      intro v hv hahead
      rw [hplace] at hahead
      obtain ⟨hmem, htable, hann, _⟩ := hready v hv
      refine .inr (hevolves.settled v hmem
        ((h.owned.stopper v hmem).settled_of_missing hann ?_))
      exact (hdone v htable).resolve_left hahead

/-- Every step keeps the invariant. -/
theorem step (h : Inv s) {input : Input Uuid} (hstep : s.step input = some s') : Inv s' := by
  cases input with
  | act action => exact h.act hstep
  | call target =>
      cases hstep
      exact h.begin target
  | look i uuid =>
      obtain ⟨call, hcall, hmoved⟩ := look_cases hstep
      exact h.moved hcall hmoved
  | send i =>
      obtain ⟨call, hcall, hmoved⟩ := send_cases hstep
      exact h.moved hcall hmoved
  | finish i =>
      obtain ⟨call, hcall, hmoved⟩ := finish_cases hstep
      exact h.moved hcall hmoved

end Inv

/-! ## Calls return -/

/-- A step of a stop call, and no other. -/
def Input.ofCall : Input Uuid → Bool
  | .look _ _ | .send _ | .finish _ => true
  | _ => false

/-- How many steps a call may still take. -/
def Call.left (call : Call Uuid) : ℕ :=
  match call.place with
  | .get _ => 2
  | .send _ _ => 1
  | .next visited _ => 2 * (call.table \ visited).card + 1
  | .body visited _ _ _ => 2 * (call.table \ visited).card + 2
  | .answered _ _ | .counted _ => 0

/-- Some step of a stop call is possible, and brings the calls nearer to their end. -/
def Advances (s : State Uuid) : Prop :=
  ∃ input s', input.ofCall = true ∧ s.step input = some s' ∧
    tally Call.left s'.calls < tally Call.left s.calls

/-- Moving a call nearer to its end. -/
theorem left_put (hcall : s.calls[i]? = some call)
    (hlt : ({ call with place } : Call Uuid).left < call.left) :
    tally Call.left (s.put i call place).calls < tally Call.left s.calls := by
  have : tally Call.left (s.put i call place).calls + call.left =
      tally Call.left s.calls + ({ call with place } : Call Uuid).left :=
    tally_set Call.left hcall _
  omega

/-- A call that holds a sender can send. -/
theorem advances_of_holds (hcall : s.calls[i]? = some call)
    (hholds : call.place.holds = some sender) : Advances s := by
  refine ⟨.send i, s.sendOn i call sender, rfl, ?_, left_put hcall ?_⟩
  · show s.send i = _
    rw [State.send, hcall]
    show (call.place.holds.bind fun sender => some (s.sendOn i call sender)) = _
    rw [hholds]
    rfl
  · rcases Place.eq_of_holds hholds with ⟨uuid, hplace⟩ | ⟨visited, stopped, uuid, hplace⟩
    · simp [Call.left, hplace, Place.sent]
    · simp [Call.left, hplace, Place.sent]

/-- A call that looks at an entry goes on, or the call that has locked the entry does. -/
theorem advances_of_looksAt (hcall : s.calls[i]? = some call)
    (hlooks : call.place.looksAt uuid)
    (htable : ∀ visited stopped, call.place = .next visited stopped →
      uuid ∈ call.table ∧ (s.world.manager.connections uuid).isSome) : Advances s := by
  -- an entry fewer is left to the loop
  have hcard : ∀ visited stopped, call.place = .next visited stopped → uuid ∉ visited →
      (call.table \ insert uuid visited).card < (call.table \ visited).card := by
    intro visited stopped hplace hnot
    apply Finset.card_lt_card
    refine ⟨Finset.sdiff_subset_sdiff subset_rfl (Finset.subset_insert _ _), ?_⟩
    intro hsub
    have := hsub (Finset.mem_sdiff.mpr ⟨(htable visited stopped hplace).1, hnot⟩)
    simp at this
  have hempty : ({ call with place := call.place.empty uuid } : Call Uuid).left < call.left := by
    rcases Place.eq_of_looksAt hlooks with hplace | ⟨visited, stopped, hplace, hnot⟩
    · simp [Call.left, hplace, Place.empty]
    · have := hcard visited stopped hplace hnot
      simp only [Call.left, hplace, Place.empty]
      omega
  cases hinfo : s.world.manager.connections uuid with
  | none =>
      rcases Place.eq_of_looksAt hlooks with hplace | ⟨visited, stopped, hplace, _⟩
      · refine ⟨.look i uuid, s.put i call (call.place.empty uuid), rfl, ?_,
          left_put hcall hempty⟩
        show s.look i uuid = _
        simp only [State.look, hcall, Option.bind_eq_bind, Option.bind_some, hlooks, if_true,
          hinfo]
        rw [hplace]
        rfl
      · have := (htable visited stopped hplace).2
        rw [hinfo] at this
        cases this
  | some info =>
      cases hlocked : s.locked uuid with
      | true =>
          obtain ⟨other, hother, hlocks⟩ := List.any_eq_true.mp hlocked
          obtain ⟨j, hj⟩ := List.getElem?_of_mem hother
          cases hplace : other.place with
          | body visited stopped locked sender =>
              exact advances_of_holds hj (congrArg Place.holds hplace)
          | _ =>
              rw [hplace] at hlocks
              cases hlocks
      | false =>
          cases hsender : info.stopSender with
          | none =>
              have hlook : s.look i uuid = some (s.put i call (call.place.empty uuid)) := by
                simp [State.look, hcall, hlooks, hinfo, hlocked, hsender]
              exact ⟨.look i uuid, _, rfl, hlook, left_put hcall hempty⟩
          | some sender =>
              have hlook : s.look i uuid = some (s.takeFrom i call uuid info sender) := by
                simp [State.look, hcall, hlooks, hinfo, hlocked, hsender]
              refine ⟨.look i uuid, _, rfl, hlook, left_put hcall ?_⟩
              rcases Place.eq_of_looksAt hlooks with hplace | ⟨visited, stopped, hplace, hnot⟩
              · simp [Call.left, hplace, Place.take]
              · have := hcard visited stopped hplace hnot
                simp only [Call.left, hplace, Place.take]
                omega

/-- **No call is stuck.** -/
theorem advances_of_running (hcall : s.calls[i]? = some call)
    (hrunning : call.place.returned = false) : Advances s := by
  cases hplace : call.place with
  | get uuid =>
      have hlooks : call.place.looksAt uuid := by
        rw [hplace]
        exact decide_eq_true rfl
      refine advances_of_looksAt hcall hlooks ?_
      intro visited stopped hnext
      rw [hplace] at hnext
      cases hnext
  | send uuid sender => exact advances_of_holds hcall (congrArg Place.holds hplace)
  | body visited stopped uuid sender =>
      exact advances_of_holds hcall (congrArg Place.holds hplace)
  | next visited stopped =>
      by_cases hdone : ∀ uuid ∈ call.table,
          uuid ∈ visited ∨ (s.world.manager.connections uuid).isNone
      · refine ⟨.finish i, s.put i call (.counted stopped), rfl, ?_, left_put hcall ?_⟩
        · show s.finish i = _
          simp only [State.finish, hcall, Option.bind_eq_bind, Option.bind_some, hplace]
          exact if_pos hdone
        · simp [Call.left, hplace]
      · push Not at hdone
        obtain ⟨uuid, htable, hnot, hentry⟩ := hdone
        have hlooks : call.place.looksAt uuid := by
          rw [hplace]
          exact decide_eq_true hnot
        refine advances_of_looksAt hcall hlooks ?_
        intro _ _ _
        refine ⟨htable, ?_⟩
        cases hinfo : s.world.manager.connections uuid with
        | none => exact absurd hinfo (by simpa using hentry)
        | some info => rfl
  | answered | counted =>
      rw [hplace] at hrunning
      cases hrunning

/-- **Every stop call can run to its end**, by steps of stop calls alone. -/
theorem calls_return (s : State Uuid) :
    ∃ (inputs : List (Input Uuid)) (s' : State Uuid), (∀ input ∈ inputs, input.ofCall = true) ∧
      inputs.foldlM State.step s = some s' ∧ ∀ call ∈ s'.calls, call.place.returned = true := by
  induction hn : tally Call.left s.calls using Nat.strong_induction_on generalizing s with
  | _ n ih =>
      by_cases hall : ∀ call ∈ s.calls, call.place.returned = true
      · exact ⟨[], s, by simp, rfl, hall⟩
      · push Not at hall
        obtain ⟨call, hmem, hrunning⟩ := hall
        obtain ⟨i, hcall⟩ := List.getElem?_of_mem hmem
        obtain ⟨input, s₁, hofCall, hstep, hlt⟩ :=
          advances_of_running hcall (by simpa using hrunning)
        obtain ⟨inputs, s₂, hinputs, hrun, hreturned⟩ := ih _ (hn ▸ hlt) s₁ rfl
        refine ⟨input :: inputs, s₂, ?_, ?_, hreturned⟩
        · intro input' hinput'
          rcases List.mem_cons.mp hinput' with rfl | hinput'
          · exact hofCall
          · exact hinputs input' hinput'
        · rw [List.foldlM_cons, hstep]
          exact hrun

/-! ## The result -/

omit [DecidableEq Uuid] in
/-- What a call has counted: the value that `stop_connections` has returned, one if
`stop_connection` has returned `true`, or what a loop that still runs has counted. -/
theorem Place.count_add_isTrue_add_running (place : Place Uuid) :
    place.count.getD 0 + (if place.isTrue then 1 else 0) + place.running = place.stopped := by
  cases place with
  | answered uuid ok => cases ok <;> rfl
  | next visited stopped | body visited stopped => exact Nat.zero_add stopped
  | _ => rfl

omit [DecidableEq Uuid] in
/-- What all calls have counted. -/
theorem sum_stopped (calls : List (Call Uuid)) :
    (calls.filterMap fun call => call.place.count).sum +
        calls.countP (fun call => call.place.isTrue) +
        tally (fun call => call.place.running) calls =
      tally (fun call => call.place.stopped) calls := by
  induction calls with
  | nil => rfl
  | cons call calls ih =>
      have hcount : ((call :: calls).filterMap fun call => call.place.count).sum =
          call.place.count.getD 0 + (calls.filterMap fun call => call.place.count).sum := by
        rw [List.filterMap_cons]
        cases call.place.count with
        | none => exact (Nat.zero_add _).symm
        | some stopped => exact List.sum_cons
      have hcall := call.place.count_add_isTrue_add_running
      rw [hcount, List.countP_cons, tally_cons, tally_cons]
      omega

namespace Inv

/-- A connection is signalled at most once. -/
theorem nodup (h : Inv s) : (s.signals.map Prod.snd).Nodup := by
  rw [List.nodup_iff_count_le_one]
  intro uuid
  show (s.view uuid).signalled ≤ 1
  by_cases hmem : uuid ∈ s.world.created
  · exact (h.owned.stopper uuid hmem).signalled_le_one
  · rw [h.owned.unknown uuid hmem]
    exact Nat.zero_le 1

/-- The books show exactly the connections whose receiver has been sent the value. -/
theorem channel_eq_sent_iff (h : Inv s) (uuid : Uuid) :
    s.world.channels uuid = .sent ↔ uuid ∈ s.signalled := by
  have hcount : uuid ∈ s.signalled ↔ 0 < (s.view uuid).signalled := by
    rw [State.signalled, List.mem_toFinset]
    exact List.count_pos_iff.symm
  rw [hcount]
  show (s.view uuid).channel = .sent ↔ _
  by_cases hmem : uuid ∈ s.world.created
  · exact (h.owned.stopper uuid hmem).channel_eq_sent_iff
  · rw [h.owned.unknown uuid hmem]
    simp [View.unknown]

/-- Nobody signals a connection after another has. -/
theorem signal_unique (h : Inv s) {j : ℕ} (hi : (i, uuid) ∈ s.signals)
    (hj : (j, uuid) ∈ s.signals) : i = j := by
  have := List.inj_on_of_nodup_map h.nodup hi hj rfl
  exact congrArg Prod.fst this

/-- **A call that has returned** has cared for all that was ready. -/
theorem settled_of_returned (h : Inv s) (hcall : s.calls[i]? = some call)
    (hreturned : call.place.returned) (hready : uuid ∈ call.ready) :
    (i, uuid) ∈ s.signals ∨ s.world.live uuid = none ∨
      ∃ j, j ≠ i ∧ ((j, uuid) ∈ s.signals ∨
        ∃ call', s.calls[j]? = some call' ∧ call'.place = .send uuid uuid) := by
  obtain ⟨_, _, _, hwhere⟩ := (h.sound i call hcall).ready uuid hready
  have hsettled : (s.view uuid).Settled := by
    rcases hwhere with hahead | hsettled
    · exact absurd hahead (Place.not_ahead_of_returned hreturned uuid)
    · exact hsettled
  rcases hsettled with hdead | hsignalled | hsending
  · exact .inr (.inl (by simpa [State.view] using hdead))
  · obtain ⟨j, hsignal⟩ := exists_signal hsignalled
    by_cases heq : j = i
    · exact .inl (heq ▸ hsignal)
    · exact .inr (.inr ⟨j, heq, .inl hsignal⟩)
  · obtain ⟨j, call', hcall', hpos⟩ := exists_of_tally_pos hsending
    have hplace : call'.place = .send uuid uuid := by
      have hown := (h.sound j call' hcall').own
      cases hplace : call'.place with
      | send target sender =>
          rw [hplace] at hpos hown
          have hsender : sender = uuid := by
            by_contra hother
            rw [Place.sending, if_neg hother] at hpos
            cases hpos
          rw [← show sender = target from hown, hsender]
      | _ =>
          rw [hplace] at hpos
          cases hpos
    refine .inr (.inr ⟨j, ?_, .inr ⟨call', hcall', hplace⟩⟩)
    rintro rfl
    rw [hcall] at hcall'
    cases hcall'
    rw [hplace] at hreturned
    cases hreturned

end Inv

end Calling

/-- The invariant holds whatever happens. -/
theorem inv_of_reachable (reach : (system Uuid).Reachable s) : Inv s :=
  System.Reachable.invariant (P := Inv) Inv.initial (fun _ _ _ h hstep => h.step hstep) reach

/-- **Stopping connections.**  In every state that any interleaving reaches:

* a poll has reported an abort only of a connection that some stop call has signalled;
* a connection has been sent the value exactly if the books show a call that did so, and
  they show at most one;
* `stop_connection` has returned `true` at most once for a uuid, and the values returned by
  `stop_connections` and the calls of `stop_connection` that returned `true`, with what
  running loops have counted, add up to the number of connections that were signalled;
* a call that has returned has signalled each connection it was to stop that was ready when
  it was called, unless the connection has been dropped or **another call has taken its
  sender**, and has signalled it or is about to;
* and every call that has begun can run to its end. -/
theorem stop_calls_sound {s : State Uuid} (reach : (system Uuid).Reachable s) :
    (∀ uuid, (uuid, PollResult.aborted) ∈ s.reports → ∃ i, (i, uuid) ∈ s.signals) ∧
      (∀ uuid, s.world.channels uuid = .sent ↔ uuid ∈ s.signalled) ∧
      (s.signals.map Prod.snd).Nodup ∧
      (∀ (i j : ℕ) (call call' : Call Uuid) (uuid : Uuid), s.calls[i]? = some call →
        s.calls[j]? = some call' → call.place = .answered uuid true →
        call'.place = .answered uuid true → i = j) ∧
      ((s.calls.filterMap fun call => call.place.count).sum +
          s.calls.countP (fun call => call.place.isTrue) +
          tally (fun call => call.place.running) s.calls = s.signalled.card) ∧
      (∀ (i : ℕ) (call : Call Uuid), s.calls[i]? = some call → call.place.returned →
        ∀ uuid ∈ call.ready, (i, uuid) ∈ s.signals ∨ s.world.live uuid = none ∨
          ∃ j, j ≠ i ∧ ((j, uuid) ∈ s.signals ∨
            ∃ call', s.calls[j]? = some call' ∧ call'.place = .send uuid uuid)) ∧
      ∃ (inputs : List (Input Uuid)) (s' : State Uuid),
        (∀ input ∈ inputs, input.ofCall = true) ∧ inputs.foldlM State.step s = some s' ∧
          ∀ call ∈ s'.calls, call.place.returned = true := by
  have h := inv_of_reachable reach
  refine ⟨h.reported, h.channel_eq_sent_iff, h.nodup, ?_, ?_, ?_, calls_return s⟩
  · intro i j call call' uuid hi hj hplace hplace'
    exact h.signal_unique (h.answered i call uuid hi hplace) (h.answered j call' uuid hj hplace')
  · rw [sum_stopped, h.counted, State.signalled, List.toFinset_card_of_nodup h.nodup,
      List.length_map]
  · intro i call hcall hreturned uuid hready
    exact h.settled_of_returned hcall hreturned hready

/-- Two connections whose creation has been handled. -/
def twoReady : List (Input ℕ) :=
  let addr : Address := .socketAddr (.v4 0 80)
  [.act (.newConnection 0 .tcp addr .null 0), .act (.newConnection 1 .udp addr .null 0)] ++
    List.replicate 6 (.act .inputEvent)

/-- One of them is stopped by its uuid, then both are asked to stop, and polled. -/
def stopBoth : List (Input ℕ) :=
  twoReady ++ [.call (.one 0), .look 0 0, .send 0, .call .all, .look 1 1, .send 1, .look 1 0,
    .finish 1, .act (.poll 0 false [] [] 1), .act (.poll 1 false [] [] 1)]

theorem stop_calls_sound_stopBoth :
    ∃ s : State ℕ, (system ℕ).run stopBoth = some s ∧
      s.reports = [(0, .aborted), (1, .aborted)] ∧
      s.calls.map Call.place = [.answered 0 true, .counted 1] ∧
      (∃ i, (i, 0) ∈ s.signals) ∧ (∃ i, (i, 1) ∈ s.signals) ∧ s.signalled.card = 2 := by
  obtain ⟨s, hrun, hreports, hplaces, hsum⟩ :
      ∃ s, (system ℕ).run stopBoth = some s ∧ s.reports = [(0, .aborted), (1, .aborted)] ∧
        s.calls.map Call.place = [.answered 0 true, .counted 1] ∧
        (s.calls.filterMap fun call => call.place.count).sum +
          s.calls.countP (fun call => call.place.isTrue) +
          tally (fun call => call.place.running) s.calls = 2 :=
    ⟨_, rfl, rfl, by decide +kernel, rfl⟩
  obtain ⟨haborted, _, _, _, hcounted, _⟩ :=
    stop_calls_sound (System.reachable_of_run _ stopBoth hrun)
  exact ⟨s, hrun, hreports, hplaces, haborted 0 (by simp [hreports]),
    haborted 1 (by simp [hreports]), hcounted.symm.trans hsum⟩

/-- A `stop_connection` has taken the sender of a connection when another is called. -/
def overlapping : List (Input ℕ) :=
  twoReady ++ [.call (.one 0), .look 0 0, .call (.one 0), .look 1 0,
    .act (.poll 0 false [] [] 1)]

/-- **A stop call may return before the connection is signalled.**  The second call finds no
sender in the entry and returns `false`, although the connection was ready when it was
called: it is alive, nobody has signalled it, and its next poll reports nothing. -/
theorem stop_returns_before_signal :
    ∃ (s : State ℕ) (call : Call ℕ), (system ℕ).run overlapping = some s ∧
      s.calls[1]? = some call ∧ call.place = .answered 0 false ∧ 0 ∈ call.ready ∧
      (s.world.live 0).isSome ∧ s.signals = [] ∧ s.reports = [(0, .ok)] := by
  refine ⟨_, _, rfl, rfl, rfl, ?_, rfl, rfl, rfl⟩
  decide +kernel

end Stop

end RabbitDigger.ConnectionManager
