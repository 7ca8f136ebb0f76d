import RabbitDigger.Foundation.Polling

/-!
# Sessions: calls that are repeated until they are ready

A caller of a polled component repeats a call that answered "not yet" with the
same arguments, and only then issues the next one.  `Session` records what such
a caller has seen: the calls served so far, each with its result, the events of
all its polls and the state it left behind, and the call that is outstanding.
`Session.Reach` is every run of this kind.

The rule `Session.Reach.rule` reduces a statement about all runs to one poll: an
invariant `A` between two calls, an invariant `B` inside one, and what a served
call guarantees (`Q`).  It is stated relative to a condition `F` on events, so
that it serves runs in which the surroundings are asked not to do certain things
as well as unrestricted ones.
-/

namespace Polling

variable {I : Interface} {S Arg Res : Type}

/-- A poll: with the events of the call so far, from a state, for an argument. -/
def Poller (I : Interface) (S Arg Res : Type) :=
  Environment I → Arg → S × Log I → (S × Log I) × Outcome Res

/-- A call that has returned a value. -/
structure Served (I : Interface) (S Arg Res : Type) where
  arg : Arg
  result : Res
  /-- The calls made by all polls of this call. -/
  events : Log I
  /-- The state in which the call left the component. -/
  after : S

/-- What the caller has seen so far. -/
structure Session (I : Interface) (S Arg Res : Type) where
  state : S
  /-- The log up to the end of the last served call. -/
  past : Log I
  served : List (Served I S Arg Res)
  /-- The call that answered "not yet", with the events of its polls. -/
  outstanding : Option (Arg × Log I)
  /-- A poll panicked, or did not return. -/
  broken : Bool

namespace Session

/-- A fresh component. -/
def start (init : S) : Session I S Arg Res where
  state := init
  past := []
  served := []
  outstanding := none
  broken := false

/-- The events of the outstanding call. -/
def current (s : Session I S Arg Res) : Log I :=
  match s.outstanding with
  | some (_, events) => events
  | none => []

/-- Everything that was called and answered so far. -/
def log (s : Session I S Arg Res) : Log I :=
  s.past ++ s.current

/-- One poll with argument `arg`. -/
def call (poll : Poller I S Arg Res) (env : Environment I) (arg : Arg)
    (s : Session I S Arg Res) : Session I S Arg Res :=
  match poll (env.after s.past) arg (s.state, s.current) with
  | ((state, events), .returned .pending) =>
      { s with state := state, outstanding := some (arg, events) }
  | ((state, events), .returned (.ready result)) =>
      { s with
        state := state
        past := s.past ++ events
        served := s.served ++ [⟨arg, result, events, state⟩]
        outstanding := none }
  | ((state, events), .panicked) | ((state, events), .running) =>
      { s with state := state, outstanding := some (arg, events), broken := true }

/-- A call may be made when nothing is broken and it repeats the outstanding
call, if there is one. -/
def Admits (s : Session I S Arg Res) (arg : Arg) : Prop :=
  s.broken = false ∧ ∀ pending ∈ s.outstanding, pending.1 = arg

instance [DecidableEq Arg] (s : Session I S Arg Res) (arg : Arg) :
    Decidable (s.Admits arg) :=
  inferInstanceAs (Decidable (_ ∧ _))

/-- The sessions a caller can be in. -/
inductive Reach (poll : Poller I S Arg Res) (env : Environment I) (init : S) :
    Session I S Arg Res → Prop where
  | start : Reach poll env init (Session.start init)
  | call {s : Session I S Arg Res} (arg : Arg) :
      Reach poll env init s → s.Admits arg →
        Reach poll env init (s.call poll env arg)

section Call

variable {poll : Poller I S Arg Res} {env : Environment I} {arg : Arg}
variable {s : Session I S Arg Res} {state : S} {events : Log I}

theorem call_pending
    (h : poll (env.after s.past) arg (s.state, s.current)
      = ((state, events), .returned .pending)) :
    s.call poll env arg
      = { s with state := state, outstanding := some (arg, events) } := by
  simp [call, h]

theorem call_ready {result : Res}
    (h : poll (env.after s.past) arg (s.state, s.current)
      = ((state, events), .returned (.ready result))) :
    s.call poll env arg
      = { s with
          state := state
          past := s.past ++ events
          served := s.served ++ [⟨arg, result, events, state⟩]
          outstanding := none } := by
  simp [call, h]

theorem call_panicked
    (h : poll (env.after s.past) arg (s.state, s.current)
      = ((state, events), .panicked)) :
    s.call poll env arg
      = { s with
          state := state
          outstanding := some (arg, events)
          broken := true } := by
  simp [call, h]

theorem call_running
    (h : poll (env.after s.past) arg (s.state, s.current)
      = ((state, events), .running)) :
    s.call poll env arg
      = { s with
          state := state
          outstanding := some (arg, events)
          broken := true } := by
  simp [call, h]

/-- The log after a poll is the log before the call followed by the events the
poll ends with. -/
theorem log_call (poll : Poller I S Arg Res) (env : Environment I) (arg : Arg)
    (s : Session I S Arg Res) :
    (s.call poll env arg).log
      = s.past ++ (poll (env.after s.past) arg (s.state, s.current)).1.2 := by
  rcases h : poll (env.after s.past) arg (s.state, s.current)
    with ⟨⟨state, events⟩, (_ | _) | _ | _⟩
  · rw [call_ready h]; simp [log, current]
  · rw [call_pending h]; simp [log, current]
  · rw [call_panicked h]; simp [log, current]
  · rw [call_running h]; simp [log, current]

/-- Served calls are never forgotten. -/
theorem served_call (poll : Poller I S Arg Res) (env : Environment I) (arg : Arg)
    (s : Session I S Arg Res) : s.served <+: (s.call poll env arg).served := by
  rcases h : poll (env.after s.past) arg (s.state, s.current)
    with ⟨⟨state, events⟩, (_ | _) | _ | _⟩
  · rw [call_ready h]; exact List.prefix_append _ _
  · exact call_pending h ▸ List.prefix_rfl
  · exact call_panicked h ▸ List.prefix_rfl
  · exact call_running h ▸ List.prefix_rfl

/-- If polls only append to the log of their call, calls only append to the log
of the session. -/
theorem log_prefix_call (grows : ∀ env arg x, x.2 <+: (poll env arg x).1.2)
    (env : Environment I) (arg : Arg) (s : Session I S Arg Res) :
    s.log <+: (s.call poll env arg).log := by
  rw [log_call]
  exact (List.prefix_append_right_inj _).mpr (grows _ _ (s.state, s.current))

/-- A poll of an admitted call starts inside the outstanding call, or enters a
new one. -/
theorem busy_of_admits {A : S → Prop} {B : Arg → S × Log I → Prop}
    (enter : ∀ arg state, A state → B arg (state, []))
    (idle : s.outstanding = none → A s.state)
    (busy : ∀ arg events, s.outstanding = some (arg, events) →
      B arg (s.state, events))
    (admits : s.Admits arg) : B arg (s.state, s.current) := by
  cases hout : s.outstanding with
  | none => simpa [current, hout] using enter arg s.state (idle hout)
  | some call =>
      have harg : call.1 = arg := admits.2 call (by simp [hout])
      have h := busy call.1 call.2 (by simp [hout])
      rw [harg] at h
      simpa [current, hout] using h

end Call

namespace Reach

variable {poll : Poller I S Arg Res} {env : Environment I} {init : S}
variable {s : Session I S Arg Res}

/-- What happened up to the end of the last served call happened in the served calls. -/
theorem past_eq (reach : Reach poll env init s) : s.past = s.served.flatMap Served.events := by
  induction reach with
  | start => rfl
  | @call s arg reach admits ih =>
      rcases h : poll (env.after s.past) arg (s.state, s.current)
        with ⟨⟨state, events⟩, (_ | _) | _ | _⟩
      · rw [call_ready h]
        simp [ih]
      · rw [call_pending h]
        exact ih
      · rw [call_panicked h]
        exact ih
      · rw [call_running h]
        exact ih

/-- **Session rule.**  `A` holds between two calls, `B` inside one, and every
served call meets `Q`, in every run whose events are all fine (`F`). -/
theorem rule {F : Event I → Prop} {A : S → Prop}
    {B : Arg → S × Log I → Prop} {Q : Served I S Arg Res → Prop}
    (init_idle : A init)
    (enter : ∀ arg state, A state → B arg (state, []))
    (grows : ∀ env arg x, x.2 <+: (poll env arg x).1.2)
    (pending : ∀ env arg x x', B arg x → (∀ event ∈ x'.2, F event) →
      poll env arg x = (x', .returned .pending) → B arg x')
    (ready : ∀ env arg x x' result, B arg x → (∀ event ∈ x'.2, F event) →
      poll env arg x = (x', .returned (.ready result)) →
        A x'.1 ∧ Q ⟨arg, result, x'.2, x'.1⟩)
    (returns : ∀ env arg x x' outcome, B arg x →
      (∀ event ∈ x'.2, F event) → poll env arg x = (x', outcome) →
        ∃ answer, outcome = .returned answer)
    (reach : Reach poll env init s) (fine : ∀ event ∈ s.log, F event) :
    s.broken = false ∧ (s.outstanding = none → A s.state) ∧
      (∀ arg events, s.outstanding = some (arg, events) →
        B arg (s.state, events)) ∧
      ∀ call ∈ s.served, Q call := by
  induction reach with
  | start => exact ⟨rfl, fun _ => init_idle, by simp [Session.start],
      by simp [Session.start]⟩
  | @call s arg reach admits ih =>
      have fineBefore : ∀ event ∈ s.log, F event := fun event mem =>
        fine event ((log_prefix_call grows env arg s).subset mem)
      obtain ⟨unbroken, idle, busy, served⟩ := ih fineBefore
      have hbusy := busy_of_admits enter idle busy admits
      rw [log_call] at fine
      rcases hpoll : poll (env.after s.past) arg (s.state, s.current)
        with ⟨⟨state, events⟩, outcome⟩
      rw [hpoll] at fine
      have fineEvents : ∀ event ∈ events, F event := fun event mem =>
        fine event (List.mem_append_right _ mem)
      obtain ⟨answer, rfl⟩ := returns _ _ _ _ _ hbusy fineEvents hpoll
      cases answer with
      | ready result =>
          obtain ⟨hidle, hpost⟩ := ready _ _ _ _ _ hbusy fineEvents hpoll
          rw [call_ready hpoll]
          refine ⟨unbroken, fun _ => hidle, by simp, ?_⟩
          intro call mem
          rcases List.mem_append.mp mem with mem | mem
          · exact served call mem
          · rw [List.mem_singleton.mp mem]
            exact hpost
      | pending =>
          have hnext := pending _ _ _ _ hbusy fineEvents hpoll
          rw [call_pending hpoll]
          refine ⟨unbroken, by simp, ?_, served⟩
          intro arg' events' h
          simp only [Option.some.injEq, Prod.mk.injEq] at h
          obtain ⟨rfl, rfl⟩ := h
          exact hnext

end Reach

end Session

end Polling
