import Mathlib.Data.List.Basic

/-!
# Transition systems with guarded steps

A system is given by an initial state and an executable step function: an event
that is not enabled answers `none`.  `Reach Allowed` are the states reached
through events that satisfy a condition `Allowed` on the state before the event;
with the trivial condition these are all reachable states (`Reachable`).  Runs of
several parties that interleave are runs of one such system, the event naming
the party that moves.
-/

namespace Transition

universe u v

/-- A transition system: an initial state and a guarded step function. -/
structure System (S : Type u) (E : Type v) where
  init : S
  step : S → E → Option S

namespace System

variable {S : Type u} {E : Type v} {sys : System S E}

/-- The states reached by events that were `Allowed` when they happened. -/
inductive Reach (sys : System S E) (Allowed : S → E → Prop) : S → Prop where
  | init : Reach sys Allowed sys.init
  | step {s s' : S} {e : E} : Reach sys Allowed s → Allowed s e →
      sys.step s e = some s' → Reach sys Allowed s'

/-- The states reached by any events. -/
def Reachable (sys : System S E) : S → Prop := sys.Reach fun _ _ => True

/-- Replay events from the initial state; `none` if one of them is not
enabled. -/
def run (sys : System S E) (events : List E) : Option S :=
  events.foldlM sys.step sys.init

/-- Replaying one more event. -/
theorem run_snoc (sys : System S E) (events : List E) (e : E) :
    sys.run (events ++ [e]) = (sys.run events).bind fun s => sys.step s e := by
  unfold run
  rw [List.foldlM_append]
  simp only [List.foldlM_cons, List.foldlM_nil, Option.bind_eq_bind]
  congr 1
  funext s
  cases sys.step s e <;> rfl

/-- **Invariant rule.**  What holds initially and is preserved by every allowed
event holds in every state reached. -/
theorem Reach.invariant {Allowed : S → E → Prop} {P : S → Prop}
    (init : P sys.init)
    (step : ∀ s e s', P s → Allowed s e → sys.step s e = some s' → P s')
    {s : S} (reach : sys.Reach Allowed s) : P s := by
  induction reach with
  | init => exact init
  | step _ allowed h ih => exact step _ _ _ ih allowed h

/-- The invariant rule for unrestricted runs. -/
theorem Reachable.invariant {P : S → Prop} (init : P sys.init)
    (step : ∀ s e s', P s → sys.step s e = some s' → P s')
    {s : S} (reach : sys.Reachable s) : P s :=
  Reach.invariant init (fun s e s' hs _ h => step s e s' hs h) reach

/-- Replay events from the initial state, each if it is allowed; `none` if one of
them is not, or is not enabled. -/
def replay (sys : System S E) (allowed : S → E → Bool) (events : List E) : Option S :=
  events.foldlM (fun s e => if allowed s e then sys.step s e else none) sys.init

/-- The end of a replay is reached by allowed events. -/
theorem reach_of_replay (sys : System S E) (allowed : S → E → Bool) (events : List E)
    {s : S} (h : sys.replay allowed events = some s) :
    sys.Reach (fun s e => allowed s e = true) s := by
  have key : ∀ (events : List E) (t s : S), sys.Reach (fun s e => allowed s e = true) t →
      events.foldlM (fun s e => if allowed s e then sys.step s e else none) t = some s →
      sys.Reach (fun s e => allowed s e = true) s := by
    intro events
    induction events with
    | nil =>
        intro t s reach h
        cases h
        exact reach
    | cons e events ih =>
        intro t s reach h
        rw [List.foldlM_cons, Option.bind_eq_bind, Option.bind_eq_some_iff] at h
        obtain ⟨u, hstep, hrest⟩ := h
        split at hstep
        · rename_i hallowed
          exact ih u s (.step reach hallowed hstep) hrest
        · cases hstep
  exact key events sys.init s .init h

/-- Being reached by allowed events is being reached. -/
theorem Reach.reachable {Allowed : S → E → Prop} {s : S} (reach : sys.Reach Allowed s) :
    sys.Reachable s := by
  induction reach with
  | init => exact .init
  | step _ _ h ih => exact .step ih trivial h

/-- The end of a replay of any events is reachable. -/
theorem reachable_of_run (sys : System S E) (events : List E) {s : S}
    (h : sys.run events = some s) : sys.Reachable s :=
  (sys.reach_of_replay (fun _ _ => true) events h).reachable

end System

end Transition
