import RabbitDigger.Foundation.Transition

/-!
# Steps that come to an end

A condition on events picks out the ones that a system takes on its own accord, apart from those
that it has to wait for.  The system **proceeds** if it cannot go on like this forever, and comes
to rest only in states that satisfy a given condition.  A measure that every such event lowers
shows the first half, for every order in which the events may happen.
-/

namespace Transition.System

universe u v

variable {S : Type u} {E : Type v} {sys : System S E} {Allowed : S → E → Prop}

/-- A run of allowed events from one state to another, with their number. -/
inductive Path (sys : System S E) (Allowed : S → E → Prop) : S → ℕ → S → Prop where
  | nil (s : S) : Path sys Allowed s 0 s
  | cons {s s' t : S} {e : E} {n : ℕ} : Allowed s e → sys.step s e = some s' →
      Path sys Allowed s' n t → Path sys Allowed s (n + 1) t

/-- No allowed event can happen. -/
def AtRest (sys : System S E) (Allowed : S → E → Prop) (s : S) : Prop :=
  ∀ e s', Allowed s e → sys.step s e ≠ some s'

/-- Every run of allowed events from a state is finite, and if it cannot be continued it has come
to a state of the given kind. -/
def Proceeds (sys : System S E) (Allowed : S → E → Prop) (Goal : S → Prop) (s : S) : Prop :=
  ∃ bound, ∀ n t, sys.Path Allowed s n t → n ≤ bound ∧ (sys.AtRest Allowed t → Goal t)

/-- An invariant holds at the end of a run. -/
theorem Path.invariant {P : S → Prop}
    (step : ∀ s e s', P s → Allowed s e → sys.step s e = some s' → P s') {s t : S} {n : ℕ}
    (path : sys.Path Allowed s n t) (h : P s) : P t := by
  induction path with
  | nil => exact h
  | cons allowed hstep _ ih => exact ih (step _ _ _ h allowed hstep)

/-- **A measure bounds all runs.** -/
theorem Path.length_le {P : S → Prop} {measure : S → ℕ}
    (step : ∀ s e s', P s → Allowed s e → sys.step s e = some s' → P s')
    (lower : ∀ s e s', P s → Allowed s e → sys.step s e = some s' → measure s' < measure s)
    {s t : S} {n : ℕ} (path : sys.Path Allowed s n t) (h : P s) : n + measure t ≤ measure s := by
  induction path with
  | nil => exact Nat.le_of_eq (Nat.zero_add _)
  | @cons s s' t e n allowed hstep _ ih =>
      have hrest := ih (step s e s' h allowed hstep)
      have hlower := lower s e s' h allowed hstep
      omega

/-- **The rule.**  An invariant, a measure, and something that can happen wherever the goal is not
reached. -/
theorem proceeds_of_measure {P Goal : S → Prop} {measure : S → ℕ}
    (step : ∀ s e s', P s → Allowed s e → sys.step s e = some s' → P s')
    (lower : ∀ s e s', P s → Allowed s e → sys.step s e = some s' → measure s' < measure s)
    (moves : ∀ s, P s → ¬ Goal s → ∃ e s', Allowed s e ∧ sys.step s e = some s') {s : S}
    (h : P s) : sys.Proceeds Allowed Goal s := by
  refine ⟨measure s, fun n t path => ⟨?_, fun hrest => ?_⟩⟩
  · exact Nat.le_trans (Nat.le_add_right n _) (path.length_le step lower h)
  · by_contra hgoal
    obtain ⟨e, t', allowed, hstep⟩ := moves t (path.invariant step h) hgoal
    exact hrest e t' allowed hstep

end Transition.System
