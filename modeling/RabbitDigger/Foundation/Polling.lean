import Mathlib.Data.List.Basic
import Mathlib.Data.Nat.Find

/-!
# Polled components and the answers around them

An asynchronous component does its work inside `poll`: it calls what surrounds
it (sockets, streams, resolvers), each call is answered at once — possibly by
"not yet" — and between two polls nothing happens to its state.  This module
fixes that vocabulary once, for arbitrary calls and answers.

* `Interface` — the calls a component makes and, for each call, the type of its
  answers.  An answer type may depend on the call, so what the surroundings are
  not allowed to say (a read longer than the buffer, a write longer than what
  was offered) is excluded by typing and never has to be assumed.
* `Environment` — a behaviour of the surroundings: every answer is a function of
  the whole **log** of earlier calls and answers.  Quantifying over environments
  is quantifying over every pattern of answers.
* `FollowedBy` — everything of one kind in a log comes before something of another
  kind, as a write before the flush that makes it visible.
* `loopN` — a `loop { … }` of the source, cut after `n` passes.  The passes that
  are over are what the component has done so far, so a statement about every
  `n` is a statement about every moment, of non-terminating loops too.
* `retry` — a loop that makes the same attempt until it does not fail.
* `join` — two components polled one after the other, ready when one of them is.
* `Polled` — a future that is polled until it is ready.

The rules `loopN_rule`, `loopN_leaves`, `retry_returns_iff`, `join_rule` and `Polled.rule` are
the only inductions over passes and polls that a client needs.
-/

namespace Polling

universe u v

/-- What a poll answers: a value, or "not yet". -/
inductive Poll (α : Type u) where
  | ready (value : α)
  | pending
deriving Repr, DecidableEq

/-! ## Calls, answers and logs -/

/-- The calls a component makes on its surroundings, and the answers each call
can get. -/
structure Interface where
  /-- A call together with its arguments. -/
  Call : Type
  /-- The answers a call can get. -/
  Answer : Call → Type

/-- A call that has been made, with the answer it got. -/
abbrev Event (I : Interface) := Σ call : I.Call, I.Answer call

/-- The calls made so far, oldest first. -/
abbrev Log (I : Interface) := List (Event I)

/-- A behaviour of the surroundings: the answer to a call may depend on
everything that was called and answered before. -/
def Environment (I : Interface) := Log I → (call : I.Call) → I.Answer call

namespace Environment

variable {I : Interface}

/-- The log once `call` has been made and answered. -/
def record (env : Environment I) (log : Log I) (call : I.Call) : Log I :=
  log ++ [⟨call, env log call⟩]

/-- The log once `call` has been made and answered `k` times in a row. -/
def repeated (env : Environment I) (call : I.Call) : ℕ → Log I → Log I
  | 0, log => log
  | k + 1, log => env.repeated call k (env.record log call)

theorem length_repeated (env : Environment I) (call : I.Call) (k : ℕ) (log : Log I) :
    (env.repeated call k log).length = log.length + k := by
  induction k generalizing log with
  | zero => rfl
  | succ k ih => rw [repeated, ih, record, List.length_append, Nat.add_right_comm]; rfl

/-- The same surroundings, seen from a moment at which `past` has happened. -/
def after (env : Environment I) (past : Log I) : Environment I :=
  fun log => env (past ++ log)

end Environment

/-! ## What comes after what -/

section FollowedBy

variable {α : Type u} {A B : α → Prop} {log : List α} {event : α}

/-- Whatever has `A` in a log comes before something that has `B`. -/
def FollowedBy (A B : α → Prop) (log : List α) : Prop :=
  ∀ before event after, log = before ++ event :: after → A event → ∃ later ∈ after, B later

theorem followedBy_nil : FollowedBy A B [] := by
  intro before event after h
  exact absurd h.symm (by simp)

/-- What comes last has no `A`, and what came before it has been followed or is now. -/
theorem FollowedBy.snoc (hfollowed : ¬ B event → FollowedBy A B log) (hevent : ¬ A event) :
    FollowedBy A B (log ++ [event]) := by
  intro before first after h hA
  rcases List.eq_nil_or_concat after with rfl | ⟨rest, last, rfl⟩
  · obtain ⟨-, rfl⟩ := List.append_inj' h rfl |>.imp_right List.singleton_inj.mp
    exact absurd hA hevent
  · have hsplit : log ++ [event] = (before ++ first :: rest) ++ [last] := by
      rw [h, List.concat_eq_append, List.append_assoc, List.cons_append]
    obtain ⟨hlog, hlast⟩ := List.append_inj' hsplit rfl
    rw [List.concat_eq_append]
    by_cases hB : B event
    · rw [List.singleton_inj.mp hlast] at hB
      exact ⟨last, by simp, hB⟩
    · obtain ⟨later, hmem, hlater⟩ := hfollowed hB before first rest hlog hA
      exact ⟨later, List.mem_append_left _ hmem, hlater⟩

end FollowedBy

section Since

variable {α : Type u} {start log : List α}

/-- What a log has got since an earlier moment. -/
def since (start log : List α) : List α :=
  log.drop start.length

theorem append_since (h : start <+: log) : start ++ since start log = log := by
  obtain ⟨later, rfl⟩ := h
  simp [since]

@[simp] theorem since_self (log : List α) : since log log = [] := by
  simp [since]

theorem since_append (h : start <+: log) (later : List α) :
    since start (log ++ later) = since start log ++ later := by
  unfold since
  rw [List.drop_append_of_le_length h.length_le]

theorem since_append_since {later : List α} (h : start <+: log) (hlater : log <+: later) :
    since start log ++ since log later = since start later := by
  rw [← since_append h, append_since hlater]

/-- What is recorded now has come since then. -/
theorem mem_since_snoc (h : start <+: log) (event : α) : event ∈ since start (log ++ [event]) := by
  rw [since_append h]
  exact List.mem_append_right _ (List.mem_singleton_self _)

theorem mem_since_append (h : start <+: log) {event : α} (hmem : event ∈ since start log)
    (later : List α) : event ∈ since start (log ++ later) := by
  rw [since_append h]
  exact List.mem_append_left _ hmem

end Since

/-! ## Loops -/

/-- How a poll of a component ends: it returns, it panics, or it is still
inside one of its loops when the model stops looking. -/
inductive Outcome (R : Type u) where
  | returned (answer : Poll R)
  | panicked
  | running
deriving Repr, DecidableEq

section Loop

variable {S : Type u} {R : Type v}

/-- At most `n` passes through the body of a `loop { … }`.  A pass either goes
round again (`none`) or leaves the loop; a loop that has not been left after `n`
passes is `running`, in the state given. -/
def loopN (body : S → S × Option (Outcome R)) : ℕ → S → S × Outcome R
  | 0, s => (s, .running)
  | n + 1, s =>
      match body s with
      | (s', some outcome) => (s', outcome)
      | (s', none) => loopN body n s'

variable {body : S → S × Option (Outcome R)}

theorem loopN_succ_some {s s' : S} {outcome : Outcome R}
    (h : body s = (s', some outcome)) (n : ℕ) :
    loopN body (n + 1) s = (s', outcome) := by
  simp [loopN, h]

theorem loopN_succ_none {s s' : S} (h : body s = (s', none)) (n : ℕ) :
    loopN body (n + 1) s = loopN body n s' := by
  simp [loopN, h]

/-- What a pass establishes: `P` if it goes round again, `Q` if it leaves. -/
def Goes (P : S → Prop) (Q : S → Outcome R → Prop) : S × Option (Outcome R) → Prop
  | (s, none) => P s
  | (s, some outcome) => Q s outcome

/-- **Loop rule.**  An invariant `P` of the passes that go round again, what the
leaving pass establishes, `Q`, and what is asked of a loop that is still running
give what holds of the state and the outcome the loop ends with. -/
theorem loopN_rule (body : S → S × Option (Outcome R)) {P : S → Prop}
    {Q : S → Outcome R → Prop} (pass : ∀ s, P s → Goes P Q (body s))
    (cut : ∀ s, P s → Q s .running) :
    ∀ (n : ℕ) (s : S), P s → Q (loopN body n s).1 (loopN body n s).2 := by
  intro n
  induction n with
  | zero => intro s hs; exact cut s hs
  | succ n ih =>
      intro s hs
      have hpass := pass s hs
      rcases hbody : body s with ⟨s', _ | outcome⟩
      · rw [loopN_succ_none hbody]
        rw [hbody] at hpass
        exact ih s' hpass
      · rw [loopN_succ_some hbody]
        rw [hbody] at hpass
        exact hpass

/-- What every pass keeps, whether it leaves the loop or not, the loop keeps. -/
theorem loopN_keeps {body : S → S × Option (Outcome R)} {P : S → Prop}
    (pass : ∀ s, P s → P (body s).1) (n : ℕ) {s : S} (hs : P s) : P (loopN body n s).1 := by
  refine loopN_rule body (Q := fun s _ => P s) (fun s hs => ?_) (fun _ hs => hs) n s hs
  have hpass := pass s hs
  rcases hbody : body s with ⟨s', _ | outcome⟩
  · rw [hbody] at hpass
    exact hpass
  · rw [hbody] at hpass
    exact hpass

/-- **Termination rule.**  If every pass that goes round again lowers a measure,
a loop given one pass more than the measure is left. -/
theorem loopN_leaves (body : S → S × Option (Outcome R)) {P : S → Prop}
    {Q : S → Outcome R → Prop} {m : S → ℕ} (pass : ∀ s, P s → Goes P Q (body s))
    (lower : ∀ s s', P s → body s = (s', none) → m s' < m s) :
    ∀ (n : ℕ) (s : S), P s → m s < n → Q (loopN body n s).1 (loopN body n s).2 := by
  intro n
  induction n with
  | zero => intro s _ h; exact absurd h (Nat.not_lt_zero _)
  | succ n ih =>
      intro s hs hn
      have hpass := pass s hs
      rcases hbody : body s with ⟨s', _ | outcome⟩
      · rw [loopN_succ_none hbody]
        rw [hbody] at hpass
        have hlt := lower s s' hs hbody
        exact ih s' hpass (by omega)
      · rw [loopN_succ_some hbody]
        rw [hbody] at hpass
        exact hpass

/-- What a loop has come to that may have been cut: it was left, or it has been given no more
passes than the measure may ask for. -/
theorem loopN_leaves_or_cut (body : S → S × Option (Outcome R)) {P : S → Prop}
    {Q : S → Outcome R → Prop} {m : S → ℕ} (pass : ∀ s, P s → Goes P Q (body s))
    (lower : ∀ s s', P s → body s = (s', none) → m s' < m s) (n : ℕ) {s : S} (hs : P s)
    {bound : ℕ} (hm : m s ≤ bound) :
    Q (loopN body n s).1 (loopN body n s).2 ∨ n ≤ bound ∧ (loopN body n s).2 = .running := by
  by_cases hrunning : (loopN body n s).2 = .running
  · by_cases hn : n ≤ bound
    · exact .inr ⟨hn, hrunning⟩
    · exact .inl (loopN_leaves body pass lower n s hs (by omega))
  · refine .inl (loopN_rule body (Q := fun s outcome => outcome ≠ .running → Q s outcome)
      (fun s hs => ?_) (fun _ _ h => absurd rfl h) n s hs hrunning)
    have hpass := pass s hs
    rcases hbody : body s with ⟨s', _ | outcome⟩
    · rw [hbody] at hpass
      exact hpass
    · rw [hbody] at hpass
      exact fun _ => hpass

end Loop

/-! ## Trying again -/

section Retry

variable {S : Type u} {E A : Type} (attempt : S → S × Outcome (Except E A))

/-- One attempt of a loop that goes on until an attempt does not fail. -/
def retryPass (s : S) : S × Option (Outcome (Except E A)) :=
  match attempt s with
  | (s', .returned (.ready (.error _))) => (s', none)
  | (s', outcome) => (s', some outcome)

/-- At most `n` attempts. -/
def retry (n : ℕ) (s : S) : S × Outcome (Except E A) :=
  loopN (retryPass attempt) n s

/-- The state after `k` attempts. -/
def attempted : ℕ → S → S
  | 0, s => s
  | k + 1, s => attempted k (attempt s).1

variable {attempt} {s : S}

theorem retryPass_fails {e : E} (h : (attempt s).2 = .returned (.ready (.error e))) :
    retryPass attempt s = ((attempt s).1, none) := by
  rcases hattempt : attempt s with ⟨s', outcome⟩
  rw [hattempt] at h
  cases h
  simp [retryPass, hattempt]

theorem retryPass_leaves (h : ∀ e, (attempt s).2 ≠ .returned (.ready (.error e))) :
    retryPass attempt s = ((attempt s).1, some (attempt s).2) := by
  rcases hattempt : attempt s with ⟨s', ((e | a) | _) | _ | _⟩
  · rw [hattempt] at h
    exact absurd rfl (h e)
  all_goals simp [retryPass, hattempt]

/-- **As long as all attempts fail, the loop goes on.** -/
theorem retry_running {n : ℕ}
    (h : ∀ k < n, ∃ e, (attempt (attempted attempt k s)).2 = .returned (.ready (.error e))) :
    retry attempt n s = (attempted attempt n s, .running) := by
  induction n generalizing s with
  | zero => rfl
  | succ n ih =>
      obtain ⟨e, he⟩ : ∃ e, (attempt s).2 = .returned (.ready (.error e)) :=
        h 0 (Nat.succ_pos n)
      unfold retry
      rw [loopN_succ_none (retryPass_fails he)]
      exact ih fun k hk => h (k + 1) (Nat.succ_lt_succ hk)

/-- The first attempt that does not fail ends it. -/
theorem retry_leaves {k n : ℕ} (hk : k < n)
    (hfails : ∀ j < k, ∃ e, (attempt (attempted attempt j s)).2 = .returned (.ready (.error e)))
    (hleaves : ∀ e, (attempt (attempted attempt k s)).2 ≠ .returned (.ready (.error e))) :
    retry attempt n s = attempt (attempted attempt k s) := by
  induction k generalizing s n with
  | zero =>
      obtain ⟨m, rfl⟩ := Nat.exists_eq_succ_of_ne_zero (Nat.ne_of_gt hk)
      have hnow : ∀ e, (attempt s).2 ≠ .returned (.ready (.error e)) := hleaves
      unfold retry
      rw [loopN_succ_some (retryPass_leaves hnow)]
      rfl
  | succ k ih =>
      obtain ⟨m, rfl⟩ := Nat.exists_eq_succ_of_ne_zero (Nat.ne_of_gt (Nat.zero_lt_of_lt hk))
      obtain ⟨e, he⟩ : ∃ e, (attempt s).2 = .returned (.ready (.error e)) :=
        hfails 0 (Nat.succ_pos k)
      unfold retry
      rw [loopN_succ_none (retryPass_fails he)]
      exact ih (Nat.lt_of_succ_lt_succ hk) (fun j hj => hfails (j + 1) (Nat.succ_lt_succ hj))
        hleaves

/-- **When a retry loop returns**, if every attempt does: if and only if some attempt does not
fail. -/
theorem retry_returns_iff (returns : ∀ s, ∃ answer, (attempt s).2 = .returned answer) :
    (∃ n answer, (retry attempt n s).2 = .returned answer) ↔
      ∃ k, ∀ e, (attempt (attempted attempt k s)).2 ≠ .returned (.ready (.error e)) := by
  constructor
  · rintro ⟨n, answer, h⟩
    by_contra hnone
    push Not at hnone
    rw [retry_running fun k _ => hnone k] at h
    cases h
  · intro hsome
    classical
    -- the first attempt that does not fail
    have hfails : ∀ j < Nat.find hsome,
        ∃ e, (attempt (attempted attempt j s)).2 = .returned (.ready (.error e)) := fun j hj => by
      simpa using Nat.find_min hsome hj
    obtain ⟨answer, hanswer⟩ := returns (attempted attempt (Nat.find hsome) s)
    refine ⟨Nat.find hsome + 1, answer, ?_⟩
    rw [retry_leaves (Nat.lt_succ_self _) hfails (Nat.find_spec hsome)]
    exact hanswer

end Retry

/-! ## Two at a time -/

section Join

variable {S T L E A : Type}

/-- The outcome of a pair of which the first half is ready or not and the second
half ended like this: an error wins, and one half that is ready is enough. -/
def Outcome.orReady (ready : Bool) : Outcome (Except E A) → Outcome (Except E Unit)
  | .returned (.ready (.error e)) => .returned (.ready (.error e))
  | .returned (.ready (.ok _)) => .returned (.ready (.ok ()))
  | .returned .pending => .returned (if ready then .ready (.ok ()) else .pending)
  | .panicked => .panicked
  | .running => .running

/-- Polling two components over one log, one after the other. -/
def join (first : S × L → (S × L) × Outcome (Except E A))
    (second : T × L → (T × L) × Outcome (Except E A)) (s : S) (t : T) (log : L) :
    ((S × T) × L) × Outcome (Except E Unit) :=
  match first (s, log) with
  | ((s, log), .returned (.ready (.error e))) =>
      (((s, t), log), .returned (.ready (.error e)))
  | ((s, log), .returned (.ready (.ok _))) =>
      let r := second (t, log)
      (((s, r.1.1), r.1.2), r.2.orReady true)
  | ((s, log), .returned .pending) =>
      let r := second (t, log)
      (((s, r.1.1), r.1.2), r.2.orReady false)
  | ((s, log), .panicked) => (((s, t), log), .panicked)
  | ((s, log), .running) => (((s, t), log), .running)

/-- Why a pair has ended as it has: for readiness and for a panic, one of the
halves is the reason. -/
def Joined (F : S → Outcome (Except E A) → Prop) (G : T → Outcome (Except E A) → Prop)
    (s : S) (t : T) : Outcome (Except E Unit) → Prop
  | .returned (.ready (.ok _)) =>
      (∃ value, F s (.returned (.ready (.ok value)))) ∨
        ∃ value, G t (.returned (.ready (.ok value)))
  | .panicked => F s .panicked ∨ G t .panicked
  | _ => True

variable {first : S × L → (S × L) × Outcome (Except E A)}
variable {second : T × L → (T × L) × Outcome (Except E A)}

/-- **Pair rule.**  What each half preserves, the pair preserves. -/
theorem join_rule {P : S → T → L → Prop} {F : S → Outcome (Except E A) → Prop}
    {G : T → Outcome (Except E A) → Prop}
    (forth : ∀ s t log, P s t log →
      P (first (s, log)).1.1 t (first (s, log)).1.2 ∧
        F (first (s, log)).1.1 (first (s, log)).2)
    (back : ∀ s t log, P s t log →
      P s (second (t, log)).1.1 (second (t, log)).1.2 ∧
        G (second (t, log)).1.1 (second (t, log)).2)
    {s : S} {t : T} {log : L} (h : P s t log) :
    P (join first second s t log).1.1.1 (join first second s t log).1.1.2
        (join first second s t log).1.2 ∧
      Joined F G (join first second s t log).1.1.1 (join first second s t log).1.1.2
        (join first second s t log).2 := by
  obtain ⟨hP, hF⟩ := forth s t log h
  unfold join
  rcases hfirst : first (s, log) with ⟨⟨s', log'⟩, ((e | value) | _) | _ | _⟩
  all_goals rw [hfirst] at hP hF
  · exact ⟨hP, trivial⟩
  · obtain ⟨hP', hG⟩ := back s' t log' hP
    refine ⟨hP', ?_⟩
    rcases houtcome : (second (t, log')).2 with ((e | value') | _) | _ | _
    all_goals rw [houtcome] at hG
    · simp [houtcome, Outcome.orReady, Joined]
    · simpa [houtcome, Outcome.orReady, Joined] using .inl ⟨value, hF⟩
    · simpa [houtcome, Outcome.orReady, Joined] using .inl ⟨value, hF⟩
    · simpa [houtcome, Outcome.orReady, Joined] using .inr hG
    · simp [houtcome, Outcome.orReady, Joined]
  · obtain ⟨hP', hG⟩ := back s' t log' hP
    refine ⟨hP', ?_⟩
    rcases houtcome : (second (t, log')).2 with ((e | value') | _) | _ | _
    all_goals rw [houtcome] at hG
    · simp [houtcome, Outcome.orReady, Joined]
    · simpa [houtcome, Outcome.orReady, Joined] using .inr ⟨value', hG⟩
    · simp [houtcome, Outcome.orReady, Joined]
    · simpa [houtcome, Outcome.orReady, Joined] using .inr hG
    · simp [houtcome, Outcome.orReady, Joined]
  · exact ⟨hP, .inl hF⟩
  · exact ⟨hP, trivial⟩

end Join

/-! ## Futures -/

section Future

variable {S : Type u} {R : Type v}

/-- The moments of a future that is polled until it is ready: its state, and how
the last poll of it ended.  Each poll is looked at after a number of passes of its
own, so a poll that is `running` is a moment inside it. -/
inductive Polled (poll : ℕ → S → S × Outcome R) (init : S) : S → Outcome R → Prop where
  | start : Polled poll init init (.returned .pending)
  | poll {s : S} (n : ℕ) : Polled poll init s (.returned .pending) →
      Polled poll init (poll n s).1 (poll n s).2

/-- **Future rule.**  What holds initially and is carried from poll to poll holds
at every moment, together with what each poll establishes about its outcome. -/
theorem Polled.rule {poll : ℕ → S → S × Outcome R} {init : S} {P : S → Prop}
    {Q : S → Outcome R → Prop} (start : P init) (idle : Q init (.returned .pending))
    (step : ∀ n s, P s → P (poll n s).1 ∧ Q (poll n s).1 (poll n s).2)
    {s : S} {outcome : Outcome R} (h : Polled poll init s outcome) :
    P s ∧ Q s outcome := by
  induction h with
  | start => exact ⟨start, idle⟩
  | poll n _ ih => exact step n _ ih.1

end Future

end Polling
