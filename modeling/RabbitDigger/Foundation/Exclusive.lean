import RabbitDigger.Foundation.Transition

/-!
# Calls under an exclusive lock

Any number of calls work on one shared state.  A call takes the lock, works on the shared state
in several steps, between which anything else may go on, and gives the lock back when it
returns.  A call that waits for the lock has done nothing yet, so it need not be part of the
state: it appears when it takes the lock, or never if it is cancelled before.

**Whatever the interleaving, the calls take effect one after the other** (`serial`): every
call that has returned has worked, step by step and alone, from the state that it found to the
state that it left, and each has found what the one before it has left (`Follow`).
-/

namespace Exclusive

open Transition

universe u

section Body

variable (S C L R : Type u)

/-- What a call `C` does to the shared state `S` while it holds the lock: the place `L` where
it begins, and one step, after which it goes on or returns. -/
structure Body where
  start : L
  step : C → L → S → S × (L ⊕ R)

/-- The call that holds the lock, the state that it has found, and its place. -/
structure Holder where
  call : C
  found : S
  place : L

/-- A call that has returned, the state that it has found and the one that it has left. -/
structure Completed where
  call : C
  before : S
  after : S
  result : R

structure State where
  shared : S
  holder : Option (Holder S C L)
  completed : List (Completed S C R)

/-- A call takes the lock, or the call that holds it makes a step. -/
inductive Event where
  | enter (call : C)
  | advance

end Body

variable {S C L R : Type u}

/-- The state that the next call finds, if the one that holds the lock changes nothing. -/
def State.found (st : State S C L R) : S :=
  match st.holder with
  | none => st.shared
  | some holder => holder.found

namespace Body

variable (body : Body S C L R)

def next (st : State S C L R) : Event C → Option (State S C L R)
  | .enter call =>
      match st.holder with
      | some _ => none
      | none => some { st with holder := some ⟨call, st.shared, body.start⟩ }
  | .advance =>
      match st.holder with
      | none => none
      | some holder =>
          match body.step holder.call holder.place st.shared with
          | (s, .inl place) => some { st with shared := s, holder := some { holder with place } }
          | (s, .inr result) =>
              some
                { shared := s
                  holder := none
                  completed := st.completed ++ [⟨holder.call, holder.found, s, result⟩] }

/-- The calls, from a state in which nobody holds the lock. -/
def system (init : S) : System (State S C L R) (Event C) where
  init := ⟨init, none, []⟩
  step := body.next

/-- A condition on the state that a call finds. -/
def Entering (P : S → C → Prop) (st : State S C L R) : Event C → Prop
  | .enter call => P st.shared call
  | .advance => True

/-- The steps of a call that works alone. -/
inductive Leads (call : C) (found : S) : L → S → Prop where
  | start : Leads call found body.start found
  | step {l l' : L} {s s' : S} : Leads call found l s → body.step call l s = (s', .inl l') →
      Leads call found l' s'

/-- A call that works alone returns. -/
def Performs (call : C) (found left : S) (result : R) : Prop :=
  ∃ l s, body.Leads call found l s ∧ body.step call l s = (left, .inr result)

variable {body}

/-- **Computation rule.**  A function that says at every place what is still to come says at
the start what a call does. -/
theorem Performs.computes {T : Type u} {call : C} (rest : L → S → T) (outcome : S → R → T)
    (step : ∀ l s, rest l s = (body.step call l s).2.elim
      (fun l' => rest l' (body.step call l s).1) (outcome (body.step call l s).1))
    {found left : S} {result : R} (h : body.Performs call found left result) :
    rest body.start found = outcome left result := by
  obtain ⟨l, s, hleads, hreturn⟩ := h
  have hrest : rest body.start found = rest l s := by
    clear hreturn
    induction hleads with
    | start => rfl
    | step _ hstep ih =>
        refine ih.trans ?_
        rw [step, hstep]
        rfl
  rw [hrest, step, hreturn]
  rfl

end Body

/-- Each call has found what the one before it has left. -/
def Follow : S → List (Completed S C R) → S → Prop
  | s, [], t => s = t
  | s, d :: ds, t => d.before = s ∧ Follow d.after ds t

theorem Follow.snoc {s : S} {ds : List (Completed S C R)} {d : Completed S C R}
    (follow : Follow s ds d.before) : Follow s (ds ++ [d]) d.after := by
  induction ds generalizing s with
  | nil => exact ⟨follow.symm, rfl⟩
  | cons first ds ih => exact ⟨follow.1, ih follow.2⟩

/-- **Invariant rule.**  What every call keeps holds before and after each of them. -/
theorem Follow.invariant {P : S → Prop} {s t : S} {ds : List (Completed S C R)}
    (follow : Follow s ds t) (init : P s) (step : ∀ d ∈ ds, P d.before → P d.after) :
    ∀ d ∈ ds, P d.before ∧ P d.after := by
  induction ds generalizing s with
  | nil =>
      intro d hd
      cases hd
  | cons first ds ih =>
      have hbefore : P first.before := by
        rw [follow.1]
        exact init
      have hafter := step first List.mem_cons_self hbefore
      intro d hd
      rcases List.mem_cons.mp hd with rfl | hd
      · exact ⟨hbefore, hafter⟩
      · exact ih follow.2 hafter (fun d hd => step d (List.mem_cons_of_mem _ hd)) d hd

/-- Calls that are computed by a function, on states that are seen as values of another type,
have the effect of this function, applied once for each of them. -/
theorem Follow.foldl {T : Type u} {f : C → T → T} {v : S → T} {s t : S}
    {ds : List (Completed S C R)} (follow : Follow s ds t)
    (computed : ∀ d ∈ ds, f d.call (v d.before) = v d.after) :
    ds.foldl (fun x d => f d.call x) (v s) = v t := by
  induction ds generalizing s with
  | nil => exact congrArg v follow
  | cons first ds ih =>
      rw [List.foldl_cons, ← follow.1, computed first List.mem_cons_self]
      exact ih follow.2 fun d hd => computed d (List.mem_cons_of_mem _ hd)

/-- The calls take effect one after the other. -/
structure Serial (body : Body S C L R) (P : S → C → Prop) (init : S) (st : State S C L R) :
    Prop where
  performed : ∀ d ∈ st.completed,
    P d.before d.call ∧ body.Performs d.call d.before d.after d.result
  follow : Follow init st.completed st.found
  /-- The call that holds the lock has worked alone so far. -/
  leads : ∀ holder, st.holder = some holder →
    P holder.found holder.call ∧ body.Leads holder.call holder.found holder.place st.shared

variable {body : Body S C L R} {P : S → C → Prop} {init : S} {st st' : State S C L R}

theorem Serial.enter (serial : Serial body P init st) {call : C} (hcall : P st.shared call)
    (h : body.next st (.enter call) = some st') : Serial body P init st' := by
  unfold Body.next at h
  rcases hholder : st.holder with _ | holder
  · rw [hholder] at h
    cases h
    refine ⟨serial.performed, ?_, ?_⟩
    · have hfollow := serial.follow
      unfold State.found at hfollow
      rw [hholder] at hfollow
      exact hfollow
    · rintro holder ⟨⟩
      exact ⟨hcall, .start⟩
  · rw [hholder] at h
    cases h

theorem Serial.advance (serial : Serial body P init st)
    (h : body.next st .advance = some st') : Serial body P init st' := by
  unfold Body.next at h
  rcases hholder : st.holder with _ | holder
  · rw [hholder] at h
    cases h
  rw [hholder] at h
  dsimp only at h
  obtain ⟨hentered, hleads⟩ := serial.leads holder hholder
  have hfollow := serial.follow
  unfold State.found at hfollow
  rw [hholder] at hfollow
  rcases hstep : body.step holder.call holder.place st.shared with ⟨s, place | result⟩
  · rw [hstep] at h
    cases h
    refine ⟨serial.performed, hfollow, ?_⟩
    rintro _ ⟨⟩
    exact ⟨hentered, .step hleads hstep⟩
  · rw [hstep] at h
    cases h
    refine ⟨?_, Follow.snoc hfollow, by rintro _ ⟨⟩⟩
    intro d hd
    rcases List.mem_append.mp hd with hold | hnew
    · exact serial.performed d hold
    · rw [List.mem_singleton.mp hnew]
      exact ⟨hentered, _, _, hleads, hstep⟩

/-- **In every interleaving the calls take effect one after the other.** -/
theorem serial (reach : (body.system init).Reach (Body.Entering P) st) :
    Serial body P init st := by
  refine System.Reach.invariant (P := Serial body P init) ?_ ?_ reach
  · exact ⟨by rintro d ⟨⟩, rfl, by rintro _ ⟨⟩⟩
  · intro st event st' serial hallowed h
    cases event with
    | enter call => exact serial.enter hallowed h
    | advance => exact serial.advance h

end Exclusive
