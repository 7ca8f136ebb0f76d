import RabbitDigger.Foundation.Session
import RabbitDigger.Interface.Basic

/-!
# The stream that flushes every write

`rd-std/src/tls/rustls.rs`: a TLS stream keeps what was written until it is flushed, so
`PushingStream` flushes the stream inside after every write.  One `poll_write` is two calls on
that stream, a write and then a flush, and either of them may have to wait.  What the write has
accepted is carried in the state, `Flush(wrote)`, over any number of polls.

A poll that finds the state `Flush` **does not look at its buffer**.  So the caller has to
repeat a pending call with the same buffer, as the contract of `poll_write` asks; the runs of
this module are `Session`s.  In these runs, as long as nothing inside fails
(`pushed_exactly`), what is acknowledged is what was accepted, byte for byte, and **nothing is
acknowledged before it has been flushed**.
-/

namespace RabbitDigger

open Polling

/-! ## The stream inside -/

/-- What the stream asks of the one inside. -/
inductive PushCall where
  | write (buf : Bytes)
  | flush
deriving Repr, DecidableEq

/-- The calls of the stream with their answers. -/
def pushInterface : Interface where
  Call := PushCall
  Answer
    | .write buf => Poll (IoResult { n : ℕ // n ≤ buf.length })
    | .flush => Poll (IoResult Unit)

namespace PushingStream

/-- The bytes an event has put into the stream inside. -/
def acceptedBy : Event pushInterface → Bytes
  | ⟨.write buf, .ready (.ok n)⟩ => buf.take n
  | _ => []

/-- The bytes the stream inside has accepted. -/
def accepted (events : Log pushInterface) : Bytes :=
  events.flatMap acceptedBy

/-- A write was accepted. -/
def Accepts : Event pushInterface → Prop
  | ⟨.write _, .ready (.ok _)⟩ => True
  | _ => False

/-- A flush was completed. -/
def Flushes : Event pushInterface → Prop
  | ⟨.flush, .ready (.ok _)⟩ => True
  | _ => False

/-- The stream inside has failed. -/
def Failure : Event pushInterface → Prop
  | ⟨.write _, .ready (.error _)⟩ => True
  | ⟨.flush, .ready (.error _)⟩ => True
  | _ => False

instance : DecidablePred Failure
  | ⟨.write _, .ready (.error _)⟩ | ⟨.flush, .ready (.error _)⟩ => .isTrue trivial
  | ⟨.write _, .ready (.ok _)⟩ | ⟨.flush, .ready (.ok _)⟩ => .isFalse id
  | ⟨.write _, .pending⟩ | ⟨.flush, .pending⟩ => .isFalse id

/-! ## The state machine -/

/-- `State`. -/
inductive State where
  | write
  | flush (wrote : ℕ)
deriving Repr, DecidableEq

/-- One pass of the loop in `poll_write`. -/
def pass (env : Environment pushInterface) (buf : Bytes) (x : State × Log pushInterface) :
    (State × Log pushInterface) × Option (Outcome (IoResult ℕ)) :=
  match x.1 with
  | .write =>
      let log := env.record x.2 (PushCall.write buf)
      match env x.2 (PushCall.write buf) with
      | .pending => ((x.1, log), some (.returned .pending))
      | .ready (.error e) => ((x.1, log), some (.returned (.ready (.error e))))
      | .ready (.ok wrote) => ((.flush wrote, log), none)
  | .flush wrote =>
      let log := env.record x.2 PushCall.flush
      match env x.2 PushCall.flush with
      | .pending => ((x.1, log), some (.returned .pending))
      | .ready (.error e) => ((x.1, log), some (.returned (.ready (.error e))))
      | .ready (.ok _) => ((.write, log), some (.returned (.ready (.ok wrote))))

/-- `poll_write`, whose loop makes at most two passes. -/
def pollWrite : Poller pushInterface State Bytes (IoResult ℕ) :=
  fun env buf x => loopN (pass env buf) 2 x

/-- A run of `poll_write` calls. -/
abbrev Run := Session pushInterface State Bytes (IoResult ℕ)

/-! ## What a run should be like -/

/-- The bytes a call has acknowledged. -/
def acknowledgedBy (call : Served pushInterface State Bytes (IoResult ℕ)) : Bytes :=
  match call.result with
  | .ok n => call.arg.take n
  | .error _ => []

/-- The bytes all calls have acknowledged. -/
def acknowledged (s : Run) : Bytes :=
  s.served.flatMap acknowledgedBy

/-- The bytes that are accepted and not yet acknowledged: those of a call that waits for its
flush. -/
def inFlight (s : Run) : Bytes :=
  match s.outstanding, s.state with
  | some (buf, _), .flush wrote => buf.take wrote
  | _, _ => []

/-- A call that has done what it was asked to: the bytes it acknowledges are the ones that were
accepted in it, and they were flushed before it returned. -/
structure Pushed (call : Served pushInterface State Bytes (IoResult ℕ)) (n : ℕ) : Prop where
  result : call.result = .ok n
  bounded : n ≤ call.arg.length
  accepted : accepted call.events = call.arg.take n
  flushed : FollowedBy Accepts Flushes call.events

/-! ## One poll -/

section Poll

variable {env : Environment pushInterface} {buf : Bytes} {x x' : State × Log pushInterface}

theorem accepted_append (events later : Log pushInterface) :
    accepted (events ++ later) = accepted events ++ accepted later :=
  List.flatMap_append

theorem accepted_snoc (events : Log pushInterface) (event : Event pushInterface) :
    accepted (events ++ [event]) = accepted events ++ acceptedBy event := by
  rw [accepted_append]
  simp [accepted]

/-- Inside a call: the state says what has been accepted in it. -/
def Mid (buf : Bytes) (x : State × Log pushInterface) : Prop :=
  match x.1 with
  | .write => accepted x.2 = []
  | .flush wrote => wrote ≤ buf.length ∧ accepted x.2 = buf.take wrote

/-- How a poll may end. -/
def Left (buf : Bytes) (x : State × Log pushInterface) : Outcome (IoResult ℕ) → Prop
  | .returned (.ready (.ok n)) => x.1 = .write ∧ n ≤ buf.length ∧
      accepted x.2 = buf.take n ∧ FollowedBy Accepts Flushes x.2
  | .returned (.ready (.error _)) => ∃ event ∈ x.2, Failure event
  | .returned .pending => Mid buf x
  | .panicked => False
  | .running => False

/-- **The step lemma.** -/
theorem Mid.pass (mid : Mid buf x) :
    Goes (Mid buf) (Left buf) (PushingStream.pass env buf x) := by
  obtain ⟨state, log⟩ := x
  cases state with
  | write =>
      have hnone : accepted log = [] := mid
      simp only [PushingStream.pass, Environment.record]
      rcases env log (PushCall.write buf) with (e | ⟨n, hn⟩) | _
      · exact ⟨_, List.mem_append_right _ (List.mem_singleton_self _), trivial⟩
      · refine ⟨hn, ?_⟩
        show accepted (log ++ [_]) = _
        rw [accepted_snoc, hnone]
        rfl
      · show accepted (log ++ [_]) = []
        rw [accepted_snoc, hnone]
        rfl
  | flush wrote =>
      obtain ⟨hbound, haccepted⟩ := mid
      simp only [PushingStream.pass, Environment.record]
      have hsame : ∀ answer, accepted (log ++ [⟨PushCall.flush, answer⟩]) = buf.take wrote := by
        intro answer
        rw [accepted_snoc]
        exact (List.append_nil _).trans haccepted
      rcases env log PushCall.flush with (e | u) | _
      · exact ⟨_, List.mem_append_right _ (List.mem_singleton_self _), trivial⟩
      · exact ⟨rfl, hbound, hsame _, .snoc (fun h => absurd trivial h) id⟩
      · exact ⟨hbound, hsame _⟩

/-- How far a call is from its end. -/
def distance (x : State × Log pushInterface) : ℕ :=
  match x.1 with
  | .write => 1
  | .flush _ => 0

/-- Only the write goes round again. -/
theorem distance_pass (h : pass env buf x = (x', none)) : distance x' < distance x := by
  obtain ⟨state, log⟩ := x
  cases state with
  | write =>
      unfold pass at h
      dsimp only at h
      split at h <;> simp only [Prod.mk.injEq, reduceCtorEq, and_false, and_true] at h
      subst h
      exact Nat.zero_lt_one
  | flush wrote =>
      unfold pass at h
      dsimp only at h
      split at h <;> simp only [Prod.mk.injEq, reduceCtorEq, and_false] at h

/-- The spec of `poll_write`: it returns, as `Left` says. -/
theorem Mid.pollWrite (mid : Mid buf x) {outcome : Outcome (IoResult ℕ)}
    (h : PushingStream.pollWrite env buf x = (x', outcome)) : Left buf x' outcome := by
  have hdist : distance x < 2 := by
    unfold distance
    split <;> decide
  have hloop := loopN_leaves (PushingStream.pass env buf) (m := distance)
    (fun _ mid => Mid.pass mid) (fun _ _ _ h => distance_pass h) 2 x mid hdist
  unfold PushingStream.pollWrite at h
  rwa [h] at hloop

/-- Polls only add to the log of their call. -/
theorem prefix_pollWrite (env : Environment pushInterface) (buf : Bytes)
    (x : State × Log pushInterface) : x.2 <+: (pollWrite env buf x).1.2 := by
  refine loopN_keeps (P := fun y : State × Log pushInterface => x.2 <+: y.2) ?_ 2 List.prefix_rfl
  rintro ⟨state, log⟩ hy
  have hmore : ∀ event, x.2 <+: log ++ [event] := fun event =>
    hy.trans (List.prefix_append _ _)
  cases state with
  | write =>
      simp only [pass, Environment.record]
      rcases env log (PushCall.write buf) with (e | n) | _ <;> exact hmore _
  | flush wrote =>
      simp only [pass, Environment.record]
      rcases env log PushCall.flush with (e | u) | _ <;> exact hmore _

end Poll

/-! ## All runs -/

section Runs

variable {env : Environment pushInterface} {s : Run}

/-- In a run without failures the calls are pushed one by one. -/
theorem run_of_no_failure (reach : Session.Reach pollWrite env .write s)
    (fine : ∀ event ∈ s.log, ¬ Failure event) :
    s.broken = false ∧ (s.outstanding = none → s.state = .write) ∧
      (∀ buf events, s.outstanding = some (buf, events) → Mid buf (s.state, events)) ∧
      ∀ call ∈ s.served, ∃ n, Pushed call n := by
  refine Session.Reach.rule (A := fun state => state = State.write) (B := Mid)
    ?init ?enter prefix_pollWrite ?pending ?ready ?returns reach fine
  case init => rfl
  case enter =>
    rintro buf state rfl
    exact rfl
  case pending =>
    intro env buf x x' mid _ h
    exact mid.pollWrite h
  case ready =>
    intro env buf x x' result mid hfine h
    have hleft := mid.pollWrite h
    cases result with
    | error e =>
        obtain ⟨event, mem, failure⟩ := hleft
        exact absurd failure (hfine event mem)
    | ok n =>
        obtain ⟨hstate, hbound, haccepted, hflushed⟩ := hleft
        exact ⟨hstate, n, rfl, hbound, haccepted, hflushed⟩
  case returns =>
    intro env buf x x' outcome mid _ h
    have hleft := mid.pollWrite h
    cases outcome with
    | returned answer => exact ⟨answer, rfl⟩
    | panicked | running => exact hleft.elim

/-- What is accepted in calls that are pushed is what they acknowledge. -/
theorem accepted_served {served : List (Served pushInterface State Bytes (IoResult ℕ))}
    (h : ∀ call ∈ served, ∃ n, Pushed call n) :
    accepted (served.flatMap Served.events) = served.flatMap acknowledgedBy := by
  induction served with
  | nil => rfl
  | cons call served ih =>
      obtain ⟨n, hpushed⟩ := h call List.mem_cons_self
      have hcall : acknowledgedBy call = call.arg.take n := by
        unfold acknowledgedBy
        rw [hpushed.result]
      rw [List.flatMap_cons, List.flatMap_cons, accepted_append, hpushed.accepted, hcall,
        ih fun call mem => h call (List.mem_cons_of_mem _ mem)]

/-- The outstanding call has put into the stream what is in flight. -/
theorem accepted_current
    (busy : ∀ buf events, s.outstanding = some (buf, events) → Mid buf (s.state, events)) :
    accepted s.current = inFlight s := by
  unfold Session.current inFlight
  cases hout : s.outstanding with
  | none => rfl
  | some call =>
      have mid := busy call.1 call.2 hout
      cases hstate : s.state with
      | write =>
          rw [hstate] at mid
          exact mid
      | flush wrote =>
          rw [hstate] at mid
          exact mid.2

end Runs

/-- **What is acknowledged is what was accepted, and it has been flushed.**  In every run of
`poll_write` calls in which a pending call is repeated with its buffer and nothing inside
fails: the bytes that the stream inside has accepted are the acknowledged prefixes of the
buffers, in order, followed by what a call that waits for its flush has written; between two
calls these are none.  Every call that has returned acknowledges at most its buffer, exactly
what was accepted in it, and after a flush that came after that. -/
theorem pushed_exactly (env : Environment pushInterface) (s : Run)
    (reach : Session.Reach pollWrite env .write s)
    (fine : ∀ event ∈ s.log, ¬ Failure event) :
    s.broken = false ∧ accepted s.log = acknowledged s ++ inFlight s ∧
      (s.outstanding = none → accepted s.log = acknowledged s) ∧
      ∀ call ∈ s.served, ∃ n, Pushed call n := by
  obtain ⟨unbroken, -, busy, served⟩ := run_of_no_failure reach fine
  have hall : accepted s.log = acknowledged s ++ inFlight s := by
    unfold Session.log acknowledged
    rw [accepted_append, reach.past_eq, accepted_served served, accepted_current busy]
  refine ⟨unbroken, hall, fun hnone => ?_, served⟩
  rw [hall]
  unfold inFlight
  rw [hnone]
  exact List.append_nil _

/-- A stream that takes one byte at a time and has to be asked twice for every flush. -/
def slowFlush : Environment pushInterface := fun log call =>
  match call with
  | .write buf => .ready (.ok ⟨min 1 buf.length, Nat.min_le_right _ _⟩)
  | .flush => if log.length % 3 = 1 then .pending else .ready (.ok ())

/-- Two bytes are written in two calls of two polls each. -/
theorem pushed_exactly_slowFlush :
    ∃ s, Session.Reach pollWrite slowFlush .write s ∧ s.served.length = 2 ∧
      acknowledged s = [7, 8] ∧ accepted s.log = acknowledged s ∧
      ∀ call ∈ s.served, ∃ n, Pushed call n := by
  have reach : Session.Reach pollWrite slowFlush .write
      (((((Session.start .write : Run).call pollWrite slowFlush [7, 8]).call
        pollWrite slowFlush [7, 8]).call pollWrite slowFlush [8]).call
        pollWrite slowFlush [8]) :=
    .call _ (.call _ (.call _ (.call _ .start (by decide)) (by decide)) (by decide)) (by decide)
  obtain ⟨-, -, hequal, hserved⟩ := pushed_exactly slowFlush _ reach (by decide)
  exact ⟨_, reach, rfl, by decide, hequal rfl, hserved⟩

end PushingStream

end RabbitDigger
