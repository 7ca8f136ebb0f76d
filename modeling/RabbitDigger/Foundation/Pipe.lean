import RabbitDigger.Foundation.Transition
import Mathlib.Data.List.Infix

/-!
# Pipes

A pipe moves values from a source to a sink.  What it does is a **trace** of
events: it receives values or learns that there are no more, it hands values on,
it flushes the sink and it closes it.  Attempts that come to nothing are events
too (`receive []`, `send []`, `flush false`, `close false`), because what a pipe
must *not* do any more — read a source that has ended, write to a sink it is
closing — is about attempts.

`pipe` is the abstract machine: it keeps the values in flight and one of four
phases.  `orderly_of_run` is what every trace it accepts is like:

* **balance** — what was received is what was sent followed by what is in flight;
* **no receipt after the end**, and **nothing but closing once closing has begun**;
* a pipe that is closed has sent everything it received, has flushed after that,
  and closed after the flush.

A component is shown to be a pipe by exhibiting its state of the machine and
showing that its own trace leads there.
-/

namespace Pipe

open Transition

universe u

/-- What a pipe does. -/
inductive Event (α : Type u) where
  /-- An attempt to receive, and what it gave. -/
  | receive (got : List α)
  /-- The source has ended. -/
  | eof
  /-- An attempt to send, and what the sink took. -/
  | send (taken : List α)
  /-- An attempt to flush the sink. -/
  | flush (done : Bool)
  /-- An attempt to close the sink. -/
  | close (done : Bool)

namespace Event

variable {α : Type u}

/-- The event reads the source. -/
def Reads : Event α → Prop
  | .receive _ | .eof => True
  | _ => False

/-- The event closes the sink, or tries to. -/
def Closes : Event α → Prop
  | .close _ => True
  | _ => False

/-- The values an event brings in. -/
def got : Event α → List α
  | .receive values => values
  | _ => []

/-- The values an event hands on. -/
def taken : Event α → List α
  | .send values => values
  | _ => []

end Event

/-- How far a pipe is. -/
inductive Phase where
  | flowing
  /-- The source has ended. -/
  | draining
  /-- Everything has been sent and flushed. -/
  | closing
  | closed
deriving Repr, DecidableEq

/-- The state of a pipe: the values in flight and the phase. -/
structure State (α : Type u) where
  inFlight : List α
  phase : Phase

section Machine

variable {α : Type u} [DecidableEq α]

/-- One event of a pipe. -/
def step : State α → Event α → Option (State α)
  | ⟨queue, .flowing⟩, .receive got => some ⟨queue ++ got, .flowing⟩
  | ⟨queue, .flowing⟩, .eof => some ⟨queue, .draining⟩
  | ⟨queue, .flowing⟩, .send taken =>
      if taken <+: queue then some ⟨queue.drop taken.length, .flowing⟩ else none
  | ⟨queue, .flowing⟩, .flush _ => some ⟨queue, .flowing⟩
  | ⟨queue, .draining⟩, .send taken =>
      if taken <+: queue then some ⟨queue.drop taken.length, .draining⟩ else none
  | ⟨queue, .draining⟩, .flush done =>
      some ⟨queue, if done ∧ queue = [] then .closing else .draining⟩
  | ⟨queue, .closing⟩, .close done => some ⟨queue, if done then .closed else .closing⟩
  | _, _ => none

variable (α) in
/-- The pipe, empty and flowing. -/
def pipe : System (State α) (Event α) where
  init := ⟨[], .flowing⟩
  step := step

end Machine

variable {α : Type u}

/-- Everything a trace received. -/
def received (trace : List (Event α)) : List α :=
  trace.flatMap Event.got

/-- Everything a trace sent. -/
def sent (trace : List (Event α)) : List α :=
  trace.flatMap Event.taken

@[simp] theorem received_append (trace later : List (Event α)) :
    received (trace ++ later) = received trace ++ received later :=
  List.flatMap_append

@[simp] theorem sent_append (trace later : List (Event α)) :
    sent (trace ++ later) = sent trace ++ sent later :=
  List.flatMap_append

@[simp] theorem received_singleton (event : Event α) : received [event] = event.got := by
  simp [received]

@[simp] theorem sent_singleton (event : Event α) : sent [event] = event.taken := by
  simp [sent]

/-- The trace of a pipe that has sent and flushed everything, and has tried to
close as often as `tries` says. -/
def Flushed (trace tries : List (Event α)) : Prop :=
  ∃ before, trace = before ++ .flush true :: tries ∧ .eof ∈ before ∧
    received before = sent before

/-- A finished pipe: the source ended, everything received was sent, the sink was
flushed after that, and then closed. -/
def Finished (trace : List (Event α)) : Prop :=
  ∃ tries, Flushed trace (tries ++ [.close true]) ∧ ∀ event ∈ tries, event = .close false

/-- What the phase says about the trace. -/
def PhaseHolds (trace : List (Event α)) : Phase → Prop
  | .flowing => (∀ event ∈ trace, event ≠ .eof) ∧ ∀ event ∈ trace, ¬ event.Closes
  | .draining => .eof ∈ trace ∧ ∀ event ∈ trace, ¬ event.Closes
  | .closing => ∃ tries, Flushed trace tries ∧ ∀ event ∈ tries, event = .close false
  | .closed => Finished trace

/-- What the traces of a pipe are like. -/
structure Orderly (trace : List (Event α)) (s : State α) : Prop where
  balance : received trace = sent trace ++ s.inFlight
  /-- No read of the source once it has ended. -/
  afterEof : trace.Pairwise fun earlier later => earlier = .eof → ¬ later.Reads
  /-- Nothing but closing once closing has begun. -/
  afterClose : trace.Pairwise fun earlier later => earlier.Closes → later.Closes
  phase : PhaseHolds trace s.phase

namespace Orderly

variable {trace : List (Event α)} {s s' : State α} {event : Event α}

/-- What was sent is a prefix of what was received. -/
theorem sent_prefix (orderly : Orderly trace s) : sent trace <+: received trace := by
  rw [orderly.balance]
  exact List.prefix_append _ _

/-- A closed pipe is finished. -/
theorem finished (orderly : Orderly trace s) (h : s.phase = .closed) :
    Finished trace := by
  have hphase := orderly.phase
  rwa [h] at hphase

theorem nil : Orderly ([] : List (Event α)) ⟨[], .flowing⟩ :=
  ⟨rfl, .nil, .nil, by simp [PhaseHolds]⟩

/-- Another event keeps an order between earlier and later events, if it stands in
that relation to all earlier ones. -/
theorem pairwise_snoc {R : Event α → Event α → Prop} (h : trace.Pairwise R)
    (hnew : ∀ earlier ∈ trace, R earlier event) : (trace ++ [event]).Pairwise R := by
  rw [List.pairwise_append]
  refine ⟨h, List.pairwise_singleton _ _, fun earlier mem later hlater => ?_⟩
  rw [List.mem_singleton.mp hlater]
  exact hnew earlier mem

variable [DecidableEq α]

/-- **The step lemma.** -/
theorem step (orderly : Orderly trace s) (h : Pipe.step s event = some s') :
    Orderly (trace ++ [event]) s' := by
  obtain ⟨queue, phase⟩ := s
  obtain ⟨balance, afterEof, afterClose, hphase⟩ := orderly
  simp only at balance
  -- an event that reads nothing, before closing has begun, disturbs no order
  have early : (∀ e ∈ trace, ¬ e.Closes) → (trace ++ [event]).Pairwise
      fun earlier later => earlier.Closes → later.Closes := fun hopen =>
    pairwise_snoc afterClose fun e mem hcloses => absurd hcloses (hopen e mem)
  have quiet : ¬ event.Reads → (trace ++ [event]).Pairwise
      fun earlier later => earlier = .eof → ¬ later.Reads := fun hreads =>
    pairwise_snoc afterEof fun _ _ _ => hreads
  have keep : (∀ e ∈ trace, ¬ e.Closes) → ¬ event.Closes →
      ∀ e ∈ trace ++ [event], ¬ e.Closes := by
    intro hopen hevent e mem
    rcases List.mem_append.mp mem with mem | mem
    · exact hopen e mem
    · rw [List.mem_singleton.mp mem]
      exact hevent
  cases phase with
  | flowing =>
      obtain ⟨hflow, hopen⟩ := hphase
      have beforeEof : (trace ++ [event]).Pairwise
          fun earlier later => earlier = .eof → ¬ later.Reads :=
        pairwise_snoc afterEof fun e mem heof => absurd heof (hflow e mem)
      have flow : event ≠ .eof → ∀ e ∈ trace ++ [event], e ≠ .eof := by
        intro hevent e mem
        rcases List.mem_append.mp mem with mem | mem
        · exact hflow e mem
        · rw [List.mem_singleton.mp mem]
          exact hevent
      cases event with
      | receive | flush =>
          cases h
          refine ⟨?_, beforeEof, early hopen, flow (by simp), keep hopen id⟩
          simp [balance, Event.got, Event.taken]
      | eof =>
          cases h
          refine ⟨?_, beforeEof, early hopen, by simp, keep hopen id⟩
          simp [balance, Event.got, Event.taken]
      | send taken =>
          simp only [Pipe.step] at h
          split at h
          · rename_i hprefix
            cases h
            obtain ⟨rest, rfl⟩ := hprefix
            refine ⟨?_, beforeEof, early hopen, flow (by simp), keep hopen id⟩
            simp [balance, Event.got, Event.taken]
          · cases h
      | close done => cases h
  | draining =>
      obtain ⟨heof, hopen⟩ := hphase
      cases event with
      | receive | eof | close => cases h
      | send taken =>
          simp only [Pipe.step] at h
          split at h
          · rename_i hprefix
            cases h
            obtain ⟨rest, rfl⟩ := hprefix
            refine ⟨?_, quiet id, early hopen, by simp [heof], keep hopen id⟩
            simp [balance, Event.got, Event.taken]
          · cases h
      | flush done =>
          cases h
          refine ⟨by simp [balance, Event.got, Event.taken], quiet id, early hopen, ?_⟩
          show PhaseHolds _ (if done = true ∧ queue = [] then .closing else .draining)
          split
          · rename_i hdone
            obtain ⟨rfl, rfl⟩ := hdone
            exact ⟨[], ⟨trace, rfl, heof, by simpa using balance⟩, by simp⟩
          · exact ⟨by simp [heof], keep hopen id⟩
  | closing =>
      obtain ⟨tries, ⟨before, rfl, heof, hsent⟩, htries⟩ := hphase
      cases event with
      | receive | eof | send | flush => cases h
      | close done =>
          cases h
          have hbalance : received ((before ++ .flush true :: tries) ++ [.close done])
              = sent ((before ++ .flush true :: tries) ++ [.close done]) ++ queue := by
            rw [received_append, sent_append, balance]
            simp [Event.got, Event.taken]
          refine ⟨hbalance, quiet id, pairwise_snoc afterClose fun _ _ _ => trivial, ?_⟩
          have hflushed : Flushed ((before ++ .flush true :: tries) ++ [.close done])
              (tries ++ [.close done]) :=
            ⟨before, by simp, heof, hsent⟩
          cases done with
          | false =>
              refine ⟨_, hflushed, fun e mem => ?_⟩
              rcases List.mem_append.mp mem with mem | mem
              · exact htries e mem
              · exact List.mem_singleton.mp mem
          | true => exact ⟨tries, hflushed, htries⟩
  | closed => cases event <;> cases h

end Orderly

/-- A pipe read off a longer log: one more entry is one more step. -/
theorem run_filterMap_snoc [DecidableEq α] {β : Type*} {f : β → Option (Event α)}
    {log : List β} {entry : β} {event : Event α} {s s' : State α}
    (hrun : (pipe α).run (log.filterMap f) = some s) (hentry : f entry = some event)
    (hstep : step s event = some s') :
    (pipe α).run ((log ++ [entry]).filterMap f) = some s' := by
  rw [List.filterMap_append, List.filterMap_cons_some hentry, List.filterMap_nil,
    System.run_snoc, hrun]
  exact hstep

/-- **Every trace of a pipe is orderly.** -/
theorem orderly_of_run [DecidableEq α] {trace : List (Event α)} {s : State α}
    (h : (pipe α).run trace = some s) : Orderly trace s := by
  induction trace using List.reverseRecOn generalizing s with
  | nil =>
      cases h
      exact .nil
  | append_singleton trace event ih =>
      rw [System.run_snoc, Option.bind_eq_some_iff] at h
      obtain ⟨t, ht, hstep⟩ := h
      exact (ih ht).step hstep

end Pipe
