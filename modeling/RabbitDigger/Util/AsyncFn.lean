import Mathlib.Data.List.Infix
import RabbitDigger.Foundation.Polling
import RabbitDigger.Foundation.Transition
import RabbitDigger.Interface.ReadBuf

/-!
# Readers and writers made of async functions

`rd-std/src/util/async_fn.rs`: `AsyncFnIO` makes a stream out of an object with async functions
`read(size)` and `write(buf)`.  A poll starts such a function and keeps its future
(`PollAsyncFn`) until it is done.  **The future has captured the size or the bytes of the call
that started it**, and its result is given to the call that finds it done, whose buffer may be
another one.

The inner object answers at each poll of a future (`Poll`), within what it was asked for: a read
of at most the captured size, a write of at most the captured bytes.  The bytes that its reads
have returned and its writes have accepted are recorded beside the object, together with what the
callers have seen of it (`Run`).

`async_fn_faithful`: as long as a call that finds a future pending brings **at least the room that
the future was started with**, or **a buffer that begins with the bytes it was started with**
(`Resumes`), nothing panics and nothing is lost, and a caller is told of what has been written.
The condition is exact: for every other call there is an answer of the inner object that breaks
one of the two.
-/

namespace RabbitDigger.AsyncFn

open Polling Transition

/-! ## Futures -/

/-- `PollAsyncFn`: the arguments that a pending future was started with. -/
structure PollAsyncFn (α : Type) where
  fut : Option α
deriving Repr, DecidableEq

namespace PollAsyncFn

variable {α ρ : Type}

/-- `PollAsyncFn::new`. -/
def new : PollAsyncFn α := ⟨none⟩

/-- The arguments of the future that is polled: `f` is called only if there is none. -/
def polled (self : PollAsyncFn α) (f : α) : α := self.fut.getD f

/-- `poll_next`, when the future that is polled answers. -/
def pollNext (self : PollAsyncFn α) (f : α) (answer : Poll ρ) : PollAsyncFn α × Poll ρ :=
  match answer with
  | .ready r => (⟨none⟩, .ready r)
  | .pending => (⟨some (self.polled f)⟩, .pending)

end PollAsyncFn

/-! ## The stream -/

/-- `AsyncFnIO`, without its inner object. -/
structure AsyncFnIO where
  readFut : PollAsyncFn ℕ
  writeFut : PollAsyncFn Bytes
  flushFut : PollAsyncFn Unit
  shutdownFut : PollAsyncFn Unit
deriving Repr, DecidableEq

namespace AsyncFnIO

/-- `AsyncFnIO::new`. -/
def new : AsyncFnIO := ⟨.new, .new, .new, .new⟩

/-- `poll_write`. -/
def pollWrite (io : AsyncFnIO) (buf : Bytes) (answer : Poll (IoResult ℕ)) :
    AsyncFnIO × Poll (IoResult ℕ) :=
  let (writeFut, r) := io.writeFut.pollNext buf answer
  ({ io with writeFut }, r)

/-- `poll_flush`. -/
def pollFlush (io : AsyncFnIO) (answer : Poll (IoResult Unit)) : AsyncFnIO × Poll (IoResult Unit) :=
  let (flushFut, r) := io.flushFut.pollNext () answer
  ({ io with flushFut }, r)

/-- `poll_shutdown`. -/
def pollShutdown (io : AsyncFnIO) (answer : Poll (IoResult Unit)) :
    AsyncFnIO × Poll (IoResult Unit) :=
  let (shutdownFut, r) := io.shutdownFut.pollNext () answer
  ({ io with shutdownFut }, r)

/-- `poll_read`; `none` is the panic of `initialize_unfilled_to`. -/
def pollRead (io : AsyncFnIO) (readBuf : ReadBuf) (answer : Poll (IoResult Bytes)) :
    AsyncFnIO × Option (Poll (IoResult Unit) × ReadBuf) :=
  let (readFut, r) := io.readFut.pollNext readBuf.remaining answer
  let io := { io with readFut }
  match r with
  | .pending => (io, some (.pending, readBuf))
  | .ready (.error e) => (io, some (.ready (.error e), readBuf))
  | .ready (.ok buf) =>
      if buf.length ≤ readBuf.remaining then (io, some (.ready (.ok ()), readBuf.put buf))
      else (io, none)

end AsyncFnIO

/-! ## Runs -/

/-- A call, with the answer of the future that it polls. -/
inductive Op where
  | pollRead (buf : ReadBuf) (answer : Poll (IoResult Bytes))
  | pollWrite (buf : Bytes) (answer : Poll (IoResult ℕ))
  | pollFlush (answer : Poll (IoResult Unit))
  | pollShutdown (answer : Poll (IoResult Unit))

/-- How a call has ended. -/
inductive Call where
  | read (ended : Option (Poll (IoResult Unit) × ReadBuf))
  | write (buf : Bytes) (ended : Poll (IoResult ℕ))
  | other (ended : Poll (IoResult Unit))

/-- A stream with its history: how its calls have ended, the bytes that the inner reads have
returned, the bytes that were put into the buffers of callers, the bytes that the inner writes have
accepted, and the bytes that callers have been told are written. -/
structure Run where
  io : AsyncFnIO
  calls : List Call
  returned : Bytes
  delivered : Bytes
  written : Bytes
  acknowledged : Bytes

/-- The inner object answers within what it was asked for. -/
def Fits (io : AsyncFnIO) : Op → Bool
  | .pollRead buf (.ready (.ok data)) => data.length ≤ io.readFut.polled buf.remaining
  | .pollWrite buf (.ready (.ok n)) => n ≤ (io.writeFut.polled buf).length
  | _ => true

/-- The bytes that an inner read returns with an answer. -/
def readBytes : Poll (IoResult Bytes) → Bytes
  | .ready (.ok data) => data
  | _ => []

/-- The first bytes of a buffer, as many as an answer says. -/
def writtenOf (buf : Bytes) : Poll (IoResult ℕ) → Bytes
  | .ready (.ok n) => buf.take n
  | _ => []

/-- The bytes that a call has put into a buffer. -/
def putInto (before : ReadBuf) : Option (Poll (IoResult Unit) × ReadBuf) → Bytes
  | some (_, after) => after.filled.drop before.filled.length
  | none => []

/-- One call. -/
def Run.step (s : Run) (op : Op) : Option Run :=
  if Fits s.io op then
    match op with
    | .pollRead buf answer =>
        let (io, ended) := s.io.pollRead buf answer
        some { s with
          io
          calls := s.calls ++ [.read ended]
          returned := s.returned ++ readBytes answer
          delivered := s.delivered ++ putInto buf ended }
    | .pollWrite buf answer =>
        let (io, ended) := s.io.pollWrite buf answer
        some { s with
          io
          calls := s.calls ++ [.write buf ended]
          written := s.written ++ writtenOf (s.io.writeFut.polled buf) answer
          acknowledged := s.acknowledged ++ writtenOf buf ended }
    | .pollFlush answer =>
        let (io, ended) := s.io.pollFlush answer
        some { s with io, calls := s.calls ++ [.other ended] }
    | .pollShutdown answer =>
        let (io, ended) := s.io.pollShutdown answer
        some { s with io, calls := s.calls ++ [.other ended] }
  else none

/-- A new stream. -/
def system : System Run Op := ⟨⟨.new, [], [], [], [], []⟩, Run.step⟩

/-- **What callers can rely on.**  No read panics and no write is said to be longer than its
buffer; the bytes that the inner reads returned have been delivered, and the bytes that were
acknowledged have been written, in order and once. -/
structure Faithful (s : Run) : Prop where
  calm : ∀ ended, Call.read ended ∈ s.calls → ended ≠ none
  within : ∀ buf n, Call.write buf (.ready (.ok n)) ∈ s.calls → n ≤ buf.length
  delivered : s.delivered = s.returned
  acknowledged : s.acknowledged = s.written

/-- **A call that finds a future pending brings what it was started with**: as much room, or a
buffer that begins with the same bytes. -/
def Resumes (s : Run) : Op → Prop
  | .pollRead buf _ => ∀ size, s.io.readFut.fut = some size → size ≤ buf.remaining
  | .pollWrite buf _ => ∀ captured, s.io.writeFut.fut = some captured → captured <+: buf
  | _ => True

/-! ## One call -/

/-- A result is passed on as it is. -/
theorem PollAsyncFn.pollNext_snd {α ρ : Type} (self : PollAsyncFn α) (f : α) (answer : Poll ρ) :
    (self.pollNext f answer).2 = answer := by
  cases answer <;> rfl

section Calls

variable {io : AsyncFnIO}

theorem pollWrite_snd (buf : Bytes) (answer : Poll (IoResult ℕ)) :
    (io.pollWrite buf answer).2 = answer :=
  io.writeFut.pollNext_snd buf answer

/-- A read that has enough room. -/
theorem pollRead_ok {buf : ReadBuf} {data : Bytes} (h : data.length ≤ buf.remaining) :
    (io.pollRead buf (.ready (.ok data))).2 = some (.ready (.ok ()), buf.put data) := by
  show (if _ then _ else _ : AsyncFnIO × _).2 = _
  rw [if_pos h]

/-- **Enough room for the future is enough room for its result**, which is then delivered
whole. -/
theorem pollRead_delivers {buf : ReadBuf} {answer : Poll (IoResult Bytes)}
    (hroom : ∀ size, io.readFut.fut = some size → size ≤ buf.remaining)
    (hfits : Fits io (.pollRead buf answer) = true) :
    (io.pollRead buf answer).2 ≠ none ∧
      putInto buf (io.pollRead buf answer).2 = readBytes answer := by
  rcases answer with (e | data) | _
  · exact ⟨Option.some_ne_none _, List.drop_length⟩
  · have hpolled : io.readFut.polled buf.remaining ≤ buf.remaining := by
      unfold PollAsyncFn.polled
      cases hfut : io.readFut.fut with
      | none => exact le_rfl
      | some size => exact hroom size hfut
    have hlength : data.length ≤ buf.remaining := (of_decide_eq_true hfits).trans hpolled
    rw [pollRead_ok hlength]
    refine ⟨Option.some_ne_none _, ?_⟩
    show (buf.put data).filled.drop buf.filled.length = data
    rw [ReadBuf.filled_put_of_le hlength, List.drop_left]
  · exact ⟨Option.some_ne_none _, List.drop_length⟩

/-- **Bytes that both buffers begin with are the same bytes in both.** -/
theorem pollWrite_acknowledges {buf : Bytes} {answer : Poll (IoResult ℕ)}
    (hsame : ∀ captured, io.writeFut.fut = some captured → captured <+: buf)
    (hfits : Fits io (.pollWrite buf answer) = true) :
    writtenOf buf (io.pollWrite buf answer).2 = writtenOf (io.writeFut.polled buf) answer ∧
      ∀ n, (io.pollWrite buf answer).2 = .ready (.ok n) → n ≤ buf.length := by
  rw [pollWrite_snd]
  have hbegins : io.writeFut.polled buf <+: buf := by
    unfold PollAsyncFn.polled
    cases hfut : io.writeFut.fut with
    | none => exact List.prefix_rfl
    | some captured => exact hsame captured hfut
  rcases answer with (e | n) | _
  · exact ⟨rfl, fun n h => by cases h⟩
  · have hn : n ≤ (io.writeFut.polled buf).length := of_decide_eq_true hfits
    constructor
    · obtain ⟨rest, hrest⟩ := hbegins
      exact (congrArg (List.take n) hrest).symm.trans (List.take_append_of_le_length hn)
    · rintro _ ⟨⟩
      exact hn.trans hbegins.length_le
  · exact ⟨rfl, fun n h => by cases h⟩

end Calls

/-! ## All calls -/

/-- A call that ends as callers can rely on. -/
theorem Faithful.call {s s' : Run} (h : Faithful s) {call : Call}
    (hcalls : s'.calls = s.calls ++ [call]) (hcalm : call ≠ .read none)
    (hwithin : ∀ buf n, call = .write buf (.ready (.ok n)) → n ≤ buf.length)
    (hdelivered : s'.delivered = s'.returned) (hacknowledged : s'.acknowledged = s'.written) :
    Faithful s' := by
  refine ⟨?_, ?_, hdelivered, hacknowledged⟩
  · rintro ended hmem rfl
    rw [hcalls, List.mem_append, List.mem_singleton] at hmem
    rcases hmem with hold | hnew
    · exact h.calm _ hold rfl
    · exact hcalm hnew.symm
  · intro buf n hmem
    rw [hcalls, List.mem_append, List.mem_singleton] at hmem
    rcases hmem with hold | hnew
    · exact h.within buf n hold
    · exact hwithin buf n hnew.symm

/-- One call that resumes what it finds. -/
theorem Faithful.step {s s' : Run} {op : Op} (h : Faithful s) (hresumes : Resumes s op)
    (hstep : s.step op = some s') : Faithful s' := by
  obtain ⟨hfits, hstep⟩ := Option.ite_none_right_eq_some.mp hstep
  cases op with
  | pollRead buf answer =>
      cases hstep
      obtain ⟨hcalm, hput⟩ := pollRead_delivers hresumes hfits
      refine h.call rfl (fun heq => hcalm (Call.read.inj heq)) nofun ?_ h.acknowledged
      exact congrArg₂ (· ++ ·) h.delivered hput
  | pollWrite buf answer =>
      cases hstep
      obtain ⟨hsame, hwithin⟩ := pollWrite_acknowledges hresumes hfits
      refine h.call rfl nofun ?_ h.delivered ?_
      · intro other n heq
        obtain ⟨rfl, hended⟩ := Call.write.inj heq
        exact hwithin n hended
      · exact congrArg₂ (· ++ ·) h.acknowledged hsame
  | pollFlush | pollShutdown =>
      cases hstep
      exact h.call rfl nofun nofun h.delivered h.acknowledged

/-- **Too little room**: the inner read may return as much as it was asked for, and the call
panics. -/
theorem exists_panic {s : Run} {buf : ReadBuf} {size : ℕ} (hfut : s.io.readFut.fut = some size)
    (hsize : ¬ size ≤ buf.remaining) :
    ∃ answer s', s.step (.pollRead buf answer) = some s' ∧ ¬ Faithful s' := by
  have hpolled : s.io.readFut.polled buf.remaining = size := by
    unfold PollAsyncFn.polled
    rw [hfut, Option.getD_some]
  have hfits : Fits s.io (.pollRead buf (.ready (.ok (List.replicate size 0)))) = true := by
    refine decide_eq_true ?_
    rw [hpolled, List.length_replicate]
  have hpanics : (s.io.pollRead buf (.ready (.ok (List.replicate size 0)))).2 = none := by
    show (if _ then _ else _ : AsyncFnIO × _).2 = none
    rw [if_neg (by rwa [List.length_replicate])]
  refine ⟨.ready (.ok (List.replicate size 0)), _, if_pos hfits, fun h => ?_⟩
  exact h.calm _ (List.mem_append_right _ (List.mem_singleton_self _)) hpanics

/-- **Other bytes**: the inner write may accept all that it was given, which is not what the call
is told has been written. -/
theorem exists_misled {s : Run} {buf captured : Bytes} (h : Faithful s)
    (hfut : s.io.writeFut.fut = some captured) (hother : ¬ captured <+: buf) :
    ∃ answer s', s.step (.pollWrite buf answer) = some s' ∧ ¬ Faithful s' := by
  have hpolled : s.io.writeFut.polled buf = captured := by
    unfold PollAsyncFn.polled
    rw [hfut, Option.getD_some]
  have hfits : Fits s.io (.pollWrite buf (.ready (.ok captured.length))) = true := by
    refine decide_eq_true ?_
    rw [hpolled]
  refine ⟨.ready (.ok captured.length), _, if_pos hfits, fun h' => ?_⟩
  have hsame : s.acknowledged ++ buf.take captured.length
      = s.written ++ (s.io.writeFut.polled buf).take captured.length := h'.acknowledged
  rw [hpolled, List.take_length, h.acknowledged] at hsame
  refine hother ?_
  rw [← List.append_cancel_left hsame]
  exact List.take_prefix _ _

/-- **When the stream is faithful.**  In every run in which each call resumes what it finds, no
read panics, all bytes that the inner reads returned are delivered in order, no write is longer
than its buffer, and what is acknowledged has been written once.  In each of these states a call
that does not resume what it finds can be answered such that one of these fails. -/
theorem async_fn_faithful {s : Run} (reach : system.Reach Resumes s) :
    Faithful s ∧
      (∀ buf answer, ¬ Resumes s (.pollRead buf answer) →
        ∃ answer' s', s.step (.pollRead buf answer') = some s' ∧ ¬ Faithful s') ∧
      ∀ buf answer, ¬ Resumes s (.pollWrite buf answer) →
        ∃ answer' s', s.step (.pollWrite buf answer') = some s' ∧ ¬ Faithful s' := by
  have hinit : Faithful system.init := by
    refine ⟨?_, ?_, rfl, rfl⟩
    · intro ended hmem
      cases hmem
    · intro buf n hmem
      cases hmem
  have hfaithful : Faithful s :=
    System.Reach.invariant hinit (fun _ _ _ h hresumes hstep => h.step hresumes hstep) reach
  refine ⟨hfaithful, fun buf answer hnot => ?_, fun buf answer hnot => ?_⟩
  · simp only [Resumes, not_forall] at hnot
    obtain ⟨size, hfut, hsize⟩ := hnot
    exact exists_panic hfut hsize
  · simp only [Resumes, not_forall] at hnot
    obtain ⟨captured, hfut, hother⟩ := hnot
    exact exists_misled hfaithful hfut hother

/-- A read that is pending and then resumed with more room, and a write that is resumed with more
bytes. -/
theorem async_fn_faithful_resumed : ∃ s, system.Reach Resumes s ∧ Faithful s ∧
    s.delivered = [1, 2] ∧ s.acknowledged = [7, 8] := by
  have reach : system.Reach Resumes _ :=
    .step (.step (.step (.step .init (e := .pollRead (.new 2) .pending) (fun _ h => by cases h) rfl)
      (e := .pollRead (.new 4) (.ready (.ok [1, 2])))
      (fun size h => by cases h; decide) rfl)
      (e := .pollWrite [7, 8] .pending) (fun _ h => by cases h) rfl)
      (e := .pollWrite [7, 8, 9] (.ready (.ok 2))) (fun captured h => by cases h; decide) rfl
  exact ⟨_, reach, (async_fn_faithful reach).1, rfl, rfl⟩

/-- **A read that is abandoned while it waits for four bytes panics when it is resumed with room
for two**, and a write of other bytes is acknowledged though the first ones were written, beyond
the end of its buffer. -/
theorem resumed_with_other_buffers :
    (system.run [.pollRead (.new 4) .pending,
        .pollRead (.new 2) (.ready (.ok [1, 2, 3, 4]))]).map Run.calls
        = some [.read (some (.pending, .new 4)), .read none] ∧
      (system.run [.pollWrite [1, 2, 3] .pending, .pollWrite [9] (.ready (.ok 3))]).map
          (fun s => (s.calls, s.written, s.acknowledged))
        = some ([.write [1, 2, 3] .pending, .write [9] (.ready (.ok 3))], [1, 2, 3], [9]) := by
  exact ⟨rfl, rfl⟩

end RabbitDigger.AsyncFn
