import RabbitDigger.Foundation.Polling
import RabbitDigger.Foundation.Pipe
import RabbitDigger.Interface.Basic

/-!
# The TCP relay

`rd-std/src/context/connect_tcp.rs`: `CopyBidirectional` joins two streams `a` and
`b`.  Each direction is a state machine of its own, a `CopyBuffer` that fills from
the reader and drains into the writer, then a shutdown of the writer; both are
polled one after the other, and the future is done as soon as one of them is.

The streams are the surroundings.  Their answers are typed so that a read gives at
most as many bytes as there is room for and a write takes at most what it was
offered; everything else — `Pending`, short reads and writes, end of file, errors
— is any environment's choice.  A moment of a run (`Polled`) is any number of
polls, the last of them looked at after any number of passes of its copy loop.

**Each direction is a pipe** (`Refines`): its calls, read off the common log by
`trace`, lead the abstract machine of `Foundation.Pipe` to the state `abs` of the
transfer.  The order of reads, writes, flushes and the shutdown is then that of
any pipe.
-/

namespace RabbitDigger

open Polling

/-! ## The streams -/

/-- The two streams of a relay. -/
inductive Side where
  | a
  | b
deriving Repr, DecidableEq

/-- The stream at the other end. -/
def Side.other : Side → Side
  | .a => .b
  | .b => .a

/-- What a relay asks of its streams. -/
inductive StreamCall where
  /-- `poll_read` into a buffer with room for so many bytes. -/
  | read (side : Side) (room : ℕ)
  | write (side : Side) (data : Bytes)
  | flush (side : Side)
  | shutdown (side : Side)
deriving Repr, DecidableEq

/-- The calls of a relay with their answers. -/
def streamInterface : Interface where
  Call := StreamCall
  Answer
    | .read _ room => Poll (IoResult { bytes : Bytes // bytes.length ≤ room })
    | .write _ data => Poll (IoResult { n : ℕ // n ≤ data.length })
    | .flush _ => Poll (IoResult Unit)
    | .shutdown _ => Poll (IoResult Unit)

namespace TcpRelay

/-! ## One direction -/

/-- `CopyBuffer`. -/
structure CopyBuffer where
  readDone : Bool
  needFlush : Bool
  pos : ℕ
  cap : ℕ
  amt : ℕ
  buf : Bytes
deriving Repr, DecidableEq

namespace CopyBuffer

/-- `CopyBuffer::new`. -/
def new (bufferSize : ℕ) : CopyBuffer where
  readDone := false
  needFlush := false
  pos := 0
  cap := 0
  amt := 0
  buf := List.replicate bufferSize 0

/-- `buf[pos..cap]`: the bytes that have been read and not written. -/
def unwritten (me : CopyBuffer) : Bytes :=
  (me.buf.take me.cap).drop me.pos

end CopyBuffer

/-- Where a loop of a direction stands, and the log of all calls. -/
abbrev CopyState := CopyBuffer × Log streamInterface

variable (env : Environment streamInterface) (r w : Side)

/-- "If our buffer is empty, then we need to read some data to continue." -/
def fill (x : CopyState) : CopyState × Option (Outcome (IoResult ℕ)) :=
  let me := x.1
  let read := StreamCall.read r me.buf.length
  let log := env.record x.2 read
  match env x.2 read with
  | .ready (.error e) => ((me, log), some (.returned (.ready (.error e))))
  | .pending =>
      -- try flushing when the reader has no progress to avoid deadlock
      if me.needFlush then
        let log' := env.record log (StreamCall.flush w)
        match env log (StreamCall.flush w) with
        | .pending => ((me, log'), some (.returned .pending))
        | .ready (.error e) => ((me, log'), some (.returned (.ready (.error e))))
        | .ready (.ok ()) =>
            (({ me with needFlush := false }, log'), some (.returned .pending))
      else ((me, log), some (.returned .pending))
  | .ready (.ok bytes) =>
      let n := bytes.val.length
      if n = 0 then (({ me with readDone := true }, log), none)
      else
        (({ me with
            pos := 0
            cap := n
            buf := bytes.val ++ me.buf.drop n }, log), none)

/-- "If our buffer has some data, let's write it out!" -/
def drain (x : CopyState) : CopyState × Option (Outcome (IoResult ℕ)) :=
  let me := x.1
  let write := StreamCall.write w me.unwritten
  let log := env.record x.2 write
  match env x.2 write with
  | .pending => ((me, log), some (.returned .pending))
  | .ready (.error e) => ((me, log), some (.returned (.ready (.error e))))
  | .ready (.ok i) =>
      if i.val = 0 then
        ((me, log), some (.returned (.ready (.error
          { kind := .writeZero, message := "write zero byte into writer" }))))
      else
        (({ me with
            pos := me.pos + i.val
            amt := addU64 me.amt i.val
            needFlush := true }, log), none)

/-- "If we've written all the data and we've seen EOF, flush out the data and
finish the transfer." -/
def finish (x : CopyState) : CopyState × Option (Outcome (IoResult ℕ)) :=
  let me := x.1
  let log := env.record x.2 (StreamCall.flush w)
  match env x.2 (StreamCall.flush w) with
  | .pending => ((me, log), some (.returned .pending))
  | .ready (.error e) => ((me, log), some (.returned (.ready (.error e))))
  | .ready (.ok ()) => ((me, log), some (.returned (.ready (.ok me.amt))))

/-- What the loop of `poll_copy` does next.  Its body is the three blocks in this
order, each behind a condition on the state; as the conditions exclude one another,
taking the block whose condition holds, and then looking again, makes the same
calls — also for the `while` around the second block. -/
def copyPass (x : CopyState) : CopyState × Option (Outcome (IoResult ℕ)) :=
  if x.1.pos = x.1.cap ∧ x.1.readDone = false then fill env r w x
  else if x.1.pos < x.1.cap then drain env w x
  else if x.1.pos = x.1.cap ∧ x.1.readDone = true then finish env w x
  else (x, none)

/-- `CopyBuffer::poll_copy`, for at most `n` passes. -/
def pollCopy (n : ℕ) (x : CopyState) : CopyState × Outcome (IoResult ℕ) :=
  loopN (copyPass env r w) n x

/-- `TransferState`. -/
inductive TransferState where
  | running (buf : CopyBuffer)
  | shuttingDown (count : ℕ)
  | done (count : ℕ)
deriving Repr, DecidableEq

/-- One pass of the loop in `transfer_one_direction`. -/
def transferPass (n : ℕ) (x : TransferState × Log streamInterface) :
    (TransferState × Log streamInterface) × Option (Outcome (IoResult ℕ)) :=
  match x.1 with
  | .running buf =>
      match pollCopy env r w n (buf, x.2) with
      | ((_, log), .returned (.ready (.ok count))) => ((.shuttingDown count, log), none)
      | ((buf, log), outcome) => ((.running buf, log), some outcome)
  | .shuttingDown count =>
      let log := env.record x.2 (StreamCall.shutdown w)
      match env x.2 (StreamCall.shutdown w) with
      | .pending => ((x.1, log), some (.returned .pending))
      | .ready (.error e) => ((x.1, log), some (.returned (.ready (.error e))))
      | .ready (.ok ()) => ((.done count, log), none)
  | .done count => (x, some (.returned (.ready (.ok count))))

/-- `transfer_one_direction`.  The state only moves forward, so its loop makes at
most three passes. -/
def transferOneDirection (n : ℕ) (x : TransferState × Log streamInterface) :
    (TransferState × Log streamInterface) × Outcome (IoResult ℕ) :=
  loopN (transferPass env r w n) 3 x

/-! ## Both directions -/

/-- `CopyBidirectional`, without the streams themselves. -/
structure CopyBidirectional where
  aToB : TransferState
  bToA : TransferState
deriving Repr, DecidableEq

namespace CopyBidirectional

/-- The relay of `connect_tcp`, whose buffers have 8192 bytes. -/
def new (bufferSize : ℕ) : CopyBidirectional where
  aToB := .running (.new bufferSize)
  bToA := .running (.new bufferSize)

/-- The transfer that reads from a side. -/
def transfer (relay : CopyBidirectional) : Side → TransferState
  | .a => relay.aToB
  | .b => relay.bToA

/-- `CopyBidirectional::poll`. -/
def poll (n : ℕ) (x : CopyBidirectional × Log streamInterface) :
    (CopyBidirectional × Log streamInterface) × Outcome (IoResult Unit) :=
  let r := join (transferOneDirection env .a .b n) (transferOneDirection env .b .a n)
    x.1.aToB x.1.bToA x.2
  ((⟨r.1.1.1, r.1.1.2⟩, r.1.2), r.2)

end CopyBidirectional

/-! ## Directions as pipes -/

/-- What a call is for the direction that reads from `r`. -/
def toEvent (r : Side) : Event streamInterface → Option (Pipe.Event UInt8)
  | ⟨.read side _, answer⟩ =>
      if side = r then
        match answer with
        | .ready (.ok bytes) => if bytes.val = [] then some .eof else some (.receive bytes)
        | _ => some (.receive [])
      else none
  | ⟨.write side data, answer⟩ =>
      if side = r.other then
        match answer with
        | .ready (.ok n) => some (.send (data.take n))
        | _ => some (.send [])
      else none
  | ⟨.flush side, answer⟩ =>
      if side = r.other then
        match answer with
        | .ready (.ok ()) => some (.flush true)
        | _ => some (.flush false)
      else none
  | ⟨.shutdown side, answer⟩ =>
      if side = r.other then
        match answer with
        | .ready (.ok ()) => some (.close true)
        | _ => some (.close false)
      else none

/-- The calls of the direction that reads from `r`: reads of `r`; writes, flushes
and shutdowns of the other side. -/
def trace (r : Side) (log : Log streamInterface) : List (Pipe.Event UInt8) :=
  log.filterMap (toEvent r)

/-- The state of the pipe that a transfer is. -/
def abs : TransferState → Pipe.State UInt8
  | .running buf => ⟨buf.unwritten, if buf.readDone then .draining else .flowing⟩
  | .shuttingDown _ => ⟨[], .closing⟩
  | .done _ => ⟨[], .closed⟩

/-- `pos <= cap <= buffer length`, and the buffer keeps its size. -/
def InBounds (size : ℕ) : TransferState → Prop
  | .running buf => buf.pos ≤ buf.cap ∧ buf.cap ≤ buf.buf.length ∧ buf.buf.length = size
  | _ => True

/-- The transfer that reads from `r` refines the pipe. -/
structure Refines (size : ℕ) (r : Side) (state : TransferState)
    (log : Log streamInterface) : Prop where
  run : (Pipe.pipe UInt8).run (trace r log) = some (abs state)
  inBounds : InBounds size state

/-- What the direction that reads from `r` keeps: it refines the pipe, and the
calls of the other direction stay as they are. -/
structure Keeps (size : ℕ) (r : Side) (others : List (Pipe.Event UInt8))
    (x : TransferState × Log streamInterface) : Prop where
  refines : Refines size r x.1 x.2
  frame : trace r.other x.2 = others

section Calls

variable {env r} {log : Log streamInterface} {call : StreamCall}

/-- A call that belongs to the direction that reads from `r`. -/
def OfDirection (r : Side) : StreamCall → Prop
  | .read side _ => side = r
  | .write side _ | .flush side | .shutdown side => side = r.other

/-- The calls of one direction are not calls of the other. -/
theorem trace_other_record (hcall : OfDirection r call) :
    trace r.other (env.record log call) = trace r.other log := by
  have hnone : toEvent r.other ⟨call, env log call⟩ = none := by
    cases r <;> cases call <;> simp_all [OfDirection, toEvent, Side.other]
  unfold trace Environment.record
  rw [List.filterMap_append, List.filterMap_cons_none hnone]
  exact List.append_nil _

/-- A call of a direction keeps what the direction keeps, if it is a step of the
pipe to the state of the transfer after it. -/
theorem Keeps.record {size : ℕ} {others : List (Pipe.Event UInt8)}
    {state : TransferState} (keeps : Keeps size r others (state, log))
    (event : Pipe.Event UInt8) (state' : TransferState)
    (hcall : OfDirection r call) (hevent : toEvent r ⟨call, env log call⟩ = some event)
    (hstep : Pipe.step (abs state) event = some (abs state'))
    (hbounds : InBounds size state') :
    Keeps size r others (state', env.record log call) :=
  ⟨⟨Pipe.run_filterMap_snoc keeps.refines.run hevent hstep, hbounds⟩,
    (trace_other_record hcall).trans keeps.frame⟩

end Calls

/-! ## The copy loop -/

section Copy

variable {env : Environment streamInterface} {r : Side}
variable {size : ℕ} {others : List (Pipe.Event UInt8)} {x : CopyState}

/-- What `poll_copy` keeps. -/
def Copying (size : ℕ) (r : Side) (others : List (Pipe.Event UInt8)) (x : CopyState) :
    Prop :=
  Keeps size r others (.running x.1, x.2)

/-- How `poll_copy` may end: if it is done, its pipe is to be closed. -/
def Copied (size : ℕ) (r : Side) (others : List (Pipe.Event UInt8)) (x : CopyState) :
    Outcome (IoResult ℕ) → Prop
  | .returned (.ready (.ok count)) => Keeps size r others (.shuttingDown count, x.2)
  | _ => Copying size r others x

/-- Nothing is unwritten in a buffer that is used up. -/
theorem unwritten_of_pos_eq {me : CopyBuffer} (h : me.pos = me.cap) :
    me.unwritten = [] := by
  unfold CopyBuffer.unwritten
  rw [List.drop_eq_nil_iff, h]
  exact List.length_take_le _ _

theorem fill_spec (copying : Copying size r others x) (hpos : x.1.pos = x.1.cap)
    (hdone : x.1.readDone = false) :
    Goes (Copying size r others) (Copied size r others) (fill env r r.other x) := by
  obtain ⟨me, log⟩ := x
  simp only at hpos hdone
  have hbounds : InBounds size (.running me) := copying.refines.inBounds
  have habs : abs (.running me) = ⟨[], .flowing⟩ := by
    simp [abs, unwritten_of_pos_eq hpos, hdone]
  -- a read that gives nothing, or a flush, leaves the pipe as it is
  have hread_idle : Pipe.step (abs (.running me)) (.receive [])
      = some (abs (.running me)) := by
    rw [habs]
    rfl
  have hflush_idle : ∀ done, Pipe.step (abs (.running me)) (.flush done)
      = some (abs (.running me)) := by
    intro done
    rw [habs]
    rfl
  unfold fill
  dsimp only
  rcases hread : env log (StreamCall.read r me.buf.length) with (e | ⟨bytes, hroom⟩) | _
  · exact copying.record (.receive []) (.running me) rfl (by simp [toEvent, hread])
      hread_idle hbounds
  · dsimp only
    split
    · rename_i hempty
      rw [List.length_eq_zero_iff] at hempty
      subst hempty
      refine copying.record .eof (.running { me with readDone := true }) rfl
        (by simp [toEvent, hread]) ?_ hbounds
      rw [habs]
      simp [Pipe.step, abs, CopyBuffer.unwritten, hpos]
    · rename_i hsome
      have hne : bytes ≠ [] := fun h => hsome (by simp [h])
      refine copying.record (.receive bytes) (.running _) rfl
        (by simp [toEvent, hread, hne]) ?_ ?_
      · rw [habs]
        simp [Pipe.step, abs, CopyBuffer.unwritten, hdone]
      · obtain ⟨-, -, hsize⟩ := hbounds
        refine ⟨Nat.zero_le _, by simp, ?_⟩
        simp only [List.length_append, List.length_drop]
        omega
  · have hlog : Copying size r others
        (me, env.record log (StreamCall.read r me.buf.length)) :=
      copying.record (.receive []) (.running me) rfl (by simp [toEvent, hread])
        hread_idle hbounds
    dsimp only
    split
    · rcases hflush : env (env.record log (StreamCall.read r me.buf.length))
        (StreamCall.flush r.other) with (e | ⟨⟨⟩⟩) | _
      · exact hlog.record (.flush false) (.running me) rfl (by simp [toEvent, hflush])
          (hflush_idle false) hbounds
      · exact hlog.record (.flush true) (.running { me with needFlush := false }) rfl
          (by simp [toEvent, hflush]) (hflush_idle true) hbounds
      · exact hlog.record (.flush false) (.running me) rfl (by simp [toEvent, hflush])
          (hflush_idle false) hbounds
    · exact hlog

/-- Handing on the first `i` unwritten bytes is a step of the pipe, in either of
the phases a copy can be in. -/
theorem step_send (me : CopyBuffer) (i : ℕ) :
    Pipe.step (abs (.running me)) (.send (me.unwritten.take i))
      = some ⟨me.unwritten.drop (me.unwritten.take i).length,
          if me.readDone then .draining else .flowing⟩ := by
  have hprefix : me.unwritten.take i <+: me.unwritten := List.take_prefix _ _
  cases hdone : me.readDone <;> simp [abs, hdone, Pipe.step, hprefix]

theorem drain_spec (copying : Copying size r others x) (hpos : x.1.pos < x.1.cap) :
    Goes (Copying size r others) (Copied size r others) (drain env r.other x) := by
  obtain ⟨me, log⟩ := x
  have hbounds : InBounds size (.running me) := copying.refines.inBounds
  have hidle : Pipe.step (abs (.running me)) (.send []) = some (abs (.running me)) := by
    simpa [abs] using step_send me 0
  unfold drain
  dsimp only
  rcases hwrite : env log (StreamCall.write r.other me.unwritten)
    with (e | ⟨i, hi⟩) | _
  · exact copying.record (.send []) (.running me) rfl (by simp [toEvent, hwrite])
      hidle hbounds
  · dsimp only
    split
    · rename_i hzero
      subst hzero
      exact copying.record (.send []) (.running me) rfl (by simp [toEvent, hwrite])
        hidle hbounds
    · refine copying.record (.send (me.unwritten.take i)) (.running _) rfl
        (by simp [toEvent, hwrite]) ?_ ?_
      · rw [step_send, List.length_take_of_le hi]
        simp [abs, CopyBuffer.unwritten, List.drop_drop]
      · obtain ⟨-, hcap, hsize⟩ := hbounds
        have hlength : me.unwritten.length = me.cap - me.pos := by
          simp only [CopyBuffer.unwritten, List.length_drop, List.length_take]
          omega
        refine ⟨?_, hcap, hsize⟩
        show me.pos + i ≤ me.cap
        simp only at hpos
        omega
  · exact copying.record (.send []) (.running me) rfl (by simp [toEvent, hwrite])
      hidle hbounds

theorem finish_spec (copying : Copying size r others x) (hpos : x.1.pos = x.1.cap)
    (hdone : x.1.readDone = true) :
    Goes (Copying size r others) (Copied size r others) (finish env r.other x) := by
  obtain ⟨me, log⟩ := x
  simp only at hpos hdone
  have hbounds : InBounds size (.running me) := copying.refines.inBounds
  have habs : abs (.running me) = ⟨[], .draining⟩ := by
    simp [abs, unwritten_of_pos_eq hpos, hdone]
  have hidle : Pipe.step (abs (.running me)) (.flush false)
      = some (abs (.running me)) := by
    rw [habs]
    rfl
  unfold finish
  dsimp only
  rcases hflush : env log (StreamCall.flush r.other) with (e | ⟨⟨⟩⟩) | _
  · exact copying.record (.flush false) (.running me) rfl (by simp [toEvent, hflush])
      hidle hbounds
  · refine copying.record (.flush true) (.shuttingDown me.amt) rfl
      (by simp [toEvent, hflush]) ?_ trivial
    rw [habs]
    rfl
  · exact copying.record (.flush false) (.running me) rfl (by simp [toEvent, hflush])
      hidle hbounds

/-- **The step lemma of `poll_copy`.** -/
theorem copyPass_spec (copying : Copying size r others x) :
    Goes (Copying size r others) (Copied size r others) (copyPass env r r.other x) := by
  unfold copyPass
  split
  · rename_i h
    exact fill_spec copying h.1 h.2
  · split
    · rename_i h
      exact drain_spec copying h
    · split
      · rename_i h
        exact finish_spec copying h.1 h.2
      · exact copying

/-- `poll_copy` keeps the direction a pipe, however long it runs. -/
theorem pollCopy_spec (n : ℕ) (copying : Copying size r others x) :
    Copied size r others (pollCopy env r r.other n x).1 (pollCopy env r r.other n x).2 :=
  loopN_rule (copyPass env r r.other) (fun _ copying => copyPass_spec copying)
    (fun _ copying => copying) n x copying

end Copy

/-! ## A direction, and the relay -/

section Relay

variable {env : Environment streamInterface} {r : Side}
variable {size : ℕ} {others : List (Pipe.Event UInt8)}

/-- How `transfer_one_direction` may end: if it is done, so is the transfer. -/
def Transferred (size : ℕ) (r : Side) (others : List (Pipe.Event UInt8))
    (x : TransferState × Log streamInterface) (outcome : Outcome (IoResult ℕ)) : Prop :=
  Keeps size r others x ∧
    ∀ count, outcome = .returned (.ready (.ok count)) → x.1 = .done count

theorem transferPass_spec (n : ℕ) {x : TransferState × Log streamInterface}
    (keeps : Keeps size r others x) :
    Goes (Keeps size r others) (Transferred size r others)
      (transferPass env r r.other n x) := by
  obtain ⟨state, log⟩ := x
  cases state with
  | running buf =>
      have hcopied : Copied size r others (pollCopy env r r.other n (buf, log)).1
          (pollCopy env r r.other n (buf, log)).2 := pollCopy_spec n keeps
      unfold transferPass
      dsimp only
      rcases hpoll : pollCopy env r r.other n (buf, log)
        with ⟨⟨buf', log'⟩, ((e | count) | _) | _ | _⟩
      all_goals rw [hpoll] at hcopied
      · exact ⟨hcopied, by simp⟩
      · exact hcopied
      · exact ⟨hcopied, by simp⟩
      · exact ⟨hcopied, by simp⟩
      · exact ⟨hcopied, by simp⟩
  | shuttingDown count =>
      have hidle : ∀ done, Pipe.step (abs (.shuttingDown count)) (.close done)
          = some ⟨[], if done then .closed else .closing⟩ := fun _ => rfl
      unfold transferPass
      dsimp only
      rcases hdown : env log (StreamCall.shutdown r.other) with (e | ⟨⟨⟩⟩) | _
      · exact ⟨keeps.record (.close false) (.shuttingDown count) rfl
          (by simp [toEvent, hdown]) (hidle false) trivial, by simp⟩
      · exact keeps.record (.close true) (.done count) rfl (by simp [toEvent, hdown])
          (hidle true) trivial
      · exact ⟨keeps.record (.close false) (.shuttingDown count) rfl
          (by simp [toEvent, hdown]) (hidle false) trivial, by simp⟩
  | done count =>
      refine ⟨keeps, fun count' h => ?_⟩
      cases h
      rfl

/-- The spec of `transfer_one_direction`. -/
theorem transferOneDirection_spec (n : ℕ) {x : TransferState × Log streamInterface}
    (keeps : Keeps size r others x) :
    Transferred size r others (transferOneDirection env r r.other n x).1
      (transferOneDirection env r r.other n x).2 :=
  loopN_rule (transferPass env r r.other n) (fun _ keeps => transferPass_spec n keeps)
    (fun _ keeps => ⟨keeps, by simp⟩) 3 x keeps

/-- Both directions of a relay refine their pipes. -/
structure Relayed (size : ℕ) (aToB bToA : TransferState) (log : Log streamInterface) :
    Prop where
  aToB : Refines size .a aToB log
  bToA : Refines size .b bToA log

/-- A direction that has not moved still refines its pipe. -/
theorem Refines.frame {state : TransferState} {log log' : Log streamInterface}
    (refines : Refines size r state log) (h : trace r log' = trace r log) :
    Refines size r state log' :=
  ⟨by rw [h]; exact refines.run, refines.inBounds⟩

/-- A transfer that is ready is done. -/
def ReadyIsDone (state : TransferState) (outcome : Outcome (IoResult ℕ)) : Prop :=
  ∀ count, outcome = .returned (.ready (.ok count)) → state = .done count

/-- **The step lemma of the relay.** -/
theorem poll_spec (n : ℕ) (x : CopyBidirectional × Log streamInterface)
    (relayed : Relayed size x.1.aToB x.1.bToA x.2) :
    Relayed size (CopyBidirectional.poll env n x).1.1.aToB
        (CopyBidirectional.poll env n x).1.1.bToA (CopyBidirectional.poll env n x).1.2 ∧
      Joined ReadyIsDone ReadyIsDone (CopyBidirectional.poll env n x).1.1.aToB
        (CopyBidirectional.poll env n x).1.1.bToA (CopyBidirectional.poll env n x).2 := by
  refine join_rule (P := Relayed size) ?forth ?back relayed
  case forth =>
    intro aToB bToA log relayed
    have hforth : Transferred size .a (trace .b log)
        (transferOneDirection env .a .b n (aToB, log)).1
        (transferOneDirection env .a .b n (aToB, log)).2 :=
      transferOneDirection_spec n ⟨relayed.aToB, rfl⟩
    obtain ⟨⟨hrefines, hframe⟩, hdone⟩ := hforth
    exact ⟨⟨hrefines, relayed.bToA.frame hframe⟩, hdone⟩
  case back =>
    intro aToB bToA log relayed
    have hback : Transferred size .b (trace .a log)
        (transferOneDirection env .b .a n (bToA, log)).1
        (transferOneDirection env .b .a n (bToA, log)).2 :=
      transferOneDirection_spec n ⟨relayed.bToA, rfl⟩
    obtain ⟨⟨hrefines, hframe⟩, hdone⟩ := hback
    exact ⟨⟨relayed.aToB.frame hframe, hrefines⟩, hdone⟩

theorem relayed_new (size : ℕ) :
    Relayed size (.running (.new size)) (.running (.new size)) [] := by
  have hnew : ∀ r, Refines size r (.running (.new size)) [] := fun r =>
    ⟨by simp [trace, abs, CopyBuffer.unwritten, CopyBuffer.new, Transition.System.run,
      Pipe.pipe], by simp [InBounds, CopyBuffer.new]⟩
  exact ⟨hnew .a, hnew .b⟩

/-- The bytes a transfer has read and not written: `buf[pos..cap]` while it runs. -/
def TransferState.unwritten : TransferState → Bytes
  | .running buf => buf.unwritten
  | _ => []

/-- A direction that does its work: its transfer, and the trace of its calls. -/
structure InOrder (size : ℕ) (state : TransferState) (trace : List (Pipe.Event UInt8)) :
    Prop where
  /-- Nothing is lost, duplicated or reordered. -/
  stream : Pipe.received trace = Pipe.sent trace ++ state.unwritten
  isPrefix : Pipe.sent trace <+: Pipe.received trace
  inBounds : InBounds size state
  /-- No read of the reader after its end of file. -/
  afterEof : trace.Pairwise fun earlier later => earlier = .eof → ¬ later.Reads
  /-- Nothing but shutdown once the shutdown has been started. -/
  afterShutdown : trace.Pairwise fun earlier later => earlier.Closes → later.Closes

theorem Refines.inOrder {state : TransferState} {log : Log streamInterface}
    (refines : Refines size r state log) : InOrder size state (trace r log) := by
  have orderly := Pipe.orderly_of_run refines.run
  refine ⟨?_, orderly.sent_prefix, refines.inBounds, orderly.afterEof,
    orderly.afterClose⟩
  rw [orderly.balance]
  cases state <;> rfl

theorem Relayed.refines {relay : CopyBidirectional} {log : Log streamInterface}
    (relayed : Relayed size relay.aToB relay.bToA log) (r : Side) :
    Refines size r (relay.transfer r) log := by
  cases r with
  | a => exact relayed.aToB
  | b => exact relayed.bToA

/-- At every moment of a relay, both directions refine their pipes, and if it has resolved, one
of them is done. -/
theorem relayed_of_polled {relay : CopyBidirectional} {log : Log streamInterface}
    {outcome : Outcome (IoResult Unit)}
    (moment : Polled (CopyBidirectional.poll env) (CopyBidirectional.new size, [])
      (relay, log) outcome) :
    Relayed size relay.aToB relay.bToA log ∧
      Joined ReadyIsDone ReadyIsDone relay.aToB relay.bToA outcome :=
  moment.rule
    (P := fun x => Relayed size x.1.aToB x.1.bToA x.2)
    (Q := fun x outcome => Joined ReadyIsDone ReadyIsDone x.1.aToB x.1.bToA outcome)
    (relayed_new size) trivial poll_spec

end Relay

/-- **The TCP relay.**  At every moment, in both directions: the bytes read are the
bytes written followed by `buf[pos..cap]`, with `pos <= cap <= buffer length`; no
read after end of file, and nothing but shutdown once a shutdown has begun.  When
the future resolves with `Ok`, one direction has read end of file, written every
byte it had read, flushed the writer after that and then shut it down. -/
theorem relay_inOrder (size : ℕ) (env : Environment streamInterface)
    (relay : CopyBidirectional) (log : Log streamInterface)
    (outcome : Outcome (IoResult Unit))
    (moment : Polled (CopyBidirectional.poll env) (CopyBidirectional.new size, [])
      (relay, log) outcome) :
    (∀ r, InOrder size (relay.transfer r) (trace r log)) ∧
      (outcome = .returned (.ready (.ok ())) → ∃ r, Pipe.Finished (trace r log)) := by
  obtain ⟨relayed, joined⟩ := relayed_of_polled moment
  refine ⟨fun r => (relayed.refines r).inOrder, ?_⟩
  have closed : ∀ r count, relay.transfer r = .done count →
      Pipe.Finished (trace r log) := by
    intro r count hdone
    have orderly := Pipe.orderly_of_run (relayed.refines r).run
    exact orderly.finished (by rw [hdone]; rfl)
  rintro rfl
  rcases joined with ⟨count, hdone⟩ | ⟨count, hdone⟩
  · exact ⟨.a, closed .a count (hdone count rfl)⟩
  · exact ⟨.b, closed .b count (hdone count rfl)⟩

/-- Streams of which `a` sends two bytes and ends, and `b` sends nothing. -/
def shortStream : Environment streamInterface := fun log call =>
  match call with
  | .read .a room =>
      .ready (.ok ⟨if log = [] then [1, 2].take room else [], by
        split
        · exact List.length_take_le _ _
        · exact Nat.zero_le _⟩)
  | .read .b _ => .pending
  | .write _ data => .ready (.ok ⟨data.length, le_rfl⟩)
  | .flush _ => .ready (.ok ())
  | .shutdown _ => .ready (.ok ())

/-- One poll relays such a stream and resolves. -/
theorem relay_inOrder_shortStream :
    ∃ (relay : CopyBidirectional) (log : Log streamInterface),
      Pipe.sent (trace .a log) = [1, 2] ∧
      (∀ r, InOrder 4 (relay.transfer r) (trace r log)) ∧
      ∃ r, Pipe.Finished (trace r log) := by
  have moment : Polled (CopyBidirectional.poll shortStream) (CopyBidirectional.new 4, [])
      _ _ := .poll 10 .start
  have h := relay_inOrder 4 shortStream _ _ _ moment
  exact ⟨_, _, by decide, h.1, h.2 (by decide)⟩

end TcpRelay

end RabbitDigger
