import Mathlib.Data.List.TakeWhile
import RabbitDigger.Relay.Tcp

/-!
# Flushing in the TCP relay

A writer may keep the bytes it has accepted until it is flushed.  If `CopyBuffer::poll_copy`
waited for its reader while the last chunk is still kept there, a peer that answers only to this
chunk would wait as well, and both would wait forever.  The code flushes when the reader has
nothing, if the flag `need_flush` says so; the flag is set by every write and cleared by this one
flush, while the flush at the end of the transfer does not look at it.

What the flag is for is a fact about the whole log: **if it is not set, every byte the writer has
accepted has been flushed after that** (`Sound.flushed`).  It survives suspension at each of the
four calls, errors of the reader and of the writer, and calls after an error.

The second count the buffer keeps is `amt`, of the bytes written, as a `u64`.  With the bytes that
are still in the buffer they are the bytes read up to the end of the file (`Sound.counted`), so that
the amount a transfer ends with is what was read, if this fits into a `u64`.
-/

namespace RabbitDigger.TcpRelay

open Polling

/-! ## What the log says -/

/-- The bytes a call has brought from the reader. -/
def readBy (r : Side) : Event streamInterface → Bytes
  | ⟨.read side _, .ready (.ok bytes)⟩ => if side = r then bytes.val else []
  | _ => []

/-- The reader has ended: a read that succeeds with no bytes. -/
def isEof (r : Side) : Event streamInterface → Bool
  | ⟨.read side _, .ready (.ok bytes)⟩ => side = r && bytes.val.isEmpty
  | _ => false

/-- The bytes read before the end of the file. -/
def readBeforeEof (r : Side) (log : Log streamInterface) : Bytes :=
  (log.takeWhile fun event => !isEof r event).flatMap (readBy r)

/-- The writer has accepted some bytes. -/
def Accepts (w : Side) : Event streamInterface → Prop
  | ⟨.write side _, .ready (.ok n)⟩ => side = w ∧ n.val ≠ 0
  | _ => False

/-- The writer has completed a flush. -/
def Flushes (w : Side) : Event streamInterface → Prop
  | ⟨.flush side, .ready (.ok _)⟩ => side = w
  | _ => False

/-- The writer has answered "not yet", to a write or to a flush. -/
def WriterPending (w : Side) : Event streamInterface → Prop
  | ⟨.write side _, .pending⟩ => side = w
  | ⟨.flush side, .pending⟩ => side = w
  | _ => False

instance (w : Side) : DecidablePred (WriterPending w)
  | ⟨.write side _, .pending⟩ | ⟨.flush side, .pending⟩ => inferInstanceAs (Decidable (side = w))
  | ⟨.write _ _, .ready _⟩ | ⟨.flush _, .ready _⟩ | ⟨.read _ _, _⟩ | ⟨.shutdown _, _⟩ =>
      .isFalse id

/-- The reader has answered "not yet". -/
def ReaderPending (r : Side) : Event streamInterface → Prop
  | ⟨.read side _, .pending⟩ => side = r
  | _ => False

/-- Every byte the writer has accepted has been flushed after that. -/
def AllFlushed (w : Side) (log : Log streamInterface) : Prop :=
  FollowedBy (Accepts w) (Flushes w) log

/-! ## All calls -/

/-- A `CopyBuffer` between two calls of `poll_copy`.  The calls go on whatever the last one has
returned, a value and an error included. -/
inductive Calls (env : Environment streamInterface) (r w : Side) (size : ℕ) :
    CopyState → Prop where
  | start : Calls env r w size (.new size, [])
  | call {x x' : CopyState} {answer : Poll (IoResult ℕ)} (n : ℕ) : Calls env r w size x →
      pollCopy env r w n x = (x', .returned answer) → Calls env r w size x'

section Counting

variable {r w : Side} {log : Log streamInterface} {event : Event streamInterface}

theorem takeWhile_snoc_of_stopped {α : Type} {p : α → Bool} {l : List α} {a : α}
    (h : ∃ b ∈ l, p b = false) : (l ++ [a]).takeWhile p = l.takeWhile p := by
  induction l with
  | nil => simp at h
  | cons first l ih =>
      rw [List.cons_append, List.takeWhile_cons, List.takeWhile_cons]
      split
      · rename_i hfirst
        obtain ⟨b, hb, hstop⟩ := h
        rcases List.mem_cons.mp hb with rfl | hb
        · rw [hstop] at hfirst
          cases hfirst
        · rw [ih ⟨b, hb, hstop⟩]
      · rfl

/-- What comes after the end of the file does not count. -/
theorem readBeforeEof_snoc_of_eof (h : ∃ eof ∈ log, isEof r eof = true) :
    readBeforeEof r (log ++ [event]) = readBeforeEof r log := by
  unfold readBeforeEof
  rw [takeWhile_snoc_of_stopped]
  obtain ⟨eof, hmem, heof⟩ := h
  exact ⟨eof, hmem, by rw [heof]; rfl⟩

/-- Up to there everything does. -/
theorem readBeforeEof_snoc (h : ∀ earlier ∈ log, isEof r earlier = false) :
    readBeforeEof r (log ++ [event])
      = readBeforeEof r log ++ (if isEof r event then [] else readBy r event) := by
  have hall : ∀ earlier ∈ log, (fun event => !isEof r event) earlier = true := by
    intro earlier hmem
    simp only [h earlier hmem, Bool.not_false]
  unfold readBeforeEof
  rw [List.takeWhile_append_of_pos hall, List.takeWhile_eq_self_iff.mpr hall,
    List.flatMap_append]
  cases heof : isEof r event with
  | true | false => simp [heof]

theorem noEof_of_not_exists (h : ¬ ∃ eof ∈ log, isEof r eof = true) :
    ∀ earlier ∈ log, isEof r earlier = false := by
  intro earlier hmem
  rw [← Bool.not_eq_true]
  exact fun heof => h ⟨earlier, hmem, heof⟩

/-- Only a read counts. -/
theorem readBeforeEof_snoc_of_quiet (hread : readBy r event = []) :
    readBeforeEof r (log ++ [event]) = readBeforeEof r log := by
  by_cases h : ∃ eof ∈ log, isEof r eof = true
  · exact readBeforeEof_snoc_of_eof h
  · rw [readBeforeEof_snoc (noEof_of_not_exists h), hread]
    simp

end Counting

/-! ## The invariant -/

/-- **What `poll_copy` keeps**, at any moment of any number of calls. -/
structure Sound (r w : Side) (x : CopyState) : Prop where
  inBounds : x.1.pos ≤ x.1.cap ∧ x.1.cap ≤ x.1.buf.length
  /-- What `need_flush` is for. -/
  flushed : x.1.needFlush = false → AllFlushed w x.2
  ended : x.1.readDone = true ↔ ∃ event ∈ x.2, isEof r event = true
  counted : ∃ written, x.1.amt = written % 2 ^ 64 ∧
    written + (x.1.cap - x.1.pos) = (readBeforeEof r x.2).length

section Passes

variable {env : Environment streamInterface} {r w : Side} {start : Log streamInterface}
variable {x : CopyState} {me me' : CopyBuffer} {log : Log streamInterface}
variable {event : Event streamInterface}

/-- A call that brings nothing from the reader. -/
theorem Sound.quiet (sound : Sound r w (me, log)) (hread : readBy r event = [])
    (heof : isEof r event = false)
    (inBounds : me'.pos ≤ me'.cap ∧ me'.cap ≤ me'.buf.length)
    (hdone : me'.readDone = me.readDone)
    (hcount : ∀ written, me.amt = written % 2 ^ 64 → ∃ written', me'.amt = written' % 2 ^ 64 ∧
      written' + (me'.cap - me'.pos) = written + (me.cap - me.pos))
    (hflushed : me'.needFlush = false → AllFlushed w (log ++ [event])) :
    Sound r w (me', log ++ [event]) := by
  refine ⟨inBounds, hflushed, ?_, ?_⟩
  · show me'.readDone = true ↔ _
    rw [hdone, sound.ended]
    simp [heof]
  · rw [readBeforeEof_snoc_of_quiet hread]
    obtain ⟨written, hamt, hlength⟩ := sound.counted
    obtain ⟨written', hamt', hsame⟩ := hcount written hamt
    exact ⟨written', hamt', hsame.trans hlength⟩

/-- A call that changes nothing in the buffer, and nothing that has to be flushed. -/
theorem Sound.idle (sound : Sound r w (me, log)) (hread : readBy r event = [])
    (heof : isEof r event = false) (haccepts : ¬ Accepts w event) :
    Sound r w (me, log ++ [event]) :=
  sound.quiet hread heof sound.inBounds rfl (fun written h => ⟨written, h, rfl⟩)
    fun h => .snoc (fun _ => sound.flushed h) haccepts

/-- Why a call has returned `Pending`: the writer has answered so in this call, or the reader has
and nothing is left in the writer. -/
def Waits (r w : Side) (start log : Log streamInterface) : Prop :=
  (∃ event ∈ since start log, WriterPending w event) ∨
    (∃ event ∈ since start log, ReaderPending r event) ∧ AllFlushed w log

/-- What a call that began with the log `start` establishes when it returns. -/
def Returns (r w : Side) (start : Log streamInterface) (x : CopyState) :
    Outcome (IoResult ℕ) → Prop
  | .returned .pending => Sound r w x ∧ start <+: x.2 ∧ Waits r w start x.2
  | .returned (.ready (.ok count)) => Sound r w x ∧ start <+: x.2 ∧ x.1.readDone = true ∧
      count = (readBeforeEof r x.2).length % 2 ^ 64
  | _ => Sound r w x ∧ start <+: x.2

/-- What holds inside a call that began with the log `start`. -/
def Copies (r w : Side) (start : Log streamInterface) (x : CopyState) : Prop :=
  Sound r w x ∧ start <+: x.2

theorem Copies.snoc (h : start <+: log) (sound : Sound r w (me, log ++ [event])) :
    Copies r w start (me, log ++ [event]) :=
  ⟨sound, h.trans (List.prefix_append _ _)⟩

theorem fill_copies (copies : Copies r w start x) (hpos : x.1.pos = x.1.cap)
    (hdone : x.1.readDone = false) :
    Goes (Copies r w start) (Returns r w start) (fill env r w x) := by
  obtain ⟨me, log⟩ := x
  obtain ⟨sound, hprefix⟩ := copies
  simp only at hpos hdone
  have hnoEof : ∀ earlier ∈ log, isEof r earlier = false := by
    refine noEof_of_not_exists ?_
    rw [← sound.ended]
    simp [hdone]
  have hnow : ∀ event, start <+: log ++ [event] := fun event =>
    hprefix.trans (List.prefix_append _ _)
  unfold fill
  dsimp only
  rcases hread : env log (StreamCall.read r me.buf.length) with (e | ⟨bytes, hroom⟩) | _
  · exact ⟨sound.idle (by simp [readBy, hread]) (by simp [isEof, hread]) id, hnow _⟩
  · dsimp only
    split
    · -- the end of the file
      rename_i hempty
      rw [List.length_eq_zero_iff] at hempty
      subst hempty
      refine .snoc hprefix ⟨sound.inBounds, ?_, ?_, ?_⟩
      · exact fun h => .snoc (fun _ => sound.flushed h) id
      · simp [isEof, hread]
      · rw [readBeforeEof_snoc_of_quiet (by simp [readBy, hread])]
        exact sound.counted
    · -- a chunk, in a buffer that was used up
      rename_i hsome
      have heof : isEof r ⟨StreamCall.read r me.buf.length,
          env log (StreamCall.read r me.buf.length)⟩ = false := by
        simp only [isEof, hread, decide_true, Bool.true_and, List.isEmpty_eq_false_iff]
        exact fun h => hsome (by simp [h])
      obtain ⟨written, hamt, hcounted⟩ := sound.counted
      simp only [hpos, Nat.sub_self, Nat.add_zero] at hcounted
      refine .snoc hprefix ⟨⟨Nat.zero_le _, by simp⟩, ?_, ?_, ?_⟩
      · exact fun h => .snoc (fun _ => sound.flushed h) id
      · simp only [hdone, Bool.false_eq_true, false_iff, not_exists, not_and]
        intro event hmem
        rcases List.mem_append.mp hmem with hmem | hmem
        · simp [hnoEof event hmem]
        · rw [List.mem_singleton.mp hmem, heof]
          exact Bool.false_ne_true
      · rw [readBeforeEof_snoc hnoEof, heof]
        exact ⟨written, hamt, by simp [readBy, hread, hcounted]⟩
  · have hidle : Sound r w (me, env.record log (StreamCall.read r me.buf.length)) :=
      sound.idle (by simp [readBy, hread]) (by simp [isEof, hread]) id
    have hpending : ∃ event ∈ since start (env.record log (StreamCall.read r me.buf.length)),
        ReaderPending r event :=
      ⟨_, mem_since_snoc hprefix _, by simp [ReaderPending, hread]⟩
    dsimp only
    split
    · -- the reader has nothing, and the writer may still keep something
      have hlater : ∀ event, start <+:
          env.record log (StreamCall.read r me.buf.length) ++ [event] := fun event =>
        (hnow _).trans (List.prefix_append _ _)
      rcases hflush : env (env.record log (StreamCall.read r me.buf.length))
        (StreamCall.flush w) with (e | ⟨⟨⟩⟩) | _
      · exact ⟨hidle.idle rfl rfl id, hlater _⟩
      · have hflushed : AllFlushed w (env.record
            (env.record log (StreamCall.read r me.buf.length)) (StreamCall.flush w)) :=
          .snoc (fun h => absurd (by simp [Flushes, hflush]) h) id
        obtain ⟨event, hmem, hevent⟩ := hpending
        exact ⟨hidle.quiet rfl rfl sound.inBounds rfl (fun written h => ⟨written, h, rfl⟩)
          fun _ => hflushed, hlater _,
          .inr ⟨⟨event, mem_since_append (hnow _) hmem _, hevent⟩, hflushed⟩⟩
      · exact ⟨hidle.idle rfl rfl id, hlater _,
          .inl ⟨_, mem_since_snoc (hnow _) _, by simp [WriterPending, hflush]⟩⟩
    · rename_i hneed
      exact ⟨hidle, hnow _, .inr ⟨hpending, hidle.flushed (by simpa using hneed)⟩⟩

theorem drain_copies (copies : Copies r w start x) (hpos : x.1.pos < x.1.cap) :
    Goes (Copies r w start) (Returns r w start) (drain env w x) := by
  obtain ⟨me, log⟩ := x
  obtain ⟨sound, hprefix⟩ := copies
  have hnow : ∀ event, start <+: log ++ [event] := fun event =>
    hprefix.trans (List.prefix_append _ _)
  simp only [drain, Environment.record]
  rcases env log (StreamCall.write w me.unwritten) with (e | ⟨i, hi⟩) | _
  · exact ⟨sound.idle rfl rfl id, hnow _⟩
  · dsimp only
    split
    · rename_i hzero
      exact ⟨sound.idle rfl rfl fun h => h.2 hzero, hnow _⟩
    · have hlength : me.unwritten.length = me.cap - me.pos := by
        have hcap : me.cap ≤ me.buf.length := sound.inBounds.2
        simp only [CopyBuffer.unwritten, List.length_drop, List.length_take]
        omega
      rw [hlength] at hi
      simp only at hpos
      refine .snoc hprefix (sound.quiet rfl rfl ⟨?_, sound.inBounds.2⟩ rfl ?_ (by simp))
      · show me.pos + i ≤ me.cap
        omega
      · intro written hamt
        refine ⟨written + i, ?_, ?_⟩
        · show addU64 me.amt i = _
          rw [addU64, show me.amt = _ from hamt, Nat.mod_add_mod]
        · show written + i + (me.cap - (me.pos + i)) = _
          omega
  · exact ⟨sound.idle rfl rfl id, hnow _, .inl ⟨_, mem_since_snoc hprefix _, rfl⟩⟩

theorem finish_copies (copies : Copies r w start x) (hpos : x.1.pos = x.1.cap)
    (hdone : x.1.readDone = true) :
    Goes (Copies r w start) (Returns r w start) (finish env w x) := by
  obtain ⟨me, log⟩ := x
  obtain ⟨sound, hprefix⟩ := copies
  have hnow : ∀ event, start <+: log ++ [event] := fun event =>
    hprefix.trans (List.prefix_append _ _)
  simp only [finish, Environment.record]
  rcases env log (StreamCall.flush w) with (e | u) | _
  · exact ⟨sound.idle rfl rfl id, hnow _⟩
  · have hidle : Sound r w (me, log ++ [⟨StreamCall.flush w, .ready (.ok u)⟩]) :=
      sound.idle rfl rfl id
    refine ⟨hidle, hnow _, hdone, ?_⟩
    obtain ⟨written, hamt, hcounted⟩ := hidle.counted
    rw [← hcounted, hpos, Nat.sub_self]
    exact hamt
  · exact ⟨sound.idle rfl rfl id, hnow _, .inl ⟨_, mem_since_snoc hprefix _, rfl⟩⟩

/-- **The step lemma.** -/
theorem copyPass_copies (copies : Copies r w start x) :
    Goes (Copies r w start) (Returns r w start) (copyPass env r w x) := by
  unfold copyPass
  split
  · rename_i h
    exact fill_copies copies h.1 h.2
  · split
    · rename_i h
      exact drain_copies copies h
    · split
      · rename_i h
        exact finish_copies copies h.1 h.2
      · exact copies

/-- The spec of `poll_copy`. -/
theorem pollCopy_returns (env : Environment streamInterface) (n : ℕ) (sound : Sound r w x) :
    Returns r w x.2 (pollCopy env r w n x).1 (pollCopy env r w n x).2 :=
  loopN_rule (copyPass env r w) (fun _ copies => copyPass_copies copies)
    (fun _ copies => copies) n x ⟨sound, List.prefix_rfl⟩

/-- A call leaves the buffer sound, whatever it returns. -/
theorem Returns.sound {outcome : Outcome (IoResult ℕ)} (h : Returns r w start x outcome) :
    Sound r w x ∧ start <+: x.2 := by
  rcases outcome with ((e | count) | _) | _ | _
  · exact h
  · exact ⟨h.1, h.2.1⟩
  · exact ⟨h.1, h.2.1⟩
  · exact h
  · exact h

end Passes

theorem sound_new (r w : Side) (size : ℕ) : Sound r w (.new size, []) where
  inBounds := ⟨Nat.le_refl _, Nat.zero_le _⟩
  flushed _ := followedBy_nil
  ended := by simp [CopyBuffer.new]
  counted := ⟨0, rfl, rfl⟩

/-- The buffer is sound between any two calls. -/
theorem Calls.sound {env : Environment streamInterface} {r w : Side} {size : ℕ} {x : CopyState}
    (calls : Calls env r w size x) : Sound r w x := by
  induction calls with
  | start => exact sound_new r w size
  | call n _ hcall ih =>
      have h := pollCopy_returns env n ih
      rw [hcall] at h
      exact h.sound.1

/-- **Nothing is kept in the writer while the relay waits for the reader.**  In every sequence of
`poll_copy` calls, for every reader and writer: a call that returns `Pending` has got this answer
from the writer, or it has got it from the reader and every byte that the writer has ever accepted
was followed by a completed flush.  A call that returns `Ok` has seen the end of the file, and
returns the number of bytes that were read before it, as a `u64`. -/
theorem pending_after_flush (env : Environment streamInterface) (r w : Side) (size n : ℕ)
    (x x' : CopyState) (answer : Poll (IoResult ℕ)) (calls : Calls env r w size x)
    (hcall : pollCopy env r w n x = (x', .returned answer)) :
    x.2 <+: x'.2 ∧
      (answer = .pending →
        (∃ event ∈ since x.2 x'.2, WriterPending w event) ∨
          (∃ event ∈ since x.2 x'.2, ReaderPending r event) ∧
            FollowedBy (Accepts w) (Flushes w) x'.2) ∧
      ∀ count, answer = .ready (.ok count) →
        (∃ event ∈ x'.2, isEof r event = true) ∧
          count = (readBeforeEof r x'.2).length % 2 ^ 64 := by
  have h := pollCopy_returns env n calls.sound
  rw [hcall] at h
  refine ⟨h.sound.2, ?_, ?_⟩
  · rintro rfl
    exact h.2.2
  · rintro count rfl
    obtain ⟨sound, -, hdone, hcount⟩ := h
    exact ⟨sound.ended.mp hdone, hcount⟩

/-- A reader that brings two bytes and then has nothing, and a writer that accepts everything. -/
def twoBytes : Environment streamInterface := fun log call =>
  match call with
  | .read _ room =>
      if log.isEmpty then .ready (.ok ⟨[1, 2].take room, List.length_take_le _ _⟩) else .pending
  | .write _ data => .ready (.ok ⟨data.length, Nat.le_refl _⟩)
  | .flush _ => .ready (.ok ())
  | .shutdown _ => .ready (.ok ())

/-- The two bytes are flushed before the call returns `Pending`. -/
theorem pending_after_flush_twoBytes :
    ∃ x', pollCopy twoBytes .a .b 5 (.new 4, []) = (x', .returned .pending) ∧
      x'.2.length = 4 ∧ FollowedBy (Accepts .b) (Flushes .b) x'.2 := by
  have h := pending_after_flush twoBytes .a .b 4 5 (.new 4, []) _ _ .start rfl
  refine ⟨_, rfl, by decide, ?_⟩
  rcases h.2.1 rfl with hwriter | ⟨-, hflushed⟩
  · exact absurd hwriter (by decide)
  · exact hflushed

end RabbitDigger.TcpRelay
