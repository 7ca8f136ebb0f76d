import Mathlib.Data.List.Induction
import RabbitDigger.Foundation.Polling
import RabbitDigger.Foundation.Transition
import RabbitDigger.Interface.ReadBuf

/-!
# Looking at a connection before it is handed on

`rd-std/src/util/peekable_tcpstream.rs`: a TCP stream with a ring buffer in front of it.
`peek_exact` fills the buffer from the connection and copies its first bytes out, `poll_read`
serves from the buffer first, and `into_inner` gives both parts back.  The mixed server
(`rd-std/src/mixed.rs`) peeks at the first byte of a connection to choose between SOCKS5 and
HTTP, and hands the peeked stream on.

What the connection will still deliver is a byte string; how its reads cut that string into
pieces, when they are pending and where they fail is up to the **answers**, and where the ring
buffer wraps is up to each read.  What can still be read, the buffer and then the connection,
is `unread`:

* `peek_exact` that succeeds leaves `unread` as it is and returns its first bytes, and what the
  reads deliver is taken from its front, over whole runs (`peek_and_read_transparent`);
* `peek_exact` that **fails** drops the temporary buffer of `fill_buf`, so it loses what it has
  read by then: nothing is lost exactly when its first read brings no byte
  (`failed_peek_keeps_iff`).
-/

namespace RabbitDigger

open Polling Transition

/-- `PeekableTcpStream`: the bytes `tcp` has not delivered yet, and the ring buffer. -/
structure PeekableTcpStream where
  tcp : Bytes
  buf : Bytes
deriving Repr, DecidableEq

namespace PeekableTcpStream

/-- How the connection answers one `poll_read`. -/
inductive Answer where
  | pending
  | error (error : IoError)
  /-- At most `n` bytes are there, none at the end of the stream. -/
  | data (n : ℕ)
deriving Repr, DecidableEq

/-- `PeekableTcpStream::new`. -/
def new (tcp : Bytes) : PeekableTcpStream := ⟨tcp, []⟩

/-- What can still be read, in order. -/
def unread (s : PeekableTcpStream) : Bytes := s.buf ++ s.tcp

/-- `into_inner`. -/
def intoInner (s : PeekableTcpStream) : Bytes × Bytes := (s.tcp, s.buf)

/-! ## `poll_read` -/

/-- `poll_read` of the connection. -/
def pollReadTcp (answer : Answer) (buf : ReadBuf) (tcp : Bytes) :
    Bytes × ReadBuf × Poll (IoResult Unit) :=
  match answer with
  | .pending => (tcp, buf, .pending)
  | .error e => (tcp, buf, .ready (.error e))
  | .data n =>
      let read := min n buf.remaining
      (tcp.drop read, buf.put (tcp.take read), .ready (.ok ()))

/-- `poll_read`.  The first slice of the ring buffer ends where it wraps; it is empty only if
the whole buffer is. -/
def pollRead (wrap : ℕ) (answer : Answer) (buf : ReadBuf) (s : PeekableTcpStream) :
    PeekableTcpStream × ReadBuf × Poll (IoResult Unit) :=
  let first := s.buf.take (wrap + 1)
  if first ≠ [] then
    let read := min first.length buf.remaining
    ({ s with buf := s.buf.drop read }, buf.put (first.take read), .ready (.ok ()))
  else
    let (tcp, buf, result) := pollReadTcp answer buf s.tcp
    ({ s with tcp := tcp }, buf, result)

/-! ## `peek_exact` -/

/-- How `read_exact` ends, with the bytes in the buffer it fills and what is left of the
connection; it is `waiting` if the answers end before it does. -/
inductive ReadExact where
  | done (read tcp : Bytes)
  | failed (error : IoError) (read tcp : Bytes)
  | waiting (read tcp : Bytes)
deriving Repr, DecidableEq

/-- `AsyncReadExt::read_exact` on a buffer of `size` bytes. -/
def readExact (size : ℕ) : List Answer → (read tcp : Bytes) → ReadExact
  | [], read, tcp => if read.length = size then .done read tcp else .waiting read tcp
  | answer :: answers, read, tcp =>
      if read.length = size then .done read tcp
      else
        match answer with
        | .pending => readExact size answers read tcp
        | .error e => .failed e read tcp
        | .data n =>
            let piece := tcp.take (min n (size - read.length))
            if piece = [] then .failed { kind := .unexpectedEof, message := "early eof" } read tcp
            else readExact size answers (read ++ piece) (tcp.drop piece.length)

/-- How `fill_buf` and `peek_exact` end: with a value, with an error, or not yet. -/
inductive Ended (α : Type) where
  | ok (value : α) (s : PeekableTcpStream)
  | failed (error : Error) (s : PeekableTcpStream)
  | waiting
deriving Repr, DecidableEq

/-- `fill_buf`: on a failure the temporary buffer is dropped. -/
def fillBuf (size : ℕ) (answers : List Answer) (s : PeekableTcpStream) : Ended Unit :=
  if size > s.buf.length then
    match readExact (size - s.buf.length) answers [] s.tcp with
    | .done read tcp => .ok () ⟨tcp, s.buf ++ read⟩
    | .failed e _ tcp => .failed (.io e) ⟨tcp, s.buf⟩
    | .waiting _ _ => .waiting
  else .ok () s

/-- `peek_exact` into a buffer of `n` bytes. -/
def peekExact (n : ℕ) (answers : List Answer) (s : PeekableTcpStream) : Ended Bytes :=
  match s.fillBuf n answers with
  | .ok _ s => .ok (s.buf.take n) s
  | .failed e s => .failed e s
  | .waiting => .waiting

/-! ## What one call does to the unread bytes -/

/-- The bytes a call has appended to the caller's buffer. -/
def appended (before after : ReadBuf) : Bytes := after.filled.drop before.filled.length

/-- Bytes that fit are appended as they are. -/
theorem appended_put (buf : ReadBuf) (data : Bytes) (fits : data.length ≤ buf.remaining) :
    appended buf (buf.put data) = data := by
  unfold appended ReadBuf.put
  rw [List.drop_left, List.take_of_length_le fits]

/-- A read of the connection takes what it delivers from the front of what is left. -/
theorem appended_pollReadTcp (answer : Answer) (buf : ReadBuf) (tcp : Bytes) :
    appended buf (pollReadTcp answer buf tcp).2.1 ++ (pollReadTcp answer buf tcp).1 = tcp := by
  have same : appended buf buf = [] := List.drop_length
  cases answer with
  | pending | error => exact congrArg (· ++ tcp) same
  | data n =>
      have fits : (tcp.take (min n buf.remaining)).length ≤ buf.remaining := by
        rw [List.length_take]
        omega
      simp only [pollReadTcp]
      rw [appended_put buf _ fits, List.take_append_drop]

/-- **A read takes what it delivers from the front of the unread bytes**, whichever part it is
served from and whatever room there is. -/
theorem appended_pollRead (wrap : ℕ) (answer : Answer) (buf : ReadBuf) (s : PeekableTcpStream) :
    appended buf (s.pollRead wrap answer buf).2.1 ++ (s.pollRead wrap answer buf).1.unread =
      s.unread := by
  by_cases hfirst : s.buf.take (wrap + 1) = []
  · -- The first slice is empty, so the ring buffer is.
    have hbuf : s.buf = [] := by
      rcases List.take_eq_nil_iff.mp hfirst with h | h
      · omega
      · exact h
    have htcp := appended_pollReadTcp answer buf s.tcp
    simpa only [pollRead, unread, hbuf, List.take_nil, ne_eq, not_true_eq_false, if_false,
      List.nil_append] using htcp
  · have htake : (s.buf.take (wrap + 1)).take
        (min (s.buf.take (wrap + 1)).length buf.remaining) =
        s.buf.take (min (s.buf.take (wrap + 1)).length buf.remaining) := by
      rw [List.take_take]
      congr 1
      rw [List.length_take]
      omega
    have fits : (s.buf.take (min (s.buf.take (wrap + 1)).length buf.remaining)).length ≤
        buf.remaining := by
      rw [List.length_take]
      omega
    simp only [pollRead, unread, ne_eq, hfirst, not_false_eq_true, if_true]
    rw [htake, appended_put buf _ fits, ← List.append_assoc, List.take_append_drop]

/-- The buffer `read_exact` fills, as it leaves it. -/
def ReadExact.read : ReadExact → Bytes
  | .done read _ => read
  | .failed _ read _ => read
  | .waiting read _ => read

/-- What `read_exact` leaves of the connection. -/
def ReadExact.tcp : ReadExact → Bytes
  | .done _ tcp => tcp
  | .failed _ _ tcp => tcp
  | .waiting _ tcp => tcp

/-- `read_exact` moves bytes from the connection to its buffer, however it ends. -/
theorem readExact_moves (size : ℕ) (answers : List Answer) (read tcp : Bytes) :
    (readExact size answers read tcp).read ++ (readExact size answers read tcp).tcp =
      read ++ tcp := by
  fun_induction readExact size answers read tcp with
  | case1 | case2 | case3 | case5 | case6 => rfl
  | case4 answers read tcp _ ih => exact ih
  | case7 answers read tcp _ n piece _ ih =>
      have hpiece : piece ++ tcp.drop piece.length = tcp :=
        (List.prefix_iff_eq_append.mp (List.take_prefix _ tcp))
      rw [ih, List.append_assoc, hpiece]

/-- `read_exact` keeps what it has. -/
theorem readExact_extends (size : ℕ) (answers : List Answer) (read tcp : Bytes) :
    read <+: (readExact size answers read tcp).read := by
  fun_induction readExact size answers read tcp with
  | case1 | case2 | case3 | case5 | case6 => exact List.prefix_rfl
  | case4 answers read tcp _ ih => exact ih
  | case7 answers read tcp _ n piece _ ih => exact (List.prefix_append read piece).trans ih

/-- `read_exact` is done when its buffer is full. -/
theorem readExact_full {size : ℕ} {answers : List Answer} {read tcp read' tcp' : Bytes}
    (h : readExact size answers read tcp = .done read' tcp') : read'.length = size := by
  fun_induction readExact size answers read tcp with
  | case1 read tcp hfull =>
      cases h
      exact hfull
  | case2 | case5 | case6 => cases h
  | case3 answer answers read tcp hfull =>
      cases h
      exact hfull
  | case4 answers read tcp _ ih => exact ih h
  | case7 answers read tcp _ n piece _ ih => exact ih h

/-- `fill_buf` that succeeds has at least `size` bytes in the buffer and moves no unread
byte. -/
theorem fillBuf_ok {size : ℕ} {answers : List Answer} {s s' : PeekableTcpStream}
    (h : s.fillBuf size answers = .ok () s') : size ≤ s'.buf.length ∧ s'.unread = s.unread := by
  unfold fillBuf at h
  by_cases hsize : size > s.buf.length
  · rw [if_pos hsize] at h
    have hmoves := readExact_moves (size - s.buf.length) answers [] s.tcp
    cases hread : readExact (size - s.buf.length) answers [] s.tcp with
    | done read tcp =>
        rw [hread] at h hmoves
        cases h
        have hfull := readExact_full hread
        have happend : read ++ tcp = s.tcp := hmoves
        constructor
        · show size ≤ (s.buf ++ read).length
          rw [List.length_append]
          omega
        · show s.buf ++ read ++ tcp = s.buf ++ s.tcp
          rw [List.append_assoc, happend]
    | failed | waiting =>
        rw [hread] at h
        cases h
  · rw [if_neg hsize] at h
    cases h
    exact ⟨by omega, rfl⟩

/-- **A peek that succeeds returns the next bytes and consumes nothing.** -/
theorem peekExact_ok {n : ℕ} {answers : List Answer} {s s' : PeekableTcpStream} {bytes : Bytes}
    (h : s.peekExact n answers = .ok bytes s') :
    bytes.length = n ∧ bytes = s.unread.take n ∧ s'.unread = s.unread := by
  unfold peekExact at h
  cases hfill : s.fillBuf n answers with
  | ok value filled =>
      rw [hfill] at h
      cases h
      obtain ⟨hsize, hunread⟩ := fillBuf_ok hfill
      refine ⟨List.length_take_of_le hsize, ?_, hunread⟩
      rw [← hunread]
      exact (List.take_append_of_le_length hsize).symm
  | failed | waiting =>
      rw [hfill] at h
      cases h

/-! ## Runs -/

/-- One call of `poll_read`: where the ring buffer wraps, how the connection answers if it is
asked, and the caller's buffer. -/
structure ReadCall where
  wrap : ℕ
  answer : Answer
  buf : ReadBuf
deriving DecidableEq

/-- The calls made on the stream. -/
inductive Op where
  | peek (n : ℕ) (answers : List Answer)
  | read (call : ReadCall)
deriving DecidableEq

/-- The stream and all that its reads have delivered. -/
structure History where
  stream : PeekableTcpStream
  delivered : Bytes
deriving Repr, DecidableEq

/-- The history after one more read. -/
def History.read (h : History) (call : ReadCall) : History where
  stream := (h.stream.pollRead call.wrap call.answer call.buf).1
  delivered := h.delivered ++
    appended call.buf (h.stream.pollRead call.wrap call.answer call.buf).2.1

/-- Calls one after the other, from a given stream; a peek is a step if it succeeds. -/
def calls (s : PeekableTcpStream) : System History Op where
  init := ⟨s, []⟩
  step h
    | .peek n answers =>
        match h.stream.peekExact n answers with
        | .ok _ stream => some { h with stream := stream }
        | .failed _ _ => none
        | .waiting => none
    | .read call => some (h.read call)

/-- What a step with a peek is. -/
theorem step_peek {s : PeekableTcpStream} {h h' : History} {n : ℕ} {answers : List Answer}
    (hstep : (calls s).step h (.peek n answers) = some h') :
    ∃ bytes, h.stream.peekExact n answers = .ok bytes h'.stream ∧ h'.delivered = h.delivered := by
  simp only [calls] at hstep
  cases hpeek : h.stream.peekExact n answers with
  | ok bytes stream =>
      rw [hpeek] at hstep
      cases hstep
      exact ⟨bytes, rfl, rfl⟩
  | failed | waiting =>
      rw [hpeek] at hstep
      cases hstep

/-- **No byte is lost, repeated or moved** in a run of reads and successful peeks. -/
theorem delivered_append_unread {s : PeekableTcpStream} {h : History}
    (reach : (calls s).Reachable h) : h.delivered ++ h.stream.unread = s.unread := by
  refine System.Reachable.invariant (P := fun h => h.delivered ++ h.stream.unread = s.unread)
    rfl ?_ reach
  intro h op h' ih hstep
  cases op with
  | peek n answers =>
      obtain ⟨bytes, hpeek, hdelivered⟩ := step_peek hstep
      obtain ⟨_, _, hunread⟩ := peekExact_ok hpeek
      rw [hdelivered, hunread, ih]
  | read call =>
      cases hstep
      have hread := appended_pollRead call.wrap call.answer call.buf h.stream
      rw [← hread, ← List.append_assoc] at ih
      exact ih

/-- **Peeking and reading are transparent.**  Over every stream of the connection and every
run of reads and successful peeks, however the connection's reads are cut: a peek returns the
next unread bytes and leaves them unread, and what the reads have delivered, then the buffer
and then the rest of the connection are the original stream. -/
theorem peek_and_read_transparent (original : Bytes) (h : History)
    (reach : (calls (new original)).Reachable h) :
    (∀ n answers bytes s', h.stream.peekExact n answers = .ok bytes s' →
      bytes.length = n ∧ bytes = (original.drop h.delivered.length).take n ∧
        s'.unread = h.stream.unread) ∧
    h.delivered ++ h.stream.intoInner.2 ++ h.stream.intoInner.1 = original := by
  have hall : h.delivered ++ h.stream.unread = original := delivered_append_unread reach
  constructor
  · intro n answers bytes s' hpeek
    obtain ⟨hlength, hbytes, hunread⟩ := peekExact_ok hpeek
    refine ⟨hlength, ?_, hunread⟩
    rw [hbytes, ← hall, List.drop_left]
  · rw [List.append_assoc]
    exact hall

/-- The transparency after a peek in two pieces and a read of less than what was peeked. -/
theorem peek_and_read_transparent_fragments :
    ∃ h, (calls (new [1, 2, 3, 4])).Reachable h ∧ h.delivered = [1] ∧
      h.stream.peekExact 3 [.data 9] = .ok [2, 3, 4] ⟨[], [2, 3, 4]⟩ ∧
      h.delivered ++ h.stream.intoInner.2 ++ h.stream.intoInner.1 = [1, 2, 3, 4] := by
  have reach : (calls (new [1, 2, 3, 4])).Reachable ⟨⟨[4], [2, 3]⟩, [1]⟩ :=
    System.reachable_of_run _
      [.peek 3 [.pending, .data 1, .data 5], .read ⟨0, .pending, ReadBuf.new 5⟩] (by decide)
  exact ⟨_, reach, rfl, by decide, (peek_and_read_transparent _ _ reach).2⟩

/-! ## The mixed server -/

/-- What `HttpSocks5Server::serve_connection` does with a connection. -/
inductive Served where
  /-- The first byte could not be read. -/
  | closed
  | socks5 (socket : PeekableTcpStream)
  | http (socket : PeekableTcpStream)
deriving Repr, DecidableEq

/-- `HttpSocks5Server::serve_connection` up to the server it hands the connection to; `none`
while the first byte is awaited. -/
def serveConnection (socket : Bytes) (answers : List Answer) : Option Served :=
  match (new socket).peekExact 1 answers with
  | .ok bytes socket => if bytes = [0x05] then some (.socks5 socket) else some (.http socket)
  | .failed _ _ => some .closed
  | .waiting => none

/-- A connection whose first byte is read is handed on **with all of its bytes**, to the SOCKS5
server if it begins with the version byte and to the HTTP server if not. -/
theorem serveConnection_handsOn {tcp : Bytes} {answers : List Answer} {served : Served}
    (h : serveConnection tcp answers = some served) (opened : served ≠ .closed) :
    ∃ socket, socket.unread = tcp ∧
      served = if tcp.take 1 = [0x05] then .socks5 socket else .http socket := by
  unfold serveConnection at h
  cases hpeek : (new tcp).peekExact 1 answers with
  | ok bytes socket =>
      obtain ⟨_, hbytes, hunread⟩ := peekExact_ok hpeek
      have hfirst : bytes = tcp.take 1 := hbytes
      simp only [hpeek, hfirst, ← apply_ite, Option.some.injEq] at h
      exact ⟨socket, hunread, h.symm⟩
  | failed e socket =>
      simp only [hpeek, Option.some.injEq] at h
      exact absurd h.symm opened
  | waiting =>
      simp only [hpeek] at h
      cases h

/-! ## A peek that fails -/

/-- Bytes that some reads can deliver from here. -/
def Deliverable (s : PeekableTcpStream) (bytes : Bytes) : Prop :=
  ∃ reads : List ReadCall, ((calls s).run (reads.map .read)).map History.delivered = some bytes

/-- A read of one byte. -/
def readOne : ReadCall := ⟨0, .data 1, ReadBuf.new 1⟩

/-- A read of one byte delivers the next one. -/
theorem read_readOne {h : History} {byte : UInt8} {rest : Bytes}
    (hunread : h.stream.unread = byte :: rest) :
    (h.read readOne).delivered = h.delivered ++ [byte] := by
  obtain ⟨⟨tcp, buf⟩, delivered⟩ := h
  cases buf with
  | nil =>
      have htcp : tcp = byte :: rest := hunread
      subst htcp
      rfl
  | cons first buf =>
      have hfirst : first = byte := (List.cons.inj hunread).1
      subst hfirst
      rfl

/-- **What later reads can deliver are the beginnings of the unread bytes.** -/
theorem deliverable_iff (s : PeekableTcpStream) (bytes : Bytes) :
    s.Deliverable bytes ↔ bytes <+: s.unread := by
  constructor
  · rintro ⟨reads, hrun⟩
    obtain ⟨h, hend, rfl⟩ := Option.map_eq_some_iff.mp hrun
    have hall := delivered_append_unread (System.reachable_of_run _ _ hend)
    exact ⟨_, hall⟩
  · -- One read per byte, so the induction is on the bytes, the last one first.
    induction bytes using List.reverseRecOn with
    | nil => exact fun _ => ⟨[], rfl⟩
    | append_singleton bytes byte ih =>
        rintro ⟨rest, hrest⟩
        obtain ⟨reads, hrun⟩ := ih ⟨byte :: rest, by rw [← hrest]; simp⟩
        obtain ⟨h, hend, hdelivered⟩ := Option.map_eq_some_iff.mp hrun
        have hall := delivered_append_unread (System.reachable_of_run _ _ hend)
        have hunread : h.stream.unread = byte :: rest := by
          rw [hdelivered, ← hrest, List.append_assoc] at hall
          exact List.append_cancel_left hall
        refine ⟨reads ++ [readOne], ?_⟩
        rw [List.map_append, List.map_singleton, System.run_snoc, hend]
        show some (h.read readOne).delivered = _
        rw [read_readOne hunread, hdelivered]

/-- The same bytes can be delivered exactly if the same bytes are unread. -/
theorem deliverable_congr_iff (s s' : PeekableTcpStream) :
    (∀ bytes, s'.Deliverable bytes ↔ s.Deliverable bytes) ↔ s'.unread = s.unread := by
  constructor
  · intro hsame
    have hle : s'.unread <+: s.unread :=
      (deliverable_iff s _).mp ((hsame _).mp ((deliverable_iff s' _).mpr List.prefix_rfl))
    have hge : s.unread <+: s'.unread :=
      (deliverable_iff s' _).mp ((hsame _).mpr ((deliverable_iff s _).mpr List.prefix_rfl))
    exact hle.eq_of_length_le hge.length_le
  · intro hsame bytes
    rw [deliverable_iff, deliverable_iff, hsame]

/-- What the first read that is not pending brings into a buffer with `room`. -/
def firstRead (room : ℕ) (tcp : Bytes) : List Answer → Bytes
  | [] => []
  | .pending :: answers => firstRead room tcp answers
  | .error _ :: _ => []
  | .data n :: _ => tcp.take (min n room)

/-- `read_exact` that fails has nothing in its buffer exactly if its first read brought
nothing. -/
theorem readExact_failed_nil_iff {size : ℕ} (pos : 0 < size) (answers : List Answer)
    {tcp : Bytes} {e : IoError} {read tcp' : Bytes}
    (h : readExact size answers [] tcp = .failed e read tcp') :
    read = [] ↔ firstRead size tcp answers = [] := by
  have hroom : ¬ ([] : Bytes).length = size := by
    rw [List.length_nil]
    omega
  induction answers with
  | nil =>
      unfold readExact at h
      rw [if_neg hroom] at h
      cases h
  | cons answer answers ih =>
      unfold readExact at h
      rw [if_neg hroom] at h
      cases answer with
      | pending => exact ih h
      | error e =>
          cases h
          exact Iff.rfl
      | data n =>
          simp only [List.length_nil, Nat.sub_zero, List.nil_append] at h
          show read = [] ↔ tcp.take (min n size) = []
          by_cases hpiece : tcp.take (min n size) = []
          · rw [if_pos hpiece] at h
            cases h
            exact ⟨fun _ => hpiece, fun _ => rfl⟩
          · rw [if_neg hpiece] at h
            -- The first piece stays in the buffer until the failure.
            have hkeeps := readExact_extends size answers (tcp.take (min n size))
              (tcp.drop (tcp.take (min n size)).length)
            rw [h] at hkeeps
            refine ⟨fun hread => absurd ?_ hpiece, fun hnil => absurd hnil hpiece⟩
            rw [show ReadExact.read (.failed e read tcp') = read from rfl, hread] at hkeeps
            exact List.prefix_nil.mp hkeeps

/-- A peek fails in `read_exact`, and keeps the ring buffer and what is left of the
connection. -/
theorem peekExact_failed {n : ℕ} {answers : List Answer} {s s' : PeekableTcpStream} {e : Error}
    (h : s.peekExact n answers = .failed e s') :
    0 < n - s.buf.length ∧ ∃ cause read,
      readExact (n - s.buf.length) answers [] s.tcp = .failed cause read s'.tcp ∧
        s'.buf = s.buf := by
  unfold peekExact fillBuf at h
  by_cases hsize : n > s.buf.length
  · rw [if_pos hsize] at h
    refine ⟨by omega, ?_⟩
    cases hread : readExact (n - s.buf.length) answers [] s.tcp with
    | done | waiting =>
        simp only [hread] at h
        cases h
    | failed cause read tcp =>
        simp only [hread] at h
        cases h
        exact ⟨cause, read, rfl, rfl⟩
  · rw [if_neg hsize] at h
    cases h

/-- **When a failed peek loses nothing.**  After a peek that fails, later reads can deliver
exactly what they could before if and only if the first read of the peek brought no byte. -/
theorem failed_peek_keeps_iff (s s' : PeekableTcpStream) (n : ℕ) (answers : List Answer)
    (e : Error) (h : s.peekExact n answers = .failed e s') :
    (∀ bytes, s'.Deliverable bytes ↔ s.Deliverable bytes) ↔
      firstRead (n - s.buf.length) s.tcp answers = [] := by
  obtain ⟨pos, cause, read, hread, hbuf⟩ := peekExact_failed h
  have hmoves : read ++ s'.tcp = s.tcp := by
    have hmoves := readExact_moves (n - s.buf.length) answers [] s.tcp
    rw [hread] at hmoves
    exact hmoves
  have hunread : s'.unread = s.unread ↔ read = [] := by
    unfold unread
    rw [hbuf, List.append_cancel_left_eq, ← hmoves]
    exact List.self_eq_append_left
  rw [deliverable_congr_iff, hunread]
  exact readExact_failed_nil_iff pos answers hread

/-- A connection that breaks, before a byte of it is read and after one: the bytes peeked
earlier stay, and the byte that was read is missing. -/
theorem failed_peek_keeps_buffered :
    (⟨[3], [1, 2]⟩ : PeekableTcpStream).peekExact 3 [.pending, .error ⟨.connectionAborted, ""⟩] =
        .failed (.io ⟨.connectionAborted, ""⟩) ⟨[3], [1, 2]⟩ ∧
      (∀ bytes, (⟨[3], [1, 2]⟩ : PeekableTcpStream).Deliverable bytes ↔
        (⟨[3], [1, 2]⟩ : PeekableTcpStream).Deliverable bytes) ∧
      ¬ ∀ bytes, (⟨[4], [1, 2]⟩ : PeekableTcpStream).Deliverable bytes ↔
        (⟨[3, 4], [1, 2]⟩ : PeekableTcpStream).Deliverable bytes :=
  ⟨by decide,
    (failed_peek_keeps_iff _ _ 3 [.pending, .error ⟨.connectionAborted, ""⟩]
      (.io ⟨.connectionAborted, ""⟩) (by decide)).mpr (by decide),
    (failed_peek_keeps_iff _ _ 4 [.data 1, .error ⟨.connectionAborted, ""⟩]
      (.io ⟨.connectionAborted, ""⟩) (by decide)).not.mpr (by decide)⟩

/-- The peer sends one byte and closes: a peek at two bytes fails, and the byte that could be
read before cannot be read any more. -/
theorem failed_peek_loses_byte :
    (new [7]).peekExact 2 [.data 1, .data 1] =
        .failed (.io { kind := .unexpectedEof, message := "early eof" }) ⟨[], []⟩ ∧
      (new [7]).Deliverable [7] ∧ ¬ (⟨[], []⟩ : PeekableTcpStream).Deliverable [7] := by
  refine ⟨by decide, (deliverable_iff _ _).mpr List.prefix_rfl, ?_⟩
  rw [deliverable_iff]
  decide

end PeekableTcpStream

end RabbitDigger
