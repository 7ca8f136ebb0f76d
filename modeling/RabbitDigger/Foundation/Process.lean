import Mathlib.Data.List.Infix
import RabbitDigger.Foundation.Polling

/-!
# Processes that talk over a byte stream

A `Process` writes into a buffer of its own, flushes it, waits for an exact number of symbols,
and asks its surroundings.  The stream may cut what is written and read **into any pieces**; none
of this shows in the outcome.

* `Reader` — a program of exact reads; `Reader.run` is what it makes of a whole input.
* `Process.eval` — what a process writes, asks and returns on a *whole* input, as a function.
* `Party` — a process in the middle of its work: what it has buffered, what it has read of the
  piece it waits for.  `Party.Consistent` says that all it has done is what `eval` says, and
  every step keeps this (`Party.Consistent.step`).
* `Party.leads_acc` — every process comes to an end, whatever the stream does.
-/

namespace Dialogue

open Polling

/-! ## Readers -/

/-- A program of exact reads. -/
inductive Reader (β : Type) (α : Type) where
  | done (value : α)
  | exact (n : ℕ) (next : List β → Reader β α)

namespace Reader

variable {β α : Type}

/-- The value that a reader returns on an input, and what it leaves of it; `none` if it needs
more. -/
def run : Reader β α → List β → Option (α × List β)
  | .done value, input => some (value, input)
  | .exact n next, input =>
      if n ≤ input.length then (next (input.take n)).run (input.drop n) else none

/-- What a reader waits for is there. -/
theorem run_exact {n : ℕ} {next : List β → Reader β α} (piece : List β) {rest : List β}
    (h : piece.length = n) : (Reader.exact n next).run (piece ++ rest) = (next piece).run rest := by
  have hle : n ≤ (piece ++ rest).length := by
    rw [List.length_append, h]
    exact Nat.le_add_right _ _
  rw [run, if_pos hle, List.take_left' h, List.drop_left' h]

/-- A reader that returns has found what it has waited for. -/
theorem exists_of_run_exact {n : ℕ} {next : List β → Reader β α} {input : List β}
    {x : α × List β} (h : (Reader.exact n next).run input = some x) :
    ∃ piece rest, piece.length = n ∧ input = piece ++ rest ∧ (next piece).run rest = some x := by
  unfold run at h
  split at h
  · rename_i hle
    exact ⟨_, _, List.length_take_of_le hle, (List.take_append_drop n input).symm, h⟩
  · cases h

/-- A reader does not look at what it leaves. -/
theorem run_append {reader : Reader β α} {input rest : List β} {value : α}
    (h : reader.run input = some (value, rest)) (more : List β) :
    reader.run (input ++ more) = some (value, rest ++ more) := by
  induction reader generalizing input with
  | done v =>
      cases h
      rfl
  | exact n next ih =>
      unfold run at h
      split at h
      · rename_i hle
        have hlength : n ≤ (input ++ more).length := by
          rw [List.length_append]
          omega
        unfold run
        rw [if_pos hlength, List.take_append_of_le_length hle, List.drop_append_of_le_length hle]
        exact ih _ h
      · cases h

end Reader

/-! ## Processes -/

/-- A process that reads from a stream and writes to one through a buffer. -/
inductive Process (β : Type) (I : Interface) (α : Type) where
  | done (value : α)
  /-- Write all of this. -/
  | write (data : List β) (next : Process β I α)
  /-- Write the buffer out. -/
  | flush (next : Process β I α)
  /-- Wait for so many symbols; `none` if the stream ends before. -/
  | readExact (n : ℕ) (next : Option (List β) → Process β I α)
  /-- Ask the surroundings. -/
  | ask (call : I.Call) (next : I.Answer call → Process β I α)

/-- What a process does on an input: what it writes and asks, and the value it returns with
what it leaves of the input; no value if it waits for more. -/
@[ext]
structure Eval (β : Type) (I : Interface) (α : Type) where
  written : List β
  asked : List I.Call
  result : Option (α × List β)

/-- The same, with this written and asked before. -/
def Eval.after {β : Type} {I : Interface} {α : Type} (written : List β) (asked : List I.Call)
    (x : Eval β I α) : Eval β I α where
  written := written ++ x.written
  asked := asked ++ x.asked
  result := x.result

namespace Eval

variable {β : Type} {I : Interface} {α : Type}

@[simp] theorem after_after (w w' : List β) (a a' : List I.Call) (x : Eval β I α) :
    (x.after w' a').after w a = x.after (w ++ w') (a ++ a') := by
  simp [after]

@[simp] theorem written_after (w : List β) (a : List I.Call) (x : Eval β I α) :
    (x.after w a).written = w ++ x.written := rfl

@[simp] theorem asked_after (w : List β) (a : List I.Call) (x : Eval β I α) :
    (x.after w a).asked = a ++ x.asked := rfl

@[simp] theorem result_after (w : List β) (a : List I.Call) (x : Eval β I α) :
    (x.after w a).result = x.result := rfl

end Eval

namespace Process

variable {β : Type} {I : Interface} {α γ : Type}

/-- One process after the other. -/
protected def bind : Process β I α → (α → Process β I γ) → Process β I γ
  | .done value, f => f value
  | .write data next, f => .write data (next.bind f)
  | .flush next, f => .flush (next.bind f)
  | .readExact n next, f => .readExact n fun got => (next got).bind f
  | .ask call next, f => .ask call fun answer => (next answer).bind f

instance : Monad (Process β I) where
  pure := .done
  bind := Process.bind

/-- What a process does, given the answers of its surroundings, on a whole input; `ended` says
whether the stream ends there. -/
def eval (answers : (call : I.Call) → I.Answer call) :
    Process β I α → List β → Bool → Eval β I α
  | .done value, input, _ => ⟨[], [], some (value, input)⟩
  | .write data next, input, ended => (next.eval answers input ended).after data []
  | .flush next, input, ended => next.eval answers input ended
  | .readExact n next, input, ended =>
      if n ≤ input.length then
        (next (some (input.take n))).eval answers (input.drop n) ended
      else if ended then (next none).eval answers [] ended
      else ⟨[], [], none⟩
  | .ask call next, input, ended =>
      ((next (answers call)).eval answers input ended).after [] [call]

section Eval

variable {answers : (call : I.Call) → I.Answer call}

/-- A value that was returned without the end of the stream stays, whatever follows. -/
theorem eval_append {p : Process β I α} {input rest : List β} {value : α}
    (h : (p.eval answers input false).result = some (value, rest)) (more : List β)
    (ended : Bool) :
    p.eval answers (input ++ more) ended =
      ⟨(p.eval answers input false).written, (p.eval answers input false).asked,
        some (value, rest ++ more)⟩ := by
  induction p generalizing input with
  | done v =>
      cases h
      rfl
  | write data next ih =>
      simp only [eval, Eval.result_after] at h ⊢
      rw [ih h]
      rfl
  | flush next ih => exact ih h
  | readExact n next ih =>
      simp only [eval] at h ⊢
      by_cases hle : n ≤ input.length
      · have hlength : n ≤ (input ++ more).length := by
          rw [List.length_append]
          omega
        rw [if_pos hle] at h ⊢
        rw [if_pos hlength, List.take_append_of_le_length hle,
          List.drop_append_of_le_length hle]
        exact ih _ h
      · rw [if_neg hle] at h
        cases h
  | ask call next ih =>
      simp only [eval, Eval.result_after] at h ⊢
      rw [ih _ h]
      rfl

/-- Evaluating one process after the other. -/
theorem eval_bind (p : Process β I α) (f : α → Process β I γ) (input : List β) (ended : Bool) :
    (p >>= f).eval answers input ended =
      match (p.eval answers input ended).result with
      | some (value, rest) =>
          ((f value).eval answers rest ended).after (p.eval answers input ended).written
            (p.eval answers input ended).asked
      | none =>
          ⟨(p.eval answers input ended).written, (p.eval answers input ended).asked, none⟩ := by
  show (p.bind f).eval answers input ended = _
  induction p generalizing input ended with
  | done v => rfl
  | write data next ih =>
      simp only [Process.bind, eval, ih, Eval.result_after]
      rcases (next.eval answers input ended).result with _ | ⟨value, rest⟩
      · simp [Eval.after]
      · simp
  | flush next ih => exact ih input ended
  | readExact n next ih =>
      simp only [Process.bind, eval]
      split
      · exact ih _ _ _
      · split
        · exact ih _ _ _
        · rfl
  | ask call next ih =>
      simp only [Process.bind, eval, ih, Eval.result_after]
      rcases ((next (answers call)).eval answers input ended).result with _ | ⟨value, rest⟩
      · simp [Eval.after]
      · simp

/-- What is left of the input is an end of it. -/
theorem rest_suffix {p : Process β I α} {input rest : List β} {ended : Bool} {value : α}
    (h : (p.eval answers input ended).result = some (value, rest)) : rest <:+ input := by
  induction p generalizing input with
  | done v =>
      cases h
      exact List.suffix_rfl
  | write data next ih => exact ih h
  | flush next ih => exact ih h
  | readExact n next ih =>
      simp only [eval] at h
      split at h
      · exact (ih _ h).trans (List.drop_suffix _ _)
      · split at h
        · exact (ih _ h).trans (List.nil_suffix)
        · cases h
  | ask call next ih => exact ih _ h

end Eval

/-- A process that runs a reader; no value if the stream ends before. -/
def read : Reader β α → Process β I (Option α)
  | .done value => .done (some value)
  | .exact n next =>
      .readExact n fun
        | some got => read (next got)
        | none => .done none

theorem eval_read (answers : (call : I.Call) → I.Answer call) (reader : Reader β α)
    (input : List β) (ended : Bool) :
    (read reader : Process β I (Option α)).eval answers input ended =
      match reader.run input with
      | some (value, rest) => ⟨[], [], some (some value, rest)⟩
      | none => if ended then ⟨[], [], some (none, [])⟩ else ⟨[], [], none⟩ := by
  induction reader generalizing input with
  | done v => rfl
  | exact n next ih =>
      simp only [read, eval, Reader.run]
      split
      · exact ih _ _
      · rfl

/-- The process does not wait, and does not end, with something in its buffer; `clean` says
that there is nothing in it now. -/
def Flushes : Process β I α → Bool → Prop
  | .done _, clean => clean = true
  | .write _ next, _ => next.Flushes false
  | .flush next, _ => next.Flushes true
  | .readExact _ next, clean => clean = true ∧ ∀ got, (next got).Flushes true
  | .ask _ next, clean => ∀ answer, (next answer).Flushes clean

/-- Running a reader leaves the buffer empty. -/
theorem flushes_read (reader : Reader β α) :
    (read reader : Process β I (Option α)).Flushes true := by
  induction reader with
  | done value => rfl
  | exact n next ih =>
      unfold read Flushes
      refine ⟨rfl, fun got => ?_⟩
      cases got with
      | none => rfl
      | some got => exact ih got

/-- One process after the other. -/
theorem Flushes.bind {p : Process β I α} {clean : Bool} (h : p.Flushes clean)
    {f : α → Process β I γ} (hf : ∀ value, (f value).Flushes true) : (p >>= f).Flushes clean := by
  show (p.bind f).Flushes clean
  induction p generalizing clean with
  | done value =>
      have hclean : clean = true := h
      subst hclean
      exact hf value
  | write data next ih => exact ih h
  | flush next ih => exact ih h
  | readExact n next ih => exact ⟨h.1, fun got => ih got (h.2 got)⟩
  | ask call next ih => exact fun answer => ih answer (h answer)

end Process

/-! ## Parties -/

/-- A process in the middle of its work. -/
structure Party (β : Type) (I : Interface) (α : Type) where
  process : Process β I α
  /-- What it has read of the symbols it waits for. -/
  got : List β
  /-- What it has written and not flushed. -/
  buffer : List β
  /-- All it has read. -/
  consumed : List β
  /-- All it has written. -/
  written : List β
  /-- All it has asked. -/
  asked : List I.Call
  /-- Whether it has seen the end of its stream. -/
  sawEnd : Bool

namespace Party

variable {β : Type} {I : Interface} {α : Type}

/-- A process that begins. -/
def start (p : Process β I α) : Party β I α where
  process := p
  got := []
  buffer := []
  consumed := []
  written := []
  asked := []
  sawEnd := false

/-- The value it has returned. -/
def result (x : Party β I α) : Option α :=
  match x.process with
  | .done value => some value
  | _ => none

/-- The next `k` symbols of the buffer are written out. -/
def drain (x : Party β I α) (k : ℕ) (incoming : List β) :
    Option (Party β I α × List β × List β) :=
  if 0 < k ∧ k ≤ x.buffer.length then
    some ({ x with buffer := x.buffer.drop k }, incoming, x.buffer.take k)
  else none

/-- Some of the `n` symbols that the process waits for have come. -/
def receive (x : Party β I α) (n : ℕ) (next : Option (List β) → Process β I α)
    (data : List β) : Party β I α :=
  if (x.got ++ data).length = n then
    { x with
      process := next (some (x.got ++ data))
      got := []
      consumed := x.consumed ++ data }
  else
    { x with
      got := x.got ++ data
      consumed := x.consumed ++ data }

/-- A step of a process, in which the streams move `k` symbols if any: from what is `incoming`,
with what is left of it and what goes out.  Writes go through a buffer: what does not fit is
written when the buffer is empty, past it if it is as large as the buffer. -/
def step (answers : (call : I.Call) → I.Answer call) (capacity k : ℕ) (incoming : List β)
    (ended : Bool) (x : Party β I α) : Option (Party β I α × List β × List β) :=
  match x.process with
  | .done _ => none
  | .write data next =>
      if data = [] then some ({ x with process := next }, incoming, [])
      else if capacity < x.buffer.length + data.length ∧ x.buffer ≠ [] then x.drain k incoming
      else if capacity ≤ data.length then
        if 0 < k ∧ k ≤ data.length then
          some ({ x with
            process := .write (data.drop k) next
            written := x.written ++ data.take k }, incoming, data.take k)
        else none
      else
        some ({ x with
          process := next
          buffer := x.buffer ++ data
          written := x.written ++ data }, incoming, [])
  | .flush next =>
      if x.buffer = [] then some ({ x with process := next }, incoming, [])
      else x.drain k incoming
  | .readExact n next =>
      if x.got.length + k ≤ n ∧ k ≤ incoming.length ∧ (0 < k ∨ n = 0) then
        some (x.receive n next (incoming.take k), incoming.drop k, [])
      else if incoming = [] ∧ ended = true ∧ n ≠ 0 then
        some ({ x with process := next none, got := [], sawEnd := true }, [], [])
      else none
  | .ask call next =>
      some ({ x with process := next (answers call), asked := x.asked ++ [call] }, incoming, [])

section Receive

variable (x : Party β I α) (n : ℕ) (next : Option (List β) → Process β I α) (data : List β)

@[simp] theorem consumed_receive : (x.receive n next data).consumed = x.consumed ++ data := by
  unfold receive
  split <;> rfl

@[simp] theorem written_receive : (x.receive n next data).written = x.written := by
  unfold receive
  split <;> rfl

@[simp] theorem buffer_receive : (x.receive n next data).buffer = x.buffer := by
  unfold receive
  split <;> rfl

@[simp] theorem sawEnd_receive : (x.receive n next data).sawEnd = x.sawEnd := by
  unfold receive
  split <;> rfl

end Receive

/-- What was read is still too little for the read it is for. -/
def Waits (x : Party β I α) : Prop :=
  match x.process with
  | .readExact n _ => x.got.length < n ∨ n = 0 ∧ x.got = []
  | _ => x.got = []

/-- **What a party keeps**: with what it has done before, it does on what is still to come what
its process does on everything. -/
structure Consistent (answers : (call : I.Call) → I.Answer call) (p : Process β I α)
    (x : Party β I α) : Prop where
  explained : ∀ more ended, (x.sawEnd = true → more = [] ∧ ended = true) →
    p.eval answers (x.consumed ++ more) ended =
      (x.process.eval answers (x.got ++ more) ended).after x.written x.asked
  waits : x.Waits
  flushes : ∃ clean, x.process.Flushes clean ∧ (clean = true → x.buffer = [])

/-- What a step does to the streams. -/
structure Moved (x : Party β I α) (incoming : List β) (ended : Bool) (x' : Party β I α)
    (incoming' out : List β) : Prop where
  active : x.result = none
  consumed : x'.consumed ++ incoming' = x.consumed ++ incoming
  written : ∃ said, x'.written = x.written ++ said ∧ x.buffer ++ said = out ++ x'.buffer
  sawEnd : x'.sawEnd = true → incoming' = [] ∧ (x.sawEnd = true ∨ ended = true)

section Step

variable {answers : (call : I.Call) → I.Answer call} {p : Process β I α} {x x' : Party β I α}
variable {capacity k : ℕ} {incoming incoming' out : List β} {ended : Bool}

theorem waits_of_nil (h : x.got = []) : x.Waits := by
  unfold Waits
  split
  · rcases Nat.eq_zero_or_pos ‹ℕ› with hn | hn
    · exact .inr ⟨hn, h⟩
    · rw [h]
      exact .inl hn
  · exact h

/-- A step that reads nothing: the process does on any input what it did before, after what
this step has written and asked. -/
theorem Consistent.advance (h : x.Consistent answers p) {said : List β} {calls : List I.Call}
    (hgot : x.got = []) (hgot' : x'.got = []) (hconsumed : x'.consumed = x.consumed)
    (hsaw : x'.sawEnd = x.sawEnd) (hwritten : x'.written = x.written ++ said)
    (hasked : x'.asked = x.asked ++ calls)
    (heval : ∀ input ended, x.process.eval answers input ended =
      (x'.process.eval answers input ended).after said calls)
    (hflushes : ∃ clean, x'.process.Flushes clean ∧ (clean = true → x'.buffer = [])) :
    x'.Consistent answers p where
  explained more ended hmore := by
    rw [hsaw] at hmore
    rw [hconsumed, h.explained more ended hmore, heval, Eval.after_after, hwritten, hasked, hgot,
      hgot']
  waits := waits_of_nil hgot'
  flushes := hflushes

/-- Writing out a part of the buffer. -/
theorem Consistent.drain (h : x.Consistent answers p) (hflushes : x.process.Flushes false)
    (hactive : x.result = none) (hend : x.sawEnd = true → incoming = [])
    (hstep : x.drain k incoming = some (x', incoming', out)) :
    x'.Consistent answers p ∧ Moved x incoming ended x' incoming' out := by
  unfold Party.drain at hstep
  split at hstep
  · cases hstep
    refine ⟨⟨h.explained, h.waits, false, hflushes, by simp⟩, hactive, rfl, ⟨[], ?_, ?_⟩, ?_⟩
    · exact (List.append_nil _).symm
    · simp
    · exact fun hsaw => ⟨hend hsaw, .inl hsaw⟩
  · cases hstep

/-- Reading `k` symbols of those the process waits for. -/
theorem Consistent.read (h : x.Consistent answers p) {n : ℕ}
    {next : Option (List β) → Process β I α} (hprocess : x.process = .readExact n next)
    (hend : x.sawEnd = true → incoming = []) (hroom : x.got.length + k ≤ n)
    (hk : k ≤ incoming.length) (hflushes : ∀ got, (next got).Flushes true)
    (hclean : x.buffer = []) :
    (x.receive n next (incoming.take k)).Consistent answers p := by
  have hlength : (x.got ++ incoming.take k).length = x.got.length + k := by
    rw [List.length_append, List.length_take, Nat.min_eq_left hk]
  -- what is read now was to come before
  have hexplained : ∀ more ended, (x.sawEnd = true → more = [] ∧ ended = true) →
      p.eval answers (x.consumed ++ incoming.take k ++ more) ended =
        (x.process.eval answers (x.got ++ incoming.take k ++ more) ended).after x.written
          x.asked := by
    intro more ended hmore
    rw [List.append_assoc, List.append_assoc]
    refine h.explained _ _ fun hsaw => ?_
    rw [hend hsaw, (hmore hsaw).1]
    exact ⟨by simp, (hmore hsaw).2⟩
  unfold receive
  split
  · rename_i hfull
    refine ⟨fun more ended hmore => ?_, waits_of_nil rfl, true, hflushes _, fun _ => hclean⟩
    rw [hexplained more ended hmore, hprocess]
    have hle : n ≤ (x.got ++ incoming.take k ++ more).length := by
      rw [List.length_append, hfull]
      omega
    show (Process.eval answers (.readExact n next) _ _).after _ _ = _
    rw [Process.eval, if_pos hle, List.take_left' hfull, List.drop_left' hfull]
    rfl
  · rename_i hpart
    refine ⟨fun more ended hmore => hexplained more ended hmore, ?_, true, ?_, fun _ => hclean⟩
    · unfold Waits
      simp only [hprocess]
      omega
    · show x.process.Flushes true
      rw [hprocess]
      exact ⟨rfl, hflushes⟩

/-- The end of the stream. -/
theorem Consistent.end (h : x.Consistent answers p) {n : ℕ}
    {next : Option (List β) → Process β I α} (hprocess : x.process = .readExact n next)
    (hn : n ≠ 0) (hflushes : ∀ got, (next got).Flushes true) (hclean : x.buffer = []) :
    ({ x with process := next none, got := [], sawEnd := true } : Party β I α).Consistent
      answers p where
  explained more ended hmore := by
    obtain ⟨rfl, rfl⟩ := hmore rfl
    have hwaits := h.waits
    unfold Waits at hwaits
    simp only [hprocess] at hwaits
    have hlt : ¬ n ≤ (x.got ++ []).length := by
      rw [List.append_nil]
      omega
    rw [h.explained [] true fun _ => ⟨rfl, rfl⟩, hprocess, Process.eval, if_neg hlt]
    rfl
  waits := waits_of_nil rfl
  flushes := ⟨true, hflushes _, fun _ => hclean⟩

/-- **The step lemma.**  A step of a party keeps it consistent with its process, and moves
symbols between it and the streams. -/
theorem Consistent.step (h : x.Consistent answers p) (hend : x.sawEnd = true → incoming = [])
    (hstep : x.step answers capacity k incoming ended = some (x', incoming', out)) :
    x'.Consistent answers p ∧ Moved x incoming ended x' incoming' out := by
  obtain ⟨clean, hflushes, hclean⟩ := h.flushes
  have hwaits := h.waits
  have hstays : x.sawEnd = true → incoming = [] ∧ (x.sawEnd = true ∨ ended = true) :=
    fun hsaw => ⟨hend hsaw, .inl hsaw⟩
  unfold Party.step at hstep
  unfold Waits at hwaits
  rcases hprocess : x.process with value | ⟨data, next⟩ | next | ⟨n, next⟩ | ⟨call, next⟩
  all_goals
    rw [hprocess] at hflushes
    simp only [hprocess] at hstep hwaits
  · cases hstep
  · have hactive : x.result = none := by simp [result, hprocess]
    split at hstep
    · -- nothing to write
      rename_i hdata
      cases hstep
      refine ⟨h.advance hwaits hwaits rfl rfl (List.append_nil _).symm (List.append_nil _).symm
        ?_ ⟨false, hflushes, by simp⟩, hactive, rfl, ⟨[], by simp, by simp⟩, hstays⟩
      intro input ended
      rw [hprocess, hdata]
      rfl
    · split at hstep
      · exact h.drain (hprocess ▸ hflushes) hactive hend hstep
      · split at hstep
        · split at hstep
          · -- past the buffer, which is empty
            rename_i hempty hlarge _
            have hbuffer : x.buffer = [] := by
              by_contra hne
              exact hempty ⟨by have := List.length_pos_of_ne_nil hne; omega, hne⟩
            cases hstep
            refine ⟨h.advance hwaits hwaits rfl rfl rfl (List.append_nil _).symm ?_
              ⟨false, hflushes, by simp⟩, hactive, rfl, ⟨_, rfl, by simp [hbuffer]⟩, hstays⟩
            intro input ended
            rw [hprocess, Process.eval, Process.eval, Eval.after_after, List.append_nil,
              List.take_append_drop]
          · cases hstep
        · -- into the buffer
          cases hstep
          refine ⟨h.advance hwaits hwaits rfl rfl rfl (List.append_nil _).symm ?_
            ⟨false, hflushes, by simp⟩, hactive, rfl, ⟨_, rfl, rfl⟩, hstays⟩
          intro input ended
          rw [hprocess]
          rfl
  · have hactive : x.result = none := by simp [result, hprocess]
    split at hstep
    · rename_i hbuffer
      cases hstep
      refine ⟨h.advance hwaits hwaits rfl rfl (List.append_nil _).symm (List.append_nil _).symm
        ?_ ⟨true, hflushes, fun _ => hbuffer⟩, hactive, rfl, ⟨[], by simp, by simp⟩, hstays⟩
      intro input ended
      rw [hprocess]
      rfl
    · refine h.drain ?_ hactive hend hstep
      rw [hprocess]
      exact hflushes
  · have hactive : x.result = none := by simp [result, hprocess]
    obtain ⟨hcleanTrue, hnext⟩ := hflushes
    split at hstep
    · rename_i hk
      cases hstep
      refine ⟨h.read hprocess hend hk.1 hk.2.1 hnext (hclean hcleanTrue), hactive, ?_,
        ⟨[], ?_, ?_⟩, ?_⟩
      · simp
      · simp
      · simp
      · intro hsaw
        rw [sawEnd_receive] at hsaw
        rw [hend hsaw]
        exact ⟨List.drop_nil, .inl hsaw⟩
    · split at hstep
      · rename_i hended
        cases hstep
        obtain ⟨rfl, rfl, hn⟩ := hended
        exact ⟨h.end hprocess hn hnext (hclean hcleanTrue), hactive, rfl, ⟨[], by simp, by simp⟩,
          fun _ => ⟨rfl, .inr rfl⟩⟩
      · cases hstep
  · have hactive : x.result = none := by simp [result, hprocess]
    cases hstep
    refine ⟨h.advance hwaits hwaits rfl rfl (List.append_nil _).symm rfl ?_
      ⟨clean, hflushes _, hclean⟩, hactive, rfl, ⟨[], by simp, by simp⟩, hstays⟩
    intro input ended
    rw [hprocess]
    rfl

/-- A party that has returned. -/
theorem Consistent.of_result (h : x.Consistent answers p) {value : α}
    (hresult : x.result = some value) :
    x.process = .done value ∧ x.got = [] ∧ x.buffer = [] := by
  unfold result at hresult
  split at hresult
  · rename_i hprocess
    cases hresult
    obtain ⟨clean, hflushes, hclean⟩ := h.flushes
    have hwaits := h.waits
    unfold Waits at hwaits
    simp only [hprocess] at hwaits hflushes
    exact ⟨hprocess, hwaits, hclean hflushes⟩
  · cases hresult

/-- What a party has done is a part of what its process does on what it has read. -/
theorem Consistent.eval_consumed (h : x.Consistent answers p) :
    p.eval answers x.consumed x.sawEnd =
      (x.process.eval answers x.got x.sawEnd).after x.written x.asked := by
  have hexplained := h.explained [] x.sawEnd fun hsaw => ⟨rfl, hsaw⟩
  rwa [List.append_nil, List.append_nil] at hexplained

theorem Consistent.written_within (h : x.Consistent answers p) :
    x.written <+: (p.eval answers x.consumed x.sawEnd).written := by
  rw [h.eval_consumed]
  exact List.prefix_append _ _

/-- What a party has returned is what its process returns on what it has read. -/
theorem Consistent.eval_of_result (h : x.Consistent answers p) {value : α}
    (hresult : x.result = some value) :
    p.eval answers x.consumed x.sawEnd = ⟨x.written, x.asked, some (value, [])⟩ := by
  obtain ⟨hprocess, hgot, -⟩ := h.of_result hresult
  rw [h.eval_consumed, hprocess, hgot]
  simp [Process.eval, Eval.after]

/-- A party has read nothing that its process would leave. -/
theorem Consistent.rest_nil (h : x.Consistent answers p) {value : α} {rest : List β}
    (hresult : (x.process.eval answers x.got ended).result = some (value, rest)) :
    rest = [] := by
  have hwaits := h.waits
  unfold Waits at hwaits
  have hnil : x.got = [] → rest = [] := by
    intro hgot
    rw [hgot] at hresult
    exact List.suffix_nil.mp (Process.rest_suffix hresult)
  split at hwaits
  · rename_i n next hprocess
    rcases hwaits with hlt | ⟨_, hgot⟩
    · rw [hprocess, Process.eval, if_neg (by omega)] at hresult
      split at hresult
      · exact List.suffix_nil.mp (Process.rest_suffix hresult)
      · cases hresult
    · exact hnil hgot
  · exact hnil hwaits

/-- A party that cannot move has returned, or it waits for more with everything written out. -/
theorem Consistent.of_stuck (h : x.Consistent answers p)
    (hstuck : ∀ k, x.step answers capacity k incoming ended = none) :
    (∃ value, x.result = some value) ∨
      (x.result = none ∧ incoming = [] ∧ ended = false ∧ x.buffer = [] ∧
        x.process.eval answers x.got false = ⟨[], [], none⟩) := by
  obtain ⟨clean, hflushes, hclean⟩ := h.flushes
  have hwaits := h.waits
  unfold Waits at hwaits
  unfold Party.step at hstuck
  rcases hprocess : x.process with value | ⟨data, next⟩ | next | ⟨n, next⟩ | ⟨call, next⟩
  all_goals
    rw [hprocess] at hflushes
    simp only [hprocess] at hstuck hwaits
  · exact .inl ⟨value, by simp [result, hprocess]⟩
  · -- one symbol can always be written
    have h1 := hstuck 1
    exfalso
    split at h1
    · cases h1
    · rename_i hdata
      split at h1
      · rename_i hfull
        have := List.length_pos_of_ne_nil hfull.2
        rw [Party.drain, if_pos (by omega)] at h1
        cases h1
      · split at h1
        · have := List.length_pos_of_ne_nil hdata
          rw [if_pos (by omega)] at h1
          cases h1
        · cases h1
  · have h1 := hstuck 1
    exfalso
    split at h1
    · cases h1
    · rename_i hbuffer
      have := List.length_pos_of_ne_nil hbuffer
      rw [Party.drain, if_pos (by omega)] at h1
      cases h1
  · right
    obtain ⟨hcleanTrue, -⟩ := hflushes
    -- neither a symbol nor the end can be read
    have hn : 0 < n := by
      by_contra hzero
      have h0 := hstuck 0
      have hgot : x.got = [] := by
        rcases hwaits with hlt | ⟨_, hgot⟩
        · omega
        · exact hgot
      rw [if_pos ⟨by rw [hgot]; exact Nat.zero_le _, Nat.zero_le _, .inr (by omega)⟩] at h0
      cases h0
    have hlt : x.got.length < n := by
      rcases hwaits with hlt | ⟨hzero, _⟩
      · exact hlt
      · omega
    have hincoming : incoming = [] := by
      by_contra hne
      have h1 := hstuck 1
      rw [if_pos ⟨by omega, List.length_pos_of_ne_nil hne, .inl Nat.one_pos⟩] at h1
      cases h1
    have hended : ended = false := by
      by_contra htrue
      have h1 := hstuck 1
      rw [if_neg (by rw [hincoming]; simp),
        if_pos ⟨hincoming, by simpa using htrue, by omega⟩] at h1
      cases h1
    refine ⟨by simp [result, hprocess], hincoming, hended, hclean hcleanTrue, ?_⟩
    rw [Process.eval, if_neg (by omega), if_neg (by simp)]
  · cases hstuck 0

/-- A step leads from `x` to `y`, whatever the streams do. -/
def Leads (answers : (call : I.Call) → I.Answer call) (capacity : ℕ) (y x : Party β I α) :
    Prop :=
  ∃ k incoming ended rest, x.step answers capacity k incoming ended = some (y, rest)

/-- How much the present instruction has still to move. -/
def pending (x : Party β I α) : ℕ :=
  match x.process with
  | .write data _ => data.length + x.buffer.length
  | .flush _ => x.buffer.length
  | .readExact n _ => n - x.got.length
  | _ => 0

/-- An instruction comes to its end, if each of its steps lowers what is pending or leads to
the end of another one. -/
theorem acc_of_pending {P : Party β I α → Prop}
    (hlower : ∀ x y, P x → Leads answers capacity y x →
      (P y ∧ y.pending < x.pending) ∨ Acc (Leads answers capacity) y)
    {x : Party β I α} (hx : P x) : Acc (Leads answers capacity) x := by
  induction hm : x.pending using Nat.strong_induction_on generalizing x with
  | _ m ih =>
      refine ⟨x, fun y hy => ?_⟩
      rcases hlower x y hx hy with ⟨hP, hlt⟩ | hacc
      · exact ih _ (hm ▸ hlt) hP rfl
      · exact hacc

/-- **Every process comes to an end**, whatever the streams do. -/
theorem leads_acc (answers : (call : I.Call) → I.Answer call) (capacity : ℕ)
    (x : Party β I α) : Acc (Leads answers capacity) x := by
  generalize hp : x.process = p
  induction p generalizing x with
  | done value =>
      refine ⟨x, ?_⟩
      rintro y ⟨k, incoming, ended, rest, hstep⟩
      simp [Party.step, hp] at hstep
  | write data next ih =>
      refine acc_of_pending (P := fun x => ∃ data, x.process = .write data next) ?_ ⟨data, hp⟩
      rintro x y ⟨data, hp⟩ ⟨k, incoming, ended, rest, hstep⟩
      simp only [Party.step, hp] at hstep
      split at hstep
      · cases hstep
        exact .inr (ih _ rfl)
      · split at hstep
        · unfold Party.drain at hstep
          split at hstep
          · cases hstep
            refine .inl ⟨⟨data, hp⟩, ?_⟩
            simp only [pending, hp, List.length_drop]
            omega
          · cases hstep
        · split at hstep
          · split at hstep
            · cases hstep
              refine .inl ⟨⟨_, rfl⟩, ?_⟩
              simp only [pending, hp, List.length_drop]
              omega
            · cases hstep
          · cases hstep
            exact .inr (ih _ rfl)
  | flush next ih =>
      refine acc_of_pending (P := fun x => x.process = .flush next) ?_ hp
      rintro x y hp ⟨k, incoming, ended, rest, hstep⟩
      simp only [Party.step, hp] at hstep
      split at hstep
      · cases hstep
        exact .inr (ih _ rfl)
      · unfold Party.drain at hstep
        split at hstep
        · cases hstep
          refine .inl ⟨hp, ?_⟩
          simp only [pending, hp, List.length_drop]
          omega
        · cases hstep
  | readExact n next ih =>
      refine acc_of_pending (P := fun x => x.process = .readExact n next) ?_ hp
      rintro x y hp ⟨k, incoming, ended, rest, hstep⟩
      simp only [Party.step, hp] at hstep
      split at hstep
      · rename_i hk
        cases hstep
        unfold receive
        split
        · exact .inr (ih _ _ rfl)
        · rename_i hpart
          refine .inl ⟨hp, ?_⟩
          rw [List.length_append, List.length_take, Nat.min_eq_left hk.2.1] at hpart
          simp only [pending, hp, List.length_append, List.length_take]
          omega
      · split at hstep
        · cases hstep
          exact .inr (ih _ _ rfl)
        · cases hstep
  | ask call next ih =>
      refine ⟨x, ?_⟩
      rintro y ⟨k, incoming, ended, rest, hstep⟩
      simp only [Party.step, hp] at hstep
      cases hstep
      exact ih _ _ rfl

end Step

end Party

end Dialogue
