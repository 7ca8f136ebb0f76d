import Mathlib.Data.List.TakeWhile
import RabbitDigger.Relay.Udp

/-!
# Waiting in the UDP relay

`poll_send_to` and `poll_recv_from` of the relay (`relayPass`) leave their outer loop in one way
only: a flag `registered`, set when one of the two ends has answered `Pending`.  Two things could
go wrong with this.  If neither end ever says `Pending` although there is nothing to do, the loop
**spins**.  If the function returns `Pending` while an end could be served and will not wake the
task, the relay **sleeps** for good.

That neither happens hangs on the buffers.  The first inner loop also ends when there is no buffer
left.  As there is always at least one buffer (`stock`), this means that all 16 are in the queue
and filled (`full_of_no_buffer`): then the second loop has something to do, and it ends with
`Pending` or with an empty queue.  So a pass that goes round again **empties a full queue**, and
the next one has to fill it again with 16 new packets (`Going.received`); a receiving end with
finitely many packets brings this to an end.
-/

namespace RabbitDigger.UdpRelay

open Polling

/-! ## What the two ends answer -/

/-- What kind of answer a call has got. -/
inductive Answered where
  | ok
  | failed
  | pending
deriving Repr, DecidableEq

/-- The kind of an answer. -/
def Answered.of {α : Type} : Poll (IoResult α) → Answered
  | .ready (.ok _) => .ok
  | .ready (.error _) => .failed
  | .pending => .pending

/-- What the receiving end of a direction has answered, if it was asked. -/
def receiveAnswer : Dir → Event packetInterface → Option Answered
  | .sendTo, ⟨.channelSendTo _, answer⟩ => some (.of answer)
  | .recvFrom, ⟨.socketRecvFrom _, answer⟩ => some (.of answer)
  | _, _ => none

/-- What the sending end of a direction has answered, if it was asked. -/
def sendAnswer : Dir → Event packetInterface → Option Answered
  | .sendTo, ⟨.socketSendTo _ _, answer⟩ => some (.of answer)
  | .recvFrom, ⟨.channelRecvFrom _ _, answer⟩ => some (.of answer)
  | _, _ => none

/-- All answers of the receiving end. -/
def receiveAnswers (dir : Dir) (events : Log packetInterface) : List Answered :=
  events.filterMap (receiveAnswer dir)

/-- All answers of the sending end. -/
def sendAnswers (dir : Dir) (events : Log packetInterface) : List Answered :=
  events.filterMap (sendAnswer dir)

/-- How many packets the receiving end has yielded before it answered `Pending` or an error. -/
def yielded (dir : Dir) (events : Log packetInterface) : ℕ :=
  ((receiveAnswers dir events).takeWhile (· = .ok)).length

/-! ## What is claimed of a call -/

/-- `poll_send_to` or `poll_recv_from`, on its queue. -/
def pollDir (env : Environment packetInterface) (dir : Dir) (n : ℕ)
    (x : CopyState) :
    CopyState × Outcome (IoResult Unit) :=
  match dir with
  | .sendTo => pollSendTo env n x
  | .recvFrom => pollRecvFrom env n x

/-- The states in which the relay calls its two functions: `poll` begins with `poll_send_to`, and
goes on with `poll_recv_from` when that has returned. -/
inductive Called (env : Environment packetInterface) :
    Dir → CopyState → Prop where
  | sendTo {relay : CopyBidirectional} {log : Log packetInterface} :
      Polled (CopyBidirectional.poll env) (.new, []) (relay, log) (.returned .pending) →
        Called env .sendTo (relay.sendQueue, log)
  | recvFrom {relay : CopyBidirectional} {log log' : Log packetInterface} {c : CopyBuffer}
      {answer : Poll (IoResult Unit)} (n : ℕ) :
      Polled (CopyBidirectional.poll env) (.new, []) (relay, log) (.returned .pending) →
        pollSendTo env n (relay.sendQueue, log) = ((c, log'), .returned answer) →
          Called env .recvFrom (relay.recvQueue, log')

/-- When the receiving end was last tried in a call from `x` to `x'`, the queue had reached 16
filled packets: `borrow_back` had no buffer for it, and from there on the call was only sending. -/
structure FullWhenTried (env : Environment packetInterface) (dir : Dir)
    (x x' tried : CopyState) : Prop where
  begun : x.2 <+: tried.2
  noBuffer : fillPass env dir tried = (tried, some (.returned (.ready (.ok false))))
  full : tried.1.packets.length = 16
  sending : ∃ n, loopN (drainPass env dir) n tried = (x', .returned (.ready (.ok true)))
  last : receiveAnswers dir (since tried.2 x'.2) = []

/-- Why a call from `x` has returned `Pending` in `x'`. -/
structure Waits (env : Environment packetInterface) (dir : Dir)
    (x x' : CopyState) : Prop where
  registered : .pending ∈ receiveAnswers dir (since x.2 x'.2) ∨
    .pending ∈ sendAnswers dir (since x.2 x'.2)
  /-- What is left in the queue waits for the sending end. -/
  sending : x'.1.packets ≠ [] → .pending ∈ sendAnswers dir (since x.2 x'.2)
  /-- What could be received waits for the receiving end, or for room in the queue. -/
  receiving : .pending ∈ receiveAnswers dir (since x.2 x'.2) ∨
    ∃ tried, FullWhenTried env dir x x' tried

/-! ## Buffers are never lost -/

namespace CopyBuffer

variable {c c' : CopyBuffer}

/-- All buffers there are. -/
def stock (c : CopyBuffer) : ℕ :=
  c.pool.length + c.queue.length

theorem stock_grow (h : c.grow = some c') : c.stock ≤ c'.stock := by
  unfold grow at h
  split at h
  · dsimp only at h
    split at h
    · cases h
      simp [stock]
    · cases h
  · cases h
    exact Nat.le_refl _

theorem stock_takeFromPool (c : CopyBuffer) : c.takeFromPool.1.stock = c.stock := by
  unfold takeFromPool
  cases hlast : c.pool.getLast? with
  | none => rfl
  | some packet =>
      have hpool : c.pool ≠ [] := by
        rintro hempty
        rw [hempty] at hlast
        cases hlast
      have hpos := List.length_pos_iff.mpr hpool
      simp only [stock, List.length_dropLast, List.length_append, List.length_cons,
        List.length_nil]
      omega

theorem stock_borrowBack {back : Option PacketBuffer} (h : c.borrowBack = some (c', back)) :
    c.stock ≤ c'.stock := by
  have htake : ∀ {c' back}, c.grow.map takeFromPool = some (c', back) → c.stock ≤ c'.stock := by
    intro c' back h
    obtain ⟨grown, hgrow, htaken⟩ := Option.map_eq_some_iff.mp h
    have hstock := stock_takeFromPool grown
    rw [htaken] at hstock
    exact hstock ▸ stock_grow hgrow
  unfold borrowBack at h
  cases hlast : c.queue.getLast? with
  | none =>
      rw [hlast] at h
      exact htake h
  | some last =>
      simp only [hlast] at h
      split at h
      · exact htake h
      · cases h
        exact Nat.le_refl _

theorem stock_setBack (c : CopyBuffer) (packet : PacketBuffer) :
    c.stock ≤ (c.setBack packet).stock := by
  simp only [stock, setBack, List.length_append, List.length_dropLast, List.length_cons,
    List.length_nil]
  omega

theorem stock_popFront (c : CopyBuffer) : c.popFront.stock = c.stock := by
  unfold popFront
  cases hqueue : c.queue with
  | nil => rfl
  | cons first rest =>
      simp only [stock, hqueue, List.length_append, List.length_cons, List.length_nil]
      omega

/-- There are at most as many packets as buffers. -/
theorem WellFormed.packets_le (wf : WellFormed 16 c) : c.packets.length ≤ 16 := by
  have hbound := wf.bound
  have hlength : c.packets.length ≤ c.queue.length := List.length_filterMap_le _ _
  omega

/-- **No buffer is left only if all are filled.** -/
theorem full_of_no_buffer (wf : WellFormed 16 c) (stocked : 0 < c.stock)
    (h : c.borrowBack = some (c', none)) : c' = c ∧ c.packets.length = 16 := by
  -- only a taken-from pool can be the reason, when the last buffer is filled
  have hall : ∀ hfilled : ∀ packet ∈ c.queue, packet.filled ≠ none,
      c.grow.map takeFromPool = some (c', none) → c' = c ∧ c.packets.length = 16 := by
    intro hfilled htake
    obtain ⟨grown, hgrow, htaken⟩ := Option.map_eq_some_iff.mp htake
    have hpool : grown.pool = [] ∧ c' = grown := by
      unfold takeFromPool at htaken
      cases hlast : grown.pool.getLast? with
      | none =>
          rw [hlast] at htaken
          cases htaken
          exact ⟨List.getLast?_eq_none_iff.mp hlast, rfl⟩
      | some packet =>
          rw [hlast] at htaken
          cases htaken
    have hpackets : c.packets.length = c.queue.length := by
      refine List.filterMap_length_eq_length.mpr ?_
      intro packet hmem
      rw [Option.isSome_iff_ne_none]
      exact fun hnone => hfilled packet hmem (PacketBuffer.borrow_eq_none.mp hnone)
    have hbound := wf.bound
    have hmax := wf.maxBufferSize
    unfold grow at hgrow
    split at hgrow
    · rename_i hempty
      dsimp only at hgrow
      split at hgrow
      · cases hgrow
        have hnone := congrArg List.length hpool.1
        rw [hempty] at hnone hbound
        simp only [List.nil_append, List.length_replicate, List.length_nil] at hnone hbound
        unfold stock at stocked
        rw [hempty, List.length_nil] at stocked
        have hadded : min c.maxBufferSize (c.queue.length * 2) - c.queue.length = 0 := hnone
        refine ⟨?_, by omega⟩
        rw [hpool.2, hadded]
        simp
      · cases hgrow
    · rename_i hpresent
      cases hgrow
      exact absurd hpool.1 hpresent
  unfold borrowBack at h
  cases hlast : c.queue.getLast? with
  | none =>
      rw [hlast] at h
      refine hall ?_ h
      intro packet hmem
      rw [List.getLast?_eq_none_iff.mp hlast] at hmem
      cases hmem
  | some last =>
      simp only [hlast] at h
      split at h
      · rename_i hsome
        refine hall ?_ h
        intro packet hmem
        rw [← List.dropLast_append_getLast? last hlast] at hmem
        rcases List.mem_append.mp hmem with hmem | hmem
        · exact wf.queue packet hmem
        · rw [List.mem_singleton.mp hmem]
          exact Option.isSome_iff_ne_none.mp hsome
      · cases h

/-- The queue has no packet if its first buffer has none. -/
theorem packets_eq_nil_of_front (wf : WellFormed 16 c)
    (h : ∀ packet, c.borrowFront = some packet → packet.borrow = none) : c.packets = [] := by
  have hqueue := wf.queue
  unfold packets borrowFront at *
  rcases hqueue' : c.queue with _ | ⟨first, _ | ⟨second, rest⟩⟩
  · rfl
  · have hfirst := h first (by rw [hqueue']; rfl)
    simp [hfirst]
  · have hfirst := h first (by rw [hqueue']; rfl)
    rw [hqueue'] at hqueue
    exact absurd (PacketBuffer.borrow_eq_none.mp hfirst) (hqueue first (by simp))

end CopyBuffer

/-! ## The calls -/

section Answers

variable {env : Environment packetInterface} {dir : Dir}
variable {log log' start : Log packetInterface}

theorem receiveAnswers_append (dir : Dir) (events later : Log packetInterface) :
    receiveAnswers dir (events ++ later) = receiveAnswers dir events ++ receiveAnswers dir later :=
  List.filterMap_append

theorem sendAnswers_append (dir : Dir) (events later : Log packetInterface) :
    sendAnswers dir (events ++ later) = sendAnswers dir events ++ sendAnswers dir later :=
  List.filterMap_append

/-- The receiving call is recorded with its answer. -/
theorem Dir.receive_answers {room : ℕ} {answer : Poll (IoResult Packet)}
    (h : dir.receive env log room = (log', answer)) :
    ∃ event, log' = log ++ [event] ∧ receiveAnswers dir [event] = [.of answer] := by
  cases dir with
  | sendTo =>
      simp only [Dir.receive, Environment.record, Prod.mk.injEq] at h
      obtain ⟨rfl, rfl⟩ := h
      refine ⟨_, rfl, ?_⟩
      rcases env log (PacketCall.channelSendTo room) with (e | ⟨bytes, addr⟩) | _
      all_goals simp [receiveAnswers, receiveAnswer, Answered.of]
  | recvFrom =>
      simp only [Dir.receive, Environment.record, Prod.mk.injEq] at h
      obtain ⟨rfl, rfl⟩ := h
      refine ⟨_, rfl, ?_⟩
      rcases env log (PacketCall.socketRecvFrom room) with (e | ⟨bytes, addr⟩) | _
      all_goals simp [receiveAnswers, receiveAnswer, Answered.of]

/-- The sending call is recorded with its answer. -/
theorem Dir.send_answers {data : Bytes} {addr : Address} {answer : Poll (IoResult ℕ)}
    (h : dir.send env log data addr = some (log', answer)) :
    ∃ event, log' = log ++ [event] ∧ receiveAnswers dir [event] = [] ∧
      sendAnswers dir [event] = [.of answer] := by
  cases dir with
  | sendTo =>
      cases h
      exact ⟨_, rfl, rfl, rfl⟩
  | recvFrom =>
      cases addr with
      | socketAddr s =>
          cases h
          exact ⟨_, rfl, rfl, rfl⟩
      | domain name port => cases h

end Answers

/-! ## One pass of each inner loop -/

/-- What the queue of a direction is like, at any moment. -/
structure Usable (dir : Dir) (c : CopyBuffer) : Prop where
  wellFormed : c.WellFormed 16
  stocked : 0 < c.stock
  sendable : ∀ packet ∈ c.packets, Sendable dir packet

/-- What a pass of the first loop can do. -/
inductive FillStep (dir : Dir) (x : CopyState) :
    CopyState × Option (Outcome (IoResult Bool)) → Prop where
  | full (packets : x.1.packets.length = 16) :
      FillStep dir x (x, some (.returned (.ready (.ok false))))
  | received {c : CopyBuffer} {event : Event packetInterface} {packet : Packet}
      (usable : Usable dir c) (packets : c.packets = x.1.packets ++ [packet])
      (answer : receiveAnswers dir [event] = [.ok]) :
      FillStep dir x ((c, x.2 ++ [event]), none)
  | failed {c : CopyBuffer} {log : Log packetInterface} (e : IoError) :
      FillStep dir x ((c, log), some (.returned (.ready (.error e))))
  | waits {c : CopyBuffer} {event : Event packetInterface} (usable : Usable dir c)
      (answer : receiveAnswers dir [event] = [.pending]) :
      FillStep dir x ((c, x.2 ++ [event]), some (.returned (.ready (.ok true))))

/-- What a pass of the second loop can do. -/
inductive DrainStep (dir : Dir) (x : CopyState) :
    CopyState × Option (Outcome (IoResult Bool)) → Prop where
  | empty (packets : x.1.packets = []) :
      DrainStep dir x (x, some (.returned (.ready (.ok false))))
  | sent {c : CopyBuffer} {event : Event packetInterface} {packet : Packet}
      (usable : Usable dir c) (packets : x.1.packets = packet :: c.packets)
      (quiet : receiveAnswers dir [event] = []) :
      DrainStep dir x ((c, x.2 ++ [event]), none)
  | failed {log : Log packetInterface} (e : IoError) :
      DrainStep dir x ((x.1, log), some (.returned (.ready (.error e))))
  | waits {event : Event packetInterface} (quiet : receiveAnswers dir [event] = [])
      (answer : sendAnswers dir [event] = [.pending]) :
      DrainStep dir x ((x.1, x.2 ++ [event]), some (.returned (.ready (.ok true))))

section Steps

variable {dir : Dir} {x : CopyState}

theorem fillStep (env : Environment packetInterface) (usable : Usable dir x.1) :
    FillStep dir x (fillPass env dir x) := by
  obtain ⟨c, log⟩ := x
  obtain ⟨wf, stocked, sendable⟩ := usable
  obtain ⟨c', back, hback, hborrowed⟩ := wf.borrowBack
  simp only at hback
  have hstock : 0 < c'.stock := stocked.trans_le (CopyBuffer.stock_borrowBack hback)
  simp only [fillPass, hback]
  cases back with
  | none =>
      obtain ⟨rfl, hfull⟩ := CopyBuffer.full_of_no_buffer wf stocked hback
      exact .full hfull
  | some packet =>
      obtain ⟨hempty, front, hqueue⟩ := hborrowed.back packet rfl
      dsimp only
      rcases hreceive : dir.receive env log packet.buf.length
        with ⟨log', (e | ⟨bytes, addr⟩) | _⟩
      · exact .failed e
      · obtain ⟨-, -, hsend⟩ := Dir.receive_spec hreceive
        obtain ⟨event, rfl, hanswer⟩ := Dir.receive_answers hreceive
        obtain ⟨wf', hpackets⟩ := hborrowed.wellFormed.fill hqueue hempty bytes addr
        rw [hborrowed.packets] at hpackets
        refine .received ⟨wf', hstock.trans_le (CopyBuffer.stock_setBack _ _), ?_⟩ hpackets hanswer
        intro p hmem
        rw [hpackets] at hmem
        rcases List.mem_append.mp hmem with hmem | hmem
        · exact sendable p hmem
        · exact hsend p hmem
      · obtain ⟨event, rfl, hanswer⟩ := Dir.receive_answers hreceive
        refine .waits ⟨hborrowed.wellFormed, hstock, ?_⟩ hanswer
        rw [hborrowed.packets]
        exact sendable

theorem drainStep (env : Environment packetInterface) (usable : Usable dir x.1) :
    DrainStep dir x (drainPass env dir x) := by
  obtain ⟨c, log⟩ := x
  obtain ⟨wf, stocked, sendable⟩ := usable
  simp only at wf stocked sendable
  unfold drainPass
  cases hfront : c.borrowFront with
  | none =>
      refine .empty (CopyBuffer.packets_eq_nil_of_front wf fun packet h => ?_)
      rw [hfront] at h
      cases h
  | some packet =>
      cases hborrow : packet.borrow with
      | none =>
          simp only [hborrow]
          refine .empty (CopyBuffer.packets_eq_nil_of_front wf fun packet' h => ?_)
          rw [hfront] at h
          cases h
          exact hborrow
      | some sent =>
          obtain ⟨data, addr⟩ := sent
          obtain ⟨wf', hpackets⟩ := wf.popFront hfront hborrow
          have hsendable : Sendable dir (data, addr) :=
            sendable _ (by rw [hpackets]; exact List.mem_cons_self)
          obtain ⟨log', answer, hsend, -, -⟩ := Dir.send_spec env log hsendable
          obtain ⟨event, rfl, hquiet, hanswer⟩ := Dir.send_answers hsend
          simp only [hborrow, hsend]
          rcases answer with (e | n) | _
          · exact .failed e
          · refine .sent ⟨wf', ?_, ?_⟩ hpackets hquiet
            · rw [CopyBuffer.stock_popFront]
              exact stocked
            · intro p hmem
              exact sendable p (by rw [hpackets]; exact List.mem_cons_of_mem _ hmem)
          · exact .waits hquiet hanswer

end Steps

/-! ## The inner loops -/

section Loops

variable {env : Environment packetInterface} {dir : Dir} {start : Log packetInterface}
variable {x₀ x x' : CopyState}

/-- Inside a call that began with the log `start`, as long as it goes on: the receiving end has
yielded packets only. -/
structure Going (dir : Dir) (start : Log packetInterface)
    (x : CopyState) : Prop where
  usable : Usable dir x.1
  begun : start <+: x.2
  yields : ∀ answer ∈ receiveAnswers dir (since start x.2), answer = .ok

/-- The first loop, begun in `x₀`: every packet that it has received is in the queue. -/
structure Filling (dir : Dir) (start : Log packetInterface)
    (x₀ x : CopyState) : Prop extends Going dir start x where
  counted : (receiveAnswers dir (since start x.2)).length + x₀.1.packets.length =
    (receiveAnswers dir (since start x₀.2)).length + x.1.packets.length

/-- How the first loop ends. -/
def Filled (env : Environment packetInterface) (dir : Dir) (start : Log packetInterface)
    (x₀ x : CopyState) : Outcome (IoResult Bool) → Prop
  | .returned (.ready (.ok false)) => Filling dir start x₀ x ∧ x.1.packets.length = 16 ∧
      fillPass env dir x = (x, some (.returned (.ready (.ok false))))
  | .returned (.ready (.ok true)) => Usable dir x.1 ∧ start <+: x.2 ∧
      .pending ∈ receiveAnswers dir (since start x.2)
  | .returned (.ready (.error _)) => True
  | _ => False

theorem Filling.pass (filling : Filling dir start x₀ x) :
    Goes (Filling dir start x₀) (Filled env dir start x₀) (fillPass env dir x) := by
  have hanswers : ∀ {event answer}, receiveAnswers dir [event] = [answer] →
      receiveAnswers dir (since start (x.2 ++ [event]))
        = receiveAnswers dir (since start x.2) ++ [answer] := by
    intro event answer h
    rw [since_append filling.begun, receiveAnswers_append, h]
  have hlater : ∀ event, start <+: x.2 ++ [event] := fun event =>
    filling.begun.trans (List.prefix_append _ _)
  have step := fillStep env filling.usable
  generalize hpass : fillPass env dir x = result at step ⊢
  cases step with
  | full packets => exact ⟨filling, packets, hpass⟩
  | received usable packets answer =>
      refine ⟨⟨usable, hlater _, ?_⟩, ?_⟩
      · intro a hmem
        rw [hanswers answer] at hmem
        rcases List.mem_append.mp hmem with hmem | hmem
        · exact filling.yields a hmem
        · exact List.mem_singleton.mp hmem
      · have hcounted := filling.counted
        rw [hanswers answer, packets]
        simp only [List.length_append, List.length_singleton]
        omega
  | failed e => trivial
  | waits usable answer =>
      refine ⟨usable, hlater _, ?_⟩
      rw [hanswers answer]
      exact List.mem_append_right _ (List.mem_singleton_self _)

/-- Every pass of the first loop that goes round again has filled a buffer. -/
theorem Filling.lower (filling : Filling dir start x₀ x)
    (h : fillPass env dir x = (x', none)) :
    16 - x'.1.packets.length < 16 - x.1.packets.length := by
  have step := fillStep env filling.usable
  rw [h] at step
  cases step with
  | received usable packets answer =>
      have hbound := usable.wellFormed.packets_le
      rw [packets, List.length_append, List.length_singleton] at hbound ⊢
      omega

/-- The spec of the first loop, which ends after at most 17 passes. -/
theorem Filling.loop (env : Environment packetInterface) (n : ℕ)
    (filling : Filling dir start x₀ x) :
    Filled env dir start x₀ (loopN (fillPass env dir) n x).1 (loopN (fillPass env dir) n x).2 ∨
      n ≤ 16 ∧ (loopN (fillPass env dir) n x).2 = .running :=
  loopN_leaves_or_cut (fillPass env dir) (m := fun x => 16 - x.1.packets.length)
    (fun _ filling => filling.pass) (fun _ _ filling h => filling.lower h) n filling
    (Nat.sub_le _ _)

/-- The second loop, begun in `x₀`: it makes no receiving call. -/
structure Draining (dir : Dir) (x₀ x : CopyState) : Prop where
  usable : Usable dir x.1
  later : x₀.2 <+: x.2
  quiet : receiveAnswers dir (since x₀.2 x.2) = []

/-- How the second loop ends. -/
def Drained (dir : Dir) (x₀ x : CopyState) :
    Outcome (IoResult Bool) → Prop
  | .returned (.ready (.ok false)) => Draining dir x₀ x ∧ x.1.packets = []
  | .returned (.ready (.ok true)) => Draining dir x₀ x ∧
      .pending ∈ sendAnswers dir (since x₀.2 x.2)
  | .returned (.ready (.error _)) => True
  | _ => False

theorem Draining.pass (draining : Draining dir x₀ x) :
    Goes (Draining dir x₀) (Drained dir x₀) (drainPass env dir x) := by
  have hlater : ∀ event, x₀.2 <+: x.2 ++ [event] := fun event =>
    draining.later.trans (List.prefix_append _ _)
  have hquiet : ∀ {event}, receiveAnswers dir [event] = [] →
      receiveAnswers dir (since x₀.2 (x.2 ++ [event])) = [] := by
    intro event h
    rw [since_append draining.later, receiveAnswers_append, h, draining.quiet]
    rfl
  have step := drainStep env draining.usable
  generalize drainPass env dir x = result at step ⊢
  cases step with
  | empty packets => exact ⟨draining, packets⟩
  | sent usable packets quiet => exact ⟨usable, hlater _, hquiet quiet⟩
  | failed e => trivial
  | waits quiet answer =>
      refine ⟨⟨draining.usable, hlater _, hquiet quiet⟩, ?_⟩
      rw [since_append draining.later, sendAnswers_append, answer]
      exact List.mem_append_right _ (List.mem_singleton_self _)

/-- Every pass of the second loop that goes round again has sent a packet. -/
theorem Draining.lower (draining : Draining dir x₀ x) (h : drainPass env dir x = (x', none)) :
    x'.1.packets.length < x.1.packets.length := by
  have step := drainStep env draining.usable
  rw [h] at step
  cases step with
  | sent usable packets quiet =>
      rw [packets]
      exact Nat.lt_succ_self _

/-- The spec of the second loop, which ends after at most 17 passes. -/
theorem Draining.loop (env : Environment packetInterface) (n : ℕ)
    (draining : Draining dir x₀ x) :
    Drained dir x₀ (loopN (drainPass env dir) n x).1 (loopN (drainPass env dir) n x).2 ∨
      n ≤ 16 ∧ (loopN (drainPass env dir) n x).2 = .running :=
  loopN_leaves_or_cut (drainPass env dir) (m := fun x => x.1.packets.length)
    (fun _ draining => draining.pass) (fun _ _ draining h => draining.lower h) n draining
    draining.usable.wellFormed.packets_le

end Loops

/-! ## One pass of the outer loop -/

section Pass

variable {env : Environment packetInterface} {dir : Dir} {n : ℕ}
variable {x₀ x : CopyState}

/-- How a pass of the outer loop ends, in a call that began in `x₀`. -/
inductive PassEnds (env : Environment packetInterface) (dir : Dir) (n : ℕ)
    (x₀ x : CopyState) :
    CopyState × Option (Outcome (IoResult Unit)) → Prop where
  /-- A full queue has been emptied. -/
  | round {x' : CopyState} (going : Going dir x₀.2 x')
      (empty : x'.1.packets = [])
      (counted : (receiveAnswers dir (since x₀.2 x'.2)).length + x.1.packets.length =
        (receiveAnswers dir (since x₀.2 x.2)).length + 16) :
      PassEnds env dir n x₀ x (x', none)
  | waits {x' : CopyState} (waits : Waits env dir x₀ x') :
      PassEnds env dir n x₀ x (x', some (.returned .pending))
  | failed {x' : CopyState} (e : IoError) :
      PassEnds env dir n x₀ x (x', some (.returned (.ready (.error e))))
  | running {x' : CopyState} (cut : n ≤ 16) :
      PassEnds env dir n x₀ x (x', some .running)

/-- What was answered in the first loop was answered in the call. -/
theorem mem_receiveAnswers_later {start log log' : Log packetInterface} (hbegun : start <+: log)
    (hlater : log <+: log') {answer : Answered}
    (h : answer ∈ receiveAnswers dir (since start log)) :
    answer ∈ receiveAnswers dir (since start log') := by
  rw [← since_append_since hbegun hlater, receiveAnswers_append]
  exact List.mem_append_left _ h

/-- What was answered in the second loop was answered in the call. -/
theorem mem_sendAnswers_earlier {start log log' : Log packetInterface} (hbegun : start <+: log)
    (hlater : log <+: log') {answer : Answered}
    (h : answer ∈ sendAnswers dir (since log log')) :
    answer ∈ sendAnswers dir (since start log') := by
  rw [← since_append_since hbegun hlater, sendAnswers_append]
  exact List.mem_append_right _ h

/-- The second loop, after a first one that has ended in `y`: it empties the queue, or the sending
end answers `Pending`. -/
theorem passEnds_of_filled {y : CopyState} {filling : Bool}
    (usable : Usable dir y.1) (begun : x₀.2 <+: y.2)
    (empty : ∀ z, Draining dir y z → z.1.packets = [] → PassEnds env dir n x₀ x
      (if filling then (z, some (.returned .pending)) else (z, none)))
    (waits : ∀ z, Draining dir y z → .pending ∈ sendAnswers dir (since x₀.2 z.2) →
      loopN (drainPass env dir) n y = (z, .returned (.ready (.ok true))) →
        Waits env dir x₀ z) :
    PassEnds env dir n x₀ x (afterLoop (loopN (drainPass env dir) n y) fun draining x =>
      if filling || draining then (x, some (.returned .pending)) else (x, none)) := by
  have draining : Draining dir y y := ⟨usable, List.prefix_rfl, by rw [since_self]; rfl⟩
  have hdrained := draining.loop env n
  rcases hloop : loopN (drainPass env dir) n y with ⟨z, ((e | draining) | _) | _ | _⟩
  all_goals rw [hloop] at hdrained
  · exact .failed e
  · rcases hdrained with hdrained | ⟨-, hcut⟩
    · cases draining with
      | false =>
          simp only [afterLoop, Bool.or_false]
          exact empty z hdrained.1 hdrained.2
      | true =>
          simp only [afterLoop, Bool.or_true, if_true]
          have hsend := mem_sendAnswers_earlier begun hdrained.1.later hdrained.2
          exact .waits (waits z hdrained.1 hsend hloop)
    · cases hcut
  · exact hdrained.elim False.elim fun h => by cases h.2
  · exact hdrained.elim False.elim fun h => by cases h.2
  · exact hdrained.elim False.elim fun h => .running h.1

/-- **What a pass of the outer loop does.** -/
theorem passEnds (env : Environment packetInterface) (n : ℕ) (going : Going dir x₀.2 x) :
    PassEnds env dir n x₀ x (relayPass env dir n x) := by
  have filling : Filling dir x₀.2 x x := { going with counted := rfl }
  have hfilled := filling.loop env n
  unfold relayPass
  rcases hloop : loopN (fillPass env dir) n x with ⟨y, ((e | filling) | _) | _ | _⟩
  all_goals rw [hloop] at hfilled
  · exact .failed e
  · rcases hfilled with hfilled | ⟨-, hcut⟩
    · cases filling with
      | false =>
          -- all 16 buffers are filled, so the second loop has to do with the sending end only
          obtain ⟨hfilling, hfull, hnoBuffer⟩ := hfilled
          refine passEnds_of_filled hfilling.usable hfilling.begun ?_ ?_
          · intro z hdraining hempty
            have hsame : receiveAnswers dir (since x₀.2 z.2)
                = receiveAnswers dir (since x₀.2 y.2) := by
              rw [← since_append_since hfilling.begun hdraining.later, receiveAnswers_append,
                hdraining.quiet, List.append_nil]
            refine .round ⟨hdraining.usable, hfilling.begun.trans hdraining.later, ?_⟩ hempty ?_
            · rw [hsame]
              exact hfilling.yields
            · rw [hsame, ← hfull]
              exact hfilling.counted
          · intro z hdraining hsend hdrain
            exact ⟨.inr hsend, fun _ => hsend, .inr ⟨y, hfilling.begun, hnoBuffer, hfull,
              ⟨n, hdrain⟩, hdraining.quiet⟩⟩
      | true =>
          -- the receiving end has answered `Pending`, and the call ends with this pass
          obtain ⟨husable, hbegun, hpending⟩ := hfilled
          refine passEnds_of_filled husable hbegun ?_ ?_
          · intro z hdraining hempty
            have hreceive := mem_receiveAnswers_later hbegun hdraining.later hpending
            exact .waits ⟨.inl hreceive, fun h => absurd hempty h, .inl hreceive⟩
          · intro z hdraining hsend _
            have hreceive := mem_receiveAnswers_later hbegun hdraining.later hpending
            exact ⟨.inl hreceive, fun _ => hsend, .inl hreceive⟩
    · cases hcut
  · exact hfilled.elim False.elim fun h => by cases h.2
  · exact hfilled.elim False.elim fun h => by cases h.2
  · exact hfilled.elim False.elim fun h => .running h.1

end Pass

/-! ## A call -/

section Call

variable {env : Environment packetInterface} {dir : Dir} {n : ℕ}
variable {x₀ x x' : CopyState}

/-- How a call that began in `x₀` may end. -/
def CallEnds (env : Environment packetInterface) (dir : Dir)
    (x₀ x : CopyState) : Outcome (IoResult Unit) → Prop
  | .returned .pending => Waits env dir x₀ x
  | .returned (.ready (.error _)) => True
  | .running => True
  | _ => False

theorem Going.pass (going : Going dir x₀.2 x) :
    Goes (Going dir x₀.2) (CallEnds env dir x₀) (relayPass env dir n x) := by
  have hends := passEnds env n going
  generalize relayPass env dir n x = result at hends ⊢
  cases hends with
  | round going empty counted => exact going
  | waits waits => exact waits
  | failed | running => trivial

theorem Going.call (env : Environment packetInterface) (n m : ℕ) (going : Going dir x₀.2 x) :
    CallEnds env dir x₀ (loopN (relayPass env dir n) m x).1
      (loopN (relayPass env dir n) m x).2 :=
  loopN_rule (relayPass env dir n) (fun _ going => going.pass) (fun _ _ => trivial) m x going

/-- **A call that goes on receives 16 packets in every pass**, the first one apart. -/
theorem Going.received (hn : 16 < n) {m : ℕ} (going : Going dir x₀.2 x)
    (hrunning : (loopN (relayPass env dir n) m x).2 = .running) :
    (∀ answer ∈ receiveAnswers dir (since x₀.2 (loopN (relayPass env dir n) m x).1.2),
        answer = .ok) ∧
      16 * m + (receiveAnswers dir (since x₀.2 x.2)).length ≤
        (receiveAnswers dir (since x₀.2 (loopN (relayPass env dir n) m x).1.2)).length +
          x.1.packets.length := by
  induction m generalizing x with
  | zero =>
      refine ⟨going.yields, ?_⟩
      rw [Nat.mul_zero, Nat.zero_add]
      exact Nat.le_add_right _ _
  | succ m ih =>
      have hends := passEnds env n going
      rcases hpass : relayPass env dir n x with ⟨y, _ | outcome⟩
      · rw [loopN_succ_none hpass] at hrunning ⊢
        rw [hpass] at hends
        cases hends with
        | round going' empty counted =>
            obtain ⟨hyields, hcount⟩ := ih going' hrunning
            refine ⟨hyields, ?_⟩
            rw [empty, List.length_nil] at hcount
            omega
      · rw [loopN_succ_some hpass] at hrunning
        cases hrunning
        rw [hpass] at hends
        cases hends with
        | running cut => exact absurd hn (Nat.not_lt.mpr cut)

theorem pollDir_eq (env : Environment packetInterface) (dir : Dir) (n : ℕ)
    (x : CopyState) :
    pollDir env dir n x = loopN (relayPass env dir n) n x := by
  cases dir <;> rfl

/-- What holds when a call begins. -/
theorem Usable.going (usable : Usable dir x.1) : Going dir x.2 x := by
  refine ⟨usable, List.prefix_rfl, ?_⟩
  rw [since_self]
  intro answer hmem
  cases hmem

/-- **A call ends** if the receiving end yields no more than so many packets. -/
theorem Usable.ends (usable : Usable dir x.1) {bound : ℕ}
    (hbound : ∀ n, yielded dir (since x.2 (pollDir env dir n x).1.2) ≤ bound)
    (hn : bound + 17 ≤ n) : ∃ x' answer, pollDir env dir n x = (x', .returned answer) := by
  have going := usable.going
  have hends := going.call env n n
  have hyielded := hbound n
  rw [pollDir_eq] at hyielded ⊢
  rcases hcall : loopN (relayPass env dir n) n x with ⟨x', answer | _ | _⟩
  · exact ⟨x', answer, rfl⟩
  · rw [hcall] at hends
    exact hends.elim
  · obtain ⟨hyields, hcount⟩ := going.received (m := n) (by omega) (congrArg Prod.snd hcall)
    unfold yielded at hyielded
    rw [List.takeWhile_eq_self_iff.mpr fun a ha => decide_eq_true (hyields a ha)] at hyielded
    have hpackets := usable.wellFormed.packets_le
    omega

end Call

/-! ## All calls -/

section Calls

variable {env : Environment packetInterface} {dir : Dir} {k : ℕ}
variable {x : CopyState}

theorem stock_fillPass (hk : k ≤ x.1.stock) : k ≤ (fillPass env dir x).1.1.stock := by
  unfold fillPass
  cases hback : x.1.borrowBack with
  | none => exact hk
  | some borrowed =>
      obtain ⟨c, back⟩ := borrowed
      have hc := hk.trans (CopyBuffer.stock_borrowBack hback)
      cases back with
      | none => exact hc
      | some packet =>
          dsimp only
          rcases dir.receive env x.2 packet.buf.length with ⟨log, (e | ⟨bytes, addr⟩) | _⟩
          · exact hc
          · exact hc.trans (CopyBuffer.stock_setBack _ _)
          · exact hc

theorem stock_drainPass (hk : k ≤ x.1.stock) : k ≤ (drainPass env dir x).1.1.stock := by
  unfold drainPass
  cases x.1.borrowFront with
  | none => exact hk
  | some packet =>
      cases hborrow : packet.borrow with
      | none =>
          simp only [hborrow]
          exact hk
      | some sent =>
          simp only [hborrow]
          rcases dir.send env x.2 sent.1 sent.2 with _ | ⟨log, (e | n) | _⟩
          · exact hk
          · exact hk
          · exact hk.trans_eq (CopyBuffer.stock_popFront _).symm
          · exact hk

theorem stock_afterLoop {r : CopyState × Outcome (IoResult Bool)}
    {next : Bool → CopyState →
      CopyState × Option (Outcome (IoResult Unit))}
    (hk : k ≤ r.1.1.stock)
    (hnext : ∀ registered x, k ≤ x.1.stock → k ≤ (next registered x).1.1.stock) :
    k ≤ (afterLoop r next).1.1.stock := by
  obtain ⟨x, ((e | registered) | _) | _ | _⟩ := r
  · exact hk
  · exact hnext registered x hk
  · exact hk
  · exact hk
  · exact hk

/-- At least so many buffers. -/
def HasStock (k : ℕ) (x : CopyState) : Prop :=
  k ≤ x.1.stock

/-- No buffer is lost in a call. -/
theorem stock_call (env : Environment packetInterface) (dir : Dir) (n : ℕ)
    (hk : k ≤ x.1.stock) : k ≤ (loopN (relayPass env dir n) n x).1.1.stock := by
  refine loopN_keeps (P := HasStock k) (fun x hk => ?_) n hk
  unfold relayPass
  refine stock_afterLoop ?_ fun filling x hk => stock_afterLoop ?_ fun draining x hk => ?_
  · exact loopN_keeps (P := HasStock k) (fun _ hk => stock_fillPass hk) n hk
  · exact loopN_keeps (P := HasStock k) (fun _ hk => stock_drainPass hk) n hk
  · split <;> exact hk

/-- Nor in the whole life of a relay. -/
theorem stocked_of_polled {relay : CopyBidirectional} {log : Log packetInterface}
    {outcome : Outcome (IoResult Unit)}
    (moment : Polled (CopyBidirectional.poll env) (.new, []) (relay, log) outcome) :
    0 < relay.sendQueue.stock ∧ 0 < relay.recvQueue.stock := by
  refine (moment.rule (Q := fun _ _ => True)
    (P := fun x => 0 < x.1.sendQueue.stock ∧ 0 < x.1.recvQueue.stock)
    ⟨Nat.one_pos, Nat.one_pos⟩ trivial fun n x stocked => ⟨?_, trivial⟩).1
  refine (join_rule (P := fun (s t : CopyBuffer) _ => 0 < s.stock ∧ 0 < t.stock)
    (F := fun _ _ => True) (G := fun _ _ => True) ?_ ?_ stocked).1
  · intro s t log h
    exact ⟨⟨stock_call env .sendTo n h.1, h.2⟩, trivial⟩
  · intro s t log h
    exact ⟨⟨h.1, stock_call env .recvFrom n h.2⟩, trivial⟩

theorem Refines.usable {c : CopyBuffer} {log : Log packetInterface} (refines : Refines dir c log)
    (stocked : 0 < c.stock) : Usable dir c :=
  ⟨refines.wellFormed, stocked, refines.sendable⟩

/-- The queue is usable whenever its function is called. -/
theorem Called.usable (called : Called env dir x) : Usable dir x.1 := by
  cases called with
  | sendTo moment =>
      exact (relayed_of_polled moment).1.send.usable (stocked_of_polled moment).1
  | recvFrom n moment hsend =>
      exact (relayed_of_polled moment).1.recv.usable (stocked_of_polled moment).2

end Calls

/-- **The relay neither spins nor sleeps.**  Whenever `poll_send_to` or `poll_recv_from` is called:
if the receiving end yields at most `bound` packets before it answers `Pending` or an error, the
call returns, within `bound + 17` passes of each of its loops.  If it returns `Pending`, one of
the two ends has answered `Pending` in this call; the sending end has if a packet is left in the
queue, and the receiving end has unless the queue had reached 16 packets when it was last
tried. -/
theorem relay_wakes (env : Environment packetInterface) (dir : Dir)
    (x : CopyState) (called : Called env dir x) :
    (∀ bound, (∀ n, yielded dir (since x.2 (pollDir env dir n x).1.2) ≤ bound) →
      ∀ n, bound + 17 ≤ n → ∃ x' answer, pollDir env dir n x = (x', .returned answer)) ∧
    ∀ n x', pollDir env dir n x = (x', .returned .pending) → Waits env dir x x' := by
  have usable := called.usable
  refine ⟨fun bound hbound n hn => usable.ends hbound hn, fun n x' hcall => ?_⟩
  have hends := usable.going.call env n n
  rw [← pollDir_eq, hcall] at hends
  exact hends

/-- A channel with one packet, and a socket that cannot take it. -/
def stalled : Environment packetInterface := fun log call =>
  match call with
  | .channelSendTo room =>
      if log = [] then .ready (.ok (⟨[7].take room, List.length_take_le _ _⟩, .domain "a" 53))
      else .pending
  | .socketSendTo _ _ | .socketRecvFrom _ => .pending
  | .channelRecvFrom data _ => .ready (.ok data.length)

/-- The second call finds the packet in the queue and returns `Pending`: both ends have answered
so. -/
theorem relay_wakes_stalled :
    ∃ x x', x.1.packets = [([7], .domain "a" 53)] ∧
      pollDir stalled .sendTo 17 x = (x', .returned .pending) ∧ Waits stalled .sendTo x x' := by
  have moment : Polled (CopyBidirectional.poll stalled) (.new, []) _ _ := .poll 3 .start
  obtain ⟨hends, hwaits⟩ := relay_wakes stalled .sendTo _ (.sendTo moment)
  obtain ⟨x', answer, hcall⟩ := hends 0 (fun n => by cases n <;> exact Nat.le_refl 0) 17 (by decide)
  have hanswer : answer = .pending := by
    have hsecond := congrArg Prod.snd hcall
    exact (Outcome.returned.inj hsecond).symm
  subst hanswer
  exact ⟨_, x', by decide +kernel, hcall, hwaits 17 x' hcall⟩

end RabbitDigger.UdpRelay
