import Mathlib.Logic.Function.Basic
import Mathlib.Order.GameAdd
import RabbitDigger.Foundation.Process
import RabbitDigger.Foundation.Transition

/-!
# Dialogues

Two processes talk over a pair of reliable streams, interleaved **in any order** and with the
streams cut **into any pieces**.

* `Setting.system` — both parties, the streams between them, and what is sent and received
  over the streams once a party is through with its part and keeps its stream.
* `Scripted` — what is asked of the two processes, in terms of `Process.eval` only: on any part
  of what the other one says, each says a part of its own `script`, and the two do not wait for
  each other.

Then in every run they say and hear the scripts and nothing else (`Scripted.consumed_within`,
`Scripted.kept`), what is sent afterwards is what is received afterwards
(`Scripted.afterwards`), and a run that cannot go on is complete (`Scripted.complete_of_stuck`);
every run comes to such an end (`Setting.moves_wellFounded`).
-/

namespace Dialogue

open Polling Transition

/-! ## Two parties -/

/-- The two ends of a dialogue. -/
inductive Role where
  | client
  | server
deriving Repr, DecidableEq

/-- The other one. -/
def Role.peer : Role → Role
  | .client => .server
  | .server => .client

@[simp] theorem Role.peer_peer (r : Role) : r.peer.peer = r := by
  cases r <;> rfl

@[simp] theorem Role.peer_ne (r : Role) : r.peer ≠ r := by
  cases r <;> decide

theorem Role.eq_or_eq_peer (r q : Role) : q = r ∨ q = r.peer := by
  cases r <;> cases q <;> decide

/-- Two processes and their surroundings. -/
structure Setting (β : Type) (I : Role → Interface) (R : Role → Type) where
  process : (r : Role) → Process β (I r) (R r)
  answers : (r : Role) → (call : (I r).Call) → (I r).Answer call
  /-- Whether a party that returns this keeps its stream; otherwise it closes it. -/
  keeps : (r : Role) → R r → Bool
  /-- The size of the buffers. -/
  capacity : ℕ

/-- The parties, what is on the way to each of them, and what they have sent and received
after they had returned. -/
structure State (β : Type) (I : Role → Interface) (R : Role → Type) where
  party : (r : Role) → Party β (I r) (R r)
  incoming : Role → List β
  sent : Role → List β
  received : Role → List β

theorem State.consumed_peer_peer {β : Type} {I : Role → Interface} {R : Role → Type}
    (st : State β I R) (r : Role) : (st.party r.peer.peer).consumed = (st.party r).consumed := by
  rw [Role.peer_peer]

/-- What can happen. -/
inductive Event (β : Type) where
  /-- A step of a process, in which the streams move so many symbols. -/
  | move (r : Role) (k : ℕ)
  /-- A party that has returned sends over its stream. -/
  | send (r : Role) (data : List β)
  /-- A party that has returned receives from its stream. -/
  | receive (r : Role) (k : ℕ)

namespace Setting

variable {β : Type} {I : Role → Interface} {R : Role → Type} (setting : Setting β I R)

/-- The party has returned and keeps its stream. -/
def keeping (st : State β I R) (r : Role) : Bool :=
  match (st.party r).result with
  | some value => setting.keeps r value
  | none => false

/-- The party has returned and its stream is closed. -/
def closed (st : State β I R) (r : Role) : Bool :=
  match (st.party r).result with
  | some value => !setting.keeps r value
  | none => false

def step (st : State β I R) : Event β → Option (State β I R)
  | .move r k =>
      ((st.party r).step (setting.answers r) setting.capacity k (st.incoming r)
          (setting.closed st r.peer)).map fun (x, rest, out) =>
        { st with
          party := Function.update st.party r x
          incoming := fun q => if q = r then rest else st.incoming q ++ out }
  | .send r data =>
      if setting.keeping st r then
        some { st with
          incoming := fun q => if q = r then st.incoming q else st.incoming q ++ data
          sent := Function.update st.sent r (st.sent r ++ data) }
      else none
  | .receive r k =>
      if setting.keeping st r then
        some { st with
          incoming := Function.update st.incoming r ((st.incoming r).drop k)
          received := Function.update st.received r
            (st.received r ++ (st.incoming r).take k) }
      else none

/-- The dialogue from its beginning. -/
def system : System (State β I R) (Event β) where
  init :=
    { party := fun r => .start (setting.process r)
      incoming := fun _ => []
      sent := fun _ => []
      received := fun _ => [] }
  step := setting.step

/-- Neither process can make a step. -/
def Stuck (st : State β I R) : Prop :=
  ∀ r k, setting.step st (.move r k) = none

/-- **Every run comes to an end**: the processes make finitely many steps. -/
theorem moves_wellFounded :
    WellFounded fun st' st => ∃ r k, setting.step st (.move r k) = some st' := by
  have hacc : ∀ x : Party β (I .client) (R .client) × Party β (I .server) (R .server),
      Acc (Prod.GameAdd (Party.Leads (setting.answers .client) setting.capacity)
        (Party.Leads (setting.answers .server) setting.capacity)) x :=
    fun x => (Party.leads_acc _ _ x.1).prod_gameAdd (Party.leads_acc _ _ x.2)
  refine Subrelation.wf ?_ (InvImage.wf
    (fun st : State β I R => (st.party .client, st.party .server)) ⟨hacc⟩)
  rintro st' st ⟨r, k, hstep⟩
  obtain ⟨⟨x, rest, out⟩, hmove, rfl⟩ := Option.map_eq_some_iff.mp hstep
  cases r with
  | client => exact .fst ⟨k, _, _, _, hmove⟩
  | server => exact .snd ⟨k, _, _, _, hmove⟩

/-- What the process of a party does on a whole input. -/
def eval (r : Role) (input : List β) (ended : Bool) : Eval β (I r) (R r) :=
  (setting.process r).eval (setting.answers r) input ended

/-- The party may keep its stream. -/
def GoesOn (r : Role) : Prop :=
  ∃ input ended value rest, (setting.eval r input ended).result = some (value, rest) ∧
    setting.keeps r value = true

/-- What a party may hear, if the parties say what is in the script: a part of what its peer
says there, or all of that and more if the peer goes on. -/
def Hears (script : Role → List β) (r : Role) (input : List β) : Prop :=
  input <+: script r.peer ∨ (setting.GoesOn r.peer ∧ script r.peer <+: input)

end Setting

/-- **What is asked of two processes**, for a script of what each of them says.  It is all about
what they do on whole inputs. -/
structure Scripted {β : Type} {I : Role → Interface} {R : Role → Type} (setting : Setting β I R)
    (script : Role → List β) : Prop where
  flushes : ∀ r, (setting.process r).Flushes true
  /-- Whatever it hears, a party keeps to its script. -/
  bounded : ∀ r input ended, setting.Hears script r input →
    (setting.eval r input ended).written <+: script r
  /-- A party that returns with its stream has heard and said all. -/
  complete : ∀ r input ended value rest, setting.Hears script r input →
    (setting.eval r input ended).result = some (value, rest) → setting.keeps r value = true →
      input = script r.peer ++ rest ∧ (setting.eval r input ended).written = script r
  /-- When the peer may go on, a party returns without looking at what follows the script. -/
  stops : ∀ r more, setting.GoesOn r.peer → ∃ value rest,
    (setting.eval r (script r.peer ++ more) false).result = some (value, rest ++ more)
  /-- The parties do not wait for each other. -/
  live : ∀ said : Role → List β, (∀ r, said r <+: script r) →
    (∀ r, (setting.eval r (said r.peer) false).written = said r) →
      ∃ r, (setting.eval r (said r.peer) false).result ≠ none

namespace Scripted

variable {β : Type} {I : Role → Interface} {R : Role → Type} {setting : Setting β I R}
variable {script : Role → List β}

/-- **The invariant.** -/
structure Inv (setting : Setting β I R) (script : Role → List β) (st : State β I R) : Prop where
  consistent : ∀ r, (st.party r).Consistent (setting.answers r) (setting.process r)
  /-- What a party says reaches its peer. -/
  stream : ∀ r, (st.party r).written ++ st.sent r =
    (st.party r.peer).consumed ++ st.received r.peer ++ st.incoming r.peer ++ (st.party r).buffer
  /-- Only a party that has returned with its stream uses it. -/
  quiet : ∀ r, setting.keeping st r = false → st.sent r = [] ∧ st.received r = []
  ended : ∀ r, (st.party r).sawEnd = true →
    st.incoming r = [] ∧ setting.closed st r.peer = true
  /-- Who has seen the end of its stream has not closed the other one before. -/
  oneEnd : ∀ r, (st.party r).sawEnd = true → (st.party r.peer).sawEnd = false
  bounded : ∀ r, (st.party r).written <+: script r
  kept : ∀ r, setting.keeping st r = true →
    (st.party r).consumed = script r.peer ∧ (st.party r).written = script r

variable {st st' : State β I R}

/-- A party that keeps its stream may do so. -/
theorem Inv.goesOn (inv : Inv setting script st) {r : Role} (h : setting.keeping st r = true) :
    setting.GoesOn r := by
  unfold Setting.keeping at h
  split at h
  · rename_i value hresult
    have heval := (inv.consistent r).eval_of_result hresult
    exact ⟨_, _, value, [], congrArg Eval.result heval, h⟩
  · cases h

/-- What is on its way to a party is what it may hear. -/
theorem Inv.hears (inv : Inv setting script st) {r : Role} {input : List β}
    (h : input <+: (st.party r.peer).written ++ st.sent r.peer) : setting.Hears script r input := by
  cases hkeeping : setting.keeping st r.peer with
  | false =>
      rw [(inv.quiet _ hkeeping).1, List.append_nil] at h
      exact .inl (h.trans (inv.bounded _))
  | true =>
      rw [(inv.kept _ hkeeping).2] at h
      rcases List.prefix_or_prefix_of_prefix h (List.prefix_append _ _) with hin | hout
      · exact .inl hin
      · exact .inr ⟨inv.goesOn hkeeping, hout⟩

/-- A party that returns with its stream has heard and said the scripts. -/
theorem kept_of_keeping (scripted : Scripted setting script) {r : Role}
    (consistent : (st.party r).Consistent (setting.answers r) (setting.process r))
    (hears : setting.Hears script r (st.party r).consumed) (h : setting.keeping st r = true) :
    (st.party r).consumed = script r.peer ∧ (st.party r).written = script r := by
  unfold Setting.keeping at h
  split at h
  · rename_i value hresult
    have heval := consistent.eval_of_result hresult
    obtain ⟨hconsumed, hwritten⟩ := scripted.complete r _ (st.party r).sawEnd value [] hears
      (congrArg Eval.result heval) h
    rw [List.append_nil] at hconsumed
    exact ⟨hconsumed, (congrArg Eval.written heval).symm.trans hwritten⟩
  · cases h

theorem inv_init (scripted : Scripted setting script) :
    Inv setting script setting.system.init := by
  have consistent : ∀ r, ((setting.system.init).party r).Consistent (setting.answers r)
      (setting.process r) := fun r =>
    { explained := fun _ _ _ => rfl
      waits := Party.waits_of_nil rfl
      flushes := ⟨true, scripted.flushes r, fun _ => rfl⟩ }
  refine ⟨consistent, fun _ => rfl, fun _ _ => ⟨rfl, rfl⟩, fun r h => ?_, fun _ _ => rfl,
    fun _ => List.nil_prefix, fun r h => ?_⟩
  · cases h
  · exact kept_of_keeping scripted (consistent r) (.inl List.nil_prefix) h

/-- A party whose process has not returned neither keeps nor closes its stream. -/
theorem not_keeping_of_active (setting : Setting β I R) {r : Role}
    (h : (st.party r).result = none) :
    setting.keeping st r = false ∧ setting.closed st r = false := by
  unfold Setting.keeping Setting.closed
  rw [h]
  exact ⟨rfl, rfl⟩

/-- **The step lemma** for the steps of the processes. -/
theorem Inv.move (scripted : Scripted setting script) (inv : Inv setting script st) {r : Role}
    {k : ℕ} (h : setting.step st (.move r k) = some st') : Inv setting script st' := by
  obtain ⟨⟨x, rest, out⟩, hmove, rfl⟩ := Option.map_eq_some_iff.mp h
  obtain ⟨consistent, moved⟩ :=
    (inv.consistent r).step (fun hsaw => (inv.ended r hsaw).1) hmove
  obtain ⟨hkeeping, hclosed⟩ := not_keeping_of_active setting moved.active
  obtain ⟨hsent, hreceived⟩ := inv.quiet r hkeeping
  obtain ⟨said, hwritten, hbuffer⟩ := moved.written
  have hne := r.peer_ne
  -- the parties after the step
  have hself : Function.update st.party r x r = x := Function.update_self ..
  have hpeer : Function.update st.party r x r.peer = st.party r.peer :=
    Function.update_of_ne hne ..
  -- what has been read is what was on its way
  have hinto := inv.stream r.peer
  rw [Role.peer_peer, hreceived, List.append_nil, ← moved.consumed] at hinto
  have hears : setting.Hears script r x.consumed := by
    refine inv.hears ?_
    rw [hinto, List.append_assoc]
    exact List.prefix_append _ _
  -- the peer has not seen the end of a stream that is still open
  have hopen : (st.party r.peer).sawEnd = false := by
    cases hsaw : (st.party r.peer).sawEnd with
    | false => rfl
    | true =>
        have hclosed' := (inv.ended _ hsaw).2
        rw [Role.peer_peer, hclosed] at hclosed'
        cases hclosed'
  refine ⟨?_, ?_, ?_, ?_, ?_, ?_, ?_⟩
  · intro q
    rcases r.eq_or_eq_peer q with rfl | rfl
    · simpa only [hself] using consistent
    · simpa only [hpeer] using inv.consistent r.peer
  · intro q
    rcases r.eq_or_eq_peer q with rfl | rfl
    · have hstream := inv.stream q
      rw [hsent, List.append_nil] at hstream
      simp only [hself, hpeer, if_neg hne, hsent, List.append_nil, hwritten]
      rw [hstream, List.append_assoc, hbuffer]
      simp only [List.append_assoc]
    · have hconsumed : ∀ q, q = r → (Function.update st.party r x q).consumed = x.consumed := by
        rintro q rfl
        rw [hself]
      simp only [hpeer, hconsumed _ r.peer_peer, Role.peer_peer, if_true, hreceived,
        List.append_nil]
      exact hinto
  · intro q hq
    rcases r.eq_or_eq_peer q with rfl | rfl
    · exact ⟨hsent, hreceived⟩
    · refine inv.quiet _ ?_
      simpa only [Setting.keeping, hpeer] using hq
  · intro q hq
    rcases r.eq_or_eq_peer q with rfl | rfl
    · simp only [hself] at hq
      obtain ⟨hrest, hbefore⟩ := moved.sawEnd hq
      simp only [if_true, Setting.closed, hpeer]
      refine ⟨hrest, ?_⟩
      rcases hbefore with hsaw | hended
      · exact (inv.ended q hsaw).2
      · exact hended
    · simp only [hpeer, hopen] at hq
      cases hq
  · intro q hq
    rcases r.eq_or_eq_peer q with rfl | rfl
    · simpa only [hpeer] using hopen
    · simp only [hpeer, hopen] at hq
      cases hq
  · intro q
    rcases r.eq_or_eq_peer q with rfl | rfl
    · simp only [hself]
      exact consistent.written_within.trans (scripted.bounded q _ _ hears)
    · simpa only [hpeer] using inv.bounded r.peer
  · intro q hq
    rcases r.eq_or_eq_peer q with rfl | rfl
    · refine kept_of_keeping scripted ?_ ?_ hq
      · simpa only [hself] using consistent
      · simpa only [hself] using hears
    · simp only [Setting.keeping, hpeer] at hq
      simpa only [hpeer] using inv.kept _ hq

/-- A party that keeps its stream has read all that it buffers. -/
theorem Inv.buffer_of_keeping (inv : Inv setting script st) {r : Role}
    (hkeeping : setting.keeping st r = true) : (st.party r).buffer = [] := by
  unfold Setting.keeping at hkeeping
  split at hkeeping
  · rename_i value hresult
    exact ((inv.consistent r).of_result hresult).2.2
  · cases hkeeping

/-- What the parties send afterwards. -/
theorem Inv.send (inv : Inv setting script st) {r : Role} {data : List β}
    (h : setting.step st (.send r data) = some st') : Inv setting script st' := by
  simp only [Setting.step] at h
  split at h
  · rename_i hkeeping
    cases h
    have hbuffer := inv.buffer_of_keeping hkeeping
    have hne := r.peer_ne
    refine ⟨inv.consistent, ?_, ?_, ?_, inv.oneEnd, inv.bounded, inv.kept⟩
    · intro q
      rcases r.eq_or_eq_peer q with rfl | rfl
      · have hstream := inv.stream q
        rw [hbuffer, List.append_nil] at hstream
        simp only [Function.update_self, if_neg hne, hbuffer, List.append_nil]
        rw [← List.append_assoc, hstream]
        simp only [List.append_assoc]
      · simp only [Function.update_of_ne hne, Role.peer_peer, if_true, st.consumed_peer_peer]
        have hstream := inv.stream r.peer
        rw [Role.peer_peer] at hstream
        exact hstream
    · intro q hq
      rcases r.eq_or_eq_peer q with rfl | rfl
      · rw [show setting.keeping st q = false from hq] at hkeeping
        cases hkeeping
      · simp only [Function.update_of_ne hne]
        exact inv.quiet _ hq
    · intro q hq
      rcases r.eq_or_eq_peer q with rfl | rfl
      · simp only [if_true]
        exact inv.ended _ hq
      · -- the peer has not seen the end of a stream that is kept
        have hclosed := (inv.ended _ hq).2
        rw [Role.peer_peer] at hclosed
        unfold Setting.closed at hclosed
        unfold Setting.keeping at hkeeping
        split at hclosed
        · rename_i value hresult
          rw [hresult] at hkeeping
          simp only at hkeeping
          rw [hkeeping] at hclosed
          cases hclosed
        · cases hclosed
  · cases h

/-- What they receive afterwards. -/
theorem Inv.receive (inv : Inv setting script st) {r : Role} {k : ℕ}
    (h : setting.step st (.receive r k) = some st') : Inv setting script st' := by
  simp only [Setting.step] at h
  split at h
  · rename_i hkeeping
    cases h
    have hne := r.peer_ne
    refine ⟨inv.consistent, ?_, ?_, ?_, inv.oneEnd, inv.bounded, inv.kept⟩
    · intro q
      rcases r.eq_or_eq_peer q with rfl | rfl
      · simp only [Function.update_of_ne hne]
        exact inv.stream q
      · simp only [Role.peer_peer, Function.update_self, st.consumed_peer_peer]
        have hstream := inv.stream r.peer
        rw [Role.peer_peer] at hstream
        rw [hstream, List.append_assoc _ (_ ++ _), List.append_assoc _ _ (List.drop _ _),
          List.take_append_drop]
        simp only [List.append_assoc]
    · intro q hq
      rcases r.eq_or_eq_peer q with rfl | rfl
      · rw [show setting.keeping st q = false from hq] at hkeeping
        cases hkeeping
      · simp only [Function.update_of_ne hne]
        exact inv.quiet _ hq
    · intro q hq
      rcases r.eq_or_eq_peer q with rfl | rfl
      · obtain ⟨hincoming, hclosed⟩ := inv.ended _ hq
        simp only [Function.update_self, hincoming, List.drop_nil, true_and]
        exact hclosed
      · simp only [Function.update_of_ne hne]
        exact inv.ended _ hq
  · cases h

theorem inv_of_reachable (scripted : Scripted setting script)
    (reach : setting.system.Reachable st) : Inv setting script st := by
  refine System.Reachable.invariant (inv_init scripted) ?_ reach
  intro st event st' inv h
  cases event with
  | move r k => exact inv.move scripted h
  | send r data => exact inv.send h
  | receive r k => exact inv.receive h

section Runs

variable (scripted : Scripted setting script)
include scripted

/-- **A party reads nothing beyond the script.** -/
theorem consumed_within (reach : setting.system.Reachable st) (r : Role) :
    (st.party r).consumed <+: script r.peer := by
  have inv := inv_of_reachable scripted reach
  have consistent := inv.consistent r
  have hheard : (st.party r).consumed <+: (st.party r.peer).written ++ st.sent r.peer := by
    have hstream := inv.stream r.peer
    rw [Role.peer_peer] at hstream
    rw [hstream, List.append_assoc, List.append_assoc]
    exact List.prefix_append _ _
  rcases inv.hears hheard with hin | ⟨goesOn, more, hmore⟩
  · exact hin
  · -- it has returned before, and what it has read beyond would be left
    obtain ⟨value, rest, hresult⟩ := scripted.stops r more goesOn
    have heval := Process.eval_append hresult [] (st.party r).sawEnd
    rw [List.append_nil, hmore, consistent.eval_consumed] at heval
    have hrest := consistent.rest_nil (congrArg Eval.result heval)
    simp only [List.append_nil, List.append_eq_nil_iff] at hrest
    rw [← hmore, hrest.2, List.append_nil]

/-- A party that has returned with its stream has heard and said the scripts. -/
theorem kept (reach : setting.system.Reachable st) {r : Role}
    (h : setting.keeping st r = true) :
    (st.party r).consumed = script r.peer ∧ (st.party r).written = script r :=
  (inv_of_reachable scripted reach).kept r h

/-- **What is sent afterwards is received afterwards**: all that the one has sent over its
stream is what the other one has received, followed by what is on its way. -/
theorem afterwards (reach : setting.system.Reachable st)
    (h : ∀ r, setting.keeping st r = true) (r : Role) :
    st.sent r = st.received r.peer ++ st.incoming r.peer := by
  have inv := inv_of_reachable scripted reach
  have hbuffer := inv.buffer_of_keeping (h r)
  have hstream := inv.stream r
  rw [(inv.kept r (h r)).2, (inv.kept _ (h r.peer)).1, Role.peer_peer, hbuffer, List.append_nil,
    List.append_assoc] at hstream
  exact List.append_cancel_left hstream

/-- What a process returns is what it returns on all it has read. -/
theorem eval_of_result (reach : setting.system.Reachable st) {r : Role} {value : R r}
    (h : (st.party r).result = some value) :
    setting.eval r (st.party r).consumed (st.party r).sawEnd =
      ⟨(st.party r).written, (st.party r).asked, some (value, [])⟩ :=
  ((inv_of_reachable scripted reach).consistent r).eval_of_result h

/-- What a party has asked is the beginning of what its process asks on all it has read. -/
theorem asked_within (reach : setting.system.Reachable st) (r : Role) :
    (st.party r).asked <+:
      (setting.eval r (st.party r).consumed (st.party r).sawEnd).asked := by
  rw [Setting.eval, ((inv_of_reachable scripted reach).consistent r).eval_consumed]
  exact List.prefix_append _ _

/-- What a party has read was written by its peer, if the peer does not go on. -/
theorem consumed_of_written (reach : setting.system.Reachable st) {r : Role}
    (h : setting.keeping st r.peer = false) :
    (st.party r).consumed <+: (st.party r.peer).written := by
  have inv := inv_of_reachable scripted reach
  have hstream := inv.stream r.peer
  rw [Role.peer_peer, (inv.quiet _ h).1, List.append_nil] at hstream
  rw [hstream, List.append_assoc, List.append_assoc]
  exact List.prefix_append _ _

/-- A party that has seen the end of its stream has a peer that has returned without having
seen the end of its own, and that has closed the stream. -/
theorem peer_of_sawEnd (reach : setting.system.Reachable st) {r : Role}
    (h : (st.party r).sawEnd = true) :
    (st.party r.peer).sawEnd = false ∧ ∃ value, (st.party r.peer).result = some value ∧
      setting.keeps r.peer value = false := by
  have inv := inv_of_reachable scripted reach
  have hclosed := (inv.ended r h).2
  refine ⟨inv.oneEnd r h, ?_⟩
  unfold Setting.closed at hclosed
  split at hclosed
  · rename_i value hresult
    exact ⟨value, hresult, by simpa using hclosed⟩
  · cases hclosed

/-- **A run that cannot go on is complete.** -/
theorem complete_of_stuck (reach : setting.system.Reachable st) (hstuck : setting.Stuck st)
    (r : Role) : ∃ value, (st.party r).result = some value := by
  have inv := inv_of_reachable scripted reach
  have hcases := fun q => (inv.consistent q).of_stuck fun k =>
    Option.map_eq_none_iff.mp (hstuck q k)
  -- what a waiting party has read, and what its process does on that
  have hwaiting : ∀ q, (st.party q).result = none → st.incoming q = [] →
      setting.closed st q.peer = false → (st.party q.peer).buffer = [] →
      (st.party q).process.eval (setting.answers q) (st.party q).got false = ⟨[], [], none⟩ →
      (st.party q).consumed = (st.party q.peer).written ++ st.sent q.peer ∧
        setting.eval q (st.party q).consumed false =
          ⟨(st.party q).written, (st.party q).asked, none⟩ := by
    intro q hresult hincoming hclosed hbuffer heval
    have hstream := inv.stream q.peer
    have hreceived := (inv.quiet q (not_keeping_of_active setting hresult).1).2
    rw [Role.peer_peer, hreceived, hincoming, hbuffer, List.append_nil, List.append_nil,
      List.append_nil] at hstream
    have hsaw : (st.party q).sawEnd = false := by
      cases hsaw : (st.party q).sawEnd with
      | false => rfl
      | true => exact absurd (inv.ended q hsaw).2 (by rw [hclosed]; decide)
    refine ⟨hstream.symm, ?_⟩
    have hconsumed := (inv.consistent q).eval_consumed
    rw [hsaw, heval] at hconsumed
    rw [Setting.eval, hconsumed]
    simp [Eval.after]
  rcases hcases r with hdone | ⟨hresult, hincoming, hclosed, hbuffer, heval⟩
  · exact hdone
  · exfalso
    rcases hcases r.peer with ⟨value, hdone⟩ | ⟨hresult', hincoming', hclosed', hbuffer', heval'⟩
    · -- the peer has returned with its stream, so it has said everything
      have hkeeping : setting.keeping st r.peer = true := by
        unfold Setting.closed at hclosed
        unfold Setting.keeping
        rw [hdone] at hclosed ⊢
        simpa using hclosed
      obtain ⟨hconsumed, hnone⟩ := hwaiting r hresult hincoming hclosed
        ((inv.consistent _).of_result hdone).2.2 heval
      rw [(inv.kept _ hkeeping).2] at hconsumed
      obtain ⟨value', rest, hsome⟩ := scripted.stops r (st.sent r.peer) (inv.goesOn hkeeping)
      rw [← hconsumed, hnone] at hsome
      cases hsome
    · -- both wait
      have hnone : ∀ q, (st.party q).result = none := by
        intro q
        rcases r.eq_or_eq_peer q with rfl | rfl
        · exact hresult
        · exact hresult'
      have hsaid : ∀ q, setting.eval q (st.party q.peer).written false =
          ⟨(st.party q).written, (st.party q).asked, none⟩ := by
        intro q
        have hconsumed : (st.party q).consumed = (st.party q.peer).written ++ st.sent q.peer ∧
            setting.eval q (st.party q).consumed false =
              ⟨(st.party q).written, (st.party q).asked, none⟩ := by
          rcases r.eq_or_eq_peer q with rfl | rfl
          · exact hwaiting q hresult hincoming hclosed hbuffer' heval
          · refine hwaiting r.peer hresult' hincoming' hclosed' ?_ heval'
            rw [Role.peer_peer]
            exact hbuffer
        have hsent := (inv.quiet _ (not_keeping_of_active setting (hnone q.peer)).1).1
        rw [hsent, List.append_nil] at hconsumed
        rw [← hconsumed.1]
        exact hconsumed.2
      obtain ⟨q, hq⟩ := scripted.live (fun q => (st.party q).written) inv.bounded
        fun q => congrArg Eval.written (hsaid q)
      exact hq (congrArg Eval.result (hsaid q))

end Runs

end Scripted

end Dialogue
