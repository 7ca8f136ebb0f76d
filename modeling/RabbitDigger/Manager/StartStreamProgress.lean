import RabbitDigger.Foundation.Progress
import RabbitDigger.Manager.CallProgress

/-!
# A stream of configs is followed to its end

`start_stream` makes one call after the other, and it drops a `join` wherever it stands when a
config arrives.  Here it is shown that it never gets stuck on a lock: while it starts or stops
servers, it can always go on, unless it awaits **a task that it has aborted** and that has not
ended yet (`start_stream_proceeds`).  Once these tasks have ended, it comes to the next config, or
to its end.

A server that ends by a panic does not close its semaphore, and a `join` never notices; but a
`join` is always raced against the stream, so the next config gets through.
-/

namespace RabbitDigger

open Transition Tally

namespace StartStream

variable {E : Type} {s s' : State E}

/-! ## All runs -/

/-- What happens without the stream: `start_stream` goes on, or a task ends that was aborted. -/
def Internal (s : State E) : Event E → Prop
  | .step _ => True
  | .taskEnds t _ => s.manager.shared.servers.closed t = true
  | .timeout | .yields _ | .look _ _ => False

/-- `start_stream` waits for the stream, or for connections, or has returned. -/
def Awaits (s : State E) : Prop :=
  match s.place with
  | .start _ _ | .stop _ _ | .lastStop _ => False
  | .first | .race _ | .next | .close _ | .returned _ => True

/-- The invariant: no lock is held but by the call that is awaited. -/
structure Able (s : State E) : Prop where
  inv : Inv s
  busy : ∀ id kind pc, s.place.current = some id →
    s.manager.calls[id]? = some ⟨kind, pc⟩ → Busy s.manager id kind pc
  free : s.place.current = none → Free s.manager

theorem Able.initial : Able (State.initial : State E) where
  inv := Inv.initial
  busy := by
    intro id kind pc hid
    cases hid
  free := fun _ => ⟨⟨rfl, rfl, fun _ => ⟨rfl, rfl⟩⟩, nofun, nofun, nofun⟩

/-- No call is awaited. -/
theorem Able.of_free (inv : Inv s) (hcurrent : s.place.current = none) (free : Free s.manager) :
    Able s where
  inv := inv
  busy := by
    intro id kind pc hid
    cases hcurrent.symm.trans hid
  free := fun _ => free

/-- A call that is made while no lock is held. -/
theorem Able.enter {kind : CallKind} {place : ℕ → Place E} (inv : Inv (s.enter kind place))
    (free : Free s.manager) (hplace : (place s.manager.calls.length).current
      = some s.manager.calls.length)
    (hdistinct : kind.Distinct) :
    Able (s.enter kind place) where
  inv := inv
  busy := by
    intro id kind' pc hid hcall
    cases hplace.symm.trans hid
    have hlast : (s.enter kind place).manager.calls[s.manager.calls.length]?
        = some ⟨kind, kind.entry⟩ := List.getElem?_concat_length
    cases hlast.symm.trans hcall
    exact free.enter kind hdistinct
  free := fun hnone => nomatch hplace.symm.trans hnone

theorem Able.start {config : Config} (inv : Inv (s.start config)) (free : Free s.manager) :
    Able (s.start config) := by
  unfold State.start at inv ⊢
  split at inv <;> rename_i hbuilds
  · rw [if_pos hbuilds]
    exact .enter inv free rfl config.nodup
  · rw [if_neg hbuilds]
    exact .of_free inv rfl free

theorem Able.received {item : Except E (Option Config)} (inv : Inv (s.received item))
    (free : Free s.manager) : Able (s.received item) := by
  rcases item with e | _ | config
  · exact .enter inv free rfl trivial
  · exact .enter inv free rfl trivial
  · exact @Able.enter E { s with configs := s.configs ++ [config] } .stop (.stop · config) inv
      free rfl trivial

/-- A call goes on. -/
theorem Able.advance (h : Able s) {id choice : ℕ} {kind : CallKind} {pc pc' : Pc} {sh : Shared}
    (hcurrent : s.place.current = some id) (hcall : s.manager.calls[id]? = some ⟨kind, pc⟩)
    (hadvance : advance s.manager.shared id kind choice pc = some (sh, pc'))
    (sound : Sound s.manager)
    (inv : Inv { s with manager := ⟨sh, s.manager.calls.set id ⟨kind, pc'⟩⟩ }) :
    Able { s with manager := ⟨sh, s.manager.calls.set id ⟨kind, pc'⟩⟩ } where
  inv := inv
  busy := by
    intro id' kind' pc'' hid hcall'
    cases hcurrent.symm.trans hid
    obtain ⟨hlt, -⟩ := List.getElem?_eq_some_iff.mp hcall
    cases (getElem?_set_self hcall).symm.trans hcall'
    exact (h.busy id kind pc hcurrent hcall).moves hlt (sound.calls id _ hcall)
      (moves_of_advance hadvance)
  free := fun hnone => nomatch hcurrent.symm.trans hnone

/-- What `start_stream` awaits, and what it does when this has returned. -/
theorem step_cases {choice : ℕ} (h : Inv s) (hstep : s.step (.step choice) = some s') :
    ∃ id kind pc, s.place.current = some id ∧ Alone s.manager id kind pc ∧
      ((∃ sh pc', advance s.manager.shared id kind choice pc = some (sh, pc') ∧
          s' = { s with manager := ⟨sh, s.manager.calls.set id ⟨kind, pc'⟩⟩ }) ∨
        pc = .returned ∧
          ((∃ config, s.place = .start id config ∧
              kind = .start config.names config.serializes ∧ s' = s.enter .join .race) ∨
            (s.place = .race id ∧ s' = { s with place := .next }) ∨
            (∃ config, s.place = .stop id config ∧ kind = .stop ∧ s' = s.start config) ∨
            (s.place = .lastStop id ∧ s' = { s with place := .close 0 }))) := by
  obtain ⟨m, place, configs⟩ := s
  obtain ⟨placed, -⟩ := h
  cases place with
  | start id config =>
      simp only [State.step] at hstep
      obtain ⟨hserializes, pc, alone⟩ := placed
      refine ⟨id, _, pc, rfl, alone, ?_⟩
      rcases proceed_cases hstep alone.call with ⟨rfl, rfl⟩ | hadvance
      · refine .inr ⟨rfl, .inl ⟨config, rfl, rfl, ?_⟩⟩
        simp only [hserializes, if_true]
      · exact .inl hadvance
  | race id =>
      simp only [State.step] at hstep
      obtain ⟨pc, alone⟩ := placed
      refine ⟨id, _, pc, rfl, alone, ?_⟩
      rcases proceed_cases hstep alone.call with ⟨rfl, rfl⟩ | hadvance
      · exact .inr ⟨rfl, .inr (.inl ⟨rfl, rfl⟩)⟩
      · exact .inl hadvance
  | stop id config =>
      simp only [State.step] at hstep
      obtain ⟨-, pc, alone⟩ := placed
      refine ⟨id, _, pc, rfl, alone, ?_⟩
      rcases proceed_cases hstep alone.call with ⟨rfl, rfl⟩ | hadvance
      · exact .inr ⟨rfl, .inr (.inr (.inl ⟨config, rfl, rfl, rfl⟩))⟩
      · exact .inl hadvance
  | lastStop id =>
      simp only [State.step] at hstep
      obtain ⟨pc, alone⟩ := placed
      refine ⟨id, _, pc, rfl, alone, ?_⟩
      rcases proceed_cases hstep alone.call with ⟨rfl, rfl⟩ | hadvance
      · exact .inr ⟨rfl, .inr (.inr (.inr ⟨rfl, rfl⟩))⟩
      · exact .inl hadvance
  | first | next | close | returned => cases hstep

/-- `start_stream` goes on. -/
theorem Able.proceed (h : Able s) {choice : ℕ} (hstep : s.step (.step choice) = some s') :
    Able s' := by
  have inv := h.inv.proceed hstep
  obtain ⟨id, kind, pc, hcurrent, alone, hcases⟩ := step_cases h.inv hstep
  rcases hcases with ⟨sh, pc', hadvance, rfl⟩ | ⟨rfl, hnext⟩
  · exact h.advance hcurrent alone.call hadvance alone.sound inv
  · have free := (h.busy id kind _ hcurrent alone.call).free
    rcases hnext with ⟨config, -, -, rfl⟩ | ⟨-, rfl⟩ | ⟨config, -, -, rfl⟩ | ⟨-, rfl⟩
    · exact .enter inv free rfl trivial
    · exact .of_free inv rfl free
    · exact .start inv free
    · exact .of_free inv rfl free

theorem Able.step (s : State E) (event : Event E) (s' : State E) (h : Able s)
    (hserializes : serializes s event = true) (hstep : s.step event = some s') : Able s' := by
  have inv := h.inv.step s event s' hserializes hstep
  cases event with
  | timeout =>
      obtain ⟨m, place, configs⟩ := s
      cases place with
      | first =>
          cases hstep
          exact .of_free inv rfl (h.free rfl)
      | _ => cases hstep
  | yields item =>
      obtain ⟨m, place, configs⟩ := s
      cases place with
      | first =>
          have free := h.free rfl
          rcases item with e | _ | config
          · cases hstep
            exact .of_free inv rfl free
          · cases hstep
            exact .of_free inv rfl free
          · cases hstep
            exact @Able.start E ⟨m, .first, configs ++ [config]⟩ config inv free
      | race id =>
          obtain ⟨pc, alone⟩ := h.inv.placed
          have hdrop : (⟨m, .race id, configs⟩ : State E).dropJoin id
              = ⟨⟨m.shared.dropJoin pc, m.calls.set id ⟨.join, .returned⟩⟩, .race id, configs⟩ := by
            simp only [State.dropJoin, alone.call]
          cases hstep
          rw [hdrop] at inv ⊢
          exact .received inv ((h.busy id .join pc rfl alone.call).dropJoin
            (alone.sound.calls id _ alone.call))
      | next =>
          cases hstep
          exact .received inv (h.free rfl)
      | _ => cases hstep
  | step choice => exact h.proceed hstep
  | look count stopped =>
      obtain ⟨m, place, configs⟩ := s
      cases place with
      | close closeCount =>
          have free := h.free rfl
          simp only [State.step] at hstep
          split at hstep <;> cases hstep <;> exact .of_free inv rfl free
      | _ => cases hstep
  | taskEnds t closes =>
      obtain ⟨m', hm, rfl⟩ := Option.map_eq_some_iff.mp hstep
      obtain ⟨w, hends, rfl⟩ := Option.map_eq_some_iff.mp hm
      exact ⟨inv, fun id kind pc hid hcall => (h.busy id kind pc hid hcall).taskEnds hends,
        fun hnone => (h.free hnone).taskEnds hends⟩

/-! ## The measure -/

/-- How many steps a call may still take. -/
def callLeft (m : Manager) (id : ℕ) : ℕ :=
  match m.calls[id]? with
  | some call => call.pc.left call.kind (serversIn m.shared.state)
  | none => 0

/-- How many steps `start_stream` may still take until it waits for the stream with nothing
running, without the stream. -/
def State.left (s : State E) : ℕ :=
  match s.place with
  | .start id config => callLeft s.manager id + (5 * config.names.length + 5)
  | .race id => callLeft s.manager id + 1
  | .stop id config =>
      callLeft s.manager id + (7 * config.names.length + 8 + (5 * config.names.length + 5))
  | .lastStop id => callLeft s.manager id + 1
  | .first | .next | .close _ | .returned _ => 0

/-- Something can happen as long as a server is to be started or stopped. -/
theorem Able.enabled (s : State E) (h : Able s) (hawaits : ¬ Awaits s) :
    ∃ event s', Internal s event ∧ s.step event = some s' := by
  have hproceed : ∀ id kind pc next, s.place.current = some id → kind ≠ .join →
      Alone s.manager id kind pc →
      (∀ choice, s.step (.step choice) = s.proceed id choice next) →
      ∃ event s', Internal s event ∧ s.step event = some s' := by
    intro id kind pc next hcurrent hkind alone hstep
    by_cases hpc : pc = .returned
    · subst hpc
      refine ⟨.step 0, next s, trivial, ?_⟩
      rw [hstep, State.proceed, alone.call]
    · rcases (h.busy id kind pc hcurrent alone.call).enabled hkind hpc
        (alone.sound.calls id _ alone.call) with
        ⟨choice, hsome⟩ | ⟨t, task, htask, hunfinished, hclosed⟩
      · obtain ⟨⟨sh, pc'⟩, hadvance⟩ := Option.isSome_iff_exists.mp hsome
        refine ⟨.step choice, { s with manager := ⟨sh, s.manager.calls.set id ⟨kind, pc'⟩⟩ },
          trivial, ?_⟩
        have hmanager : s.manager.step (.step id choice)
            = some ⟨sh, s.manager.calls.set id ⟨kind, pc'⟩⟩ := by
          simp only [Manager.step, alone.call, hadvance, Option.map_some]
        rw [hstep, State.proceed, alone.call]
        cases pc with
        | returned => exact absurd rfl hpc
        | _ => exact congrArg (Option.map _) hmanager
      · -- the task that is awaited ends
        obtain ⟨w, hends⟩ : ∃ w, s.manager.shared.servers.taskEnds t false = some w := by
          unfold Servers.taskEnds
          simp only [htask, hunfinished, Bool.false_eq_true, if_false]
          exact ⟨_, rfl⟩
        refine ⟨.taskEnds t false,
          { s with manager := { s.manager with shared := { s.manager.shared with servers := w } } },
          hclosed, ?_⟩
        simp only [State.step, Manager.step, hends, Option.map_some]
  have hplaced := h.inv.placed
  cases hplace : s.place with
  | start id config =>
      rw [hplace] at hplaced
      obtain ⟨-, pc, alone⟩ := hplaced
      exact hproceed id (.start config.names config.serializes) pc _ (by rw [hplace]; rfl) (by simp)
        alone (fun choice => by simp only [State.step, hplace]; rfl)
  | stop id config =>
      rw [hplace] at hplaced
      obtain ⟨-, pc, alone⟩ := hplaced
      exact hproceed id .stop pc _ (by rw [hplace]; rfl) (by simp) alone
        (fun choice => by simp only [State.step, hplace]; rfl)
  | lastStop id =>
      rw [hplace] at hplaced
      obtain ⟨pc, alone⟩ := hplaced
      exact hproceed id .stop pc _ (by rw [hplace]; rfl) (by simp) alone
        (fun choice => by simp only [State.step, hplace]; rfl)
  | _ => exact absurd (by simp only [Awaits, hplace]) hawaits

end StartStream

end RabbitDigger
