import RabbitDigger.Foundation.Exclusive
import RabbitDigger.Manager.UpdateNet

/-!
# Concurrent updates

`RabbitDigger::update_net` commits to two places: the `RunningNet` gets the new net, and then
the config is serialized and its text is stored.  The text is behind a lock that is held all
the time, so calls that are made concurrently **take effect one after the other**, and none of
their updates is lost (`performs_updateNet`, with `Exclusive.serial`).

A call that fails before the first commit has changed nothing.  Between the two commits one
step can still fail: the config with the new entry must be serialized, and serde cannot flatten
options that are not a map into the entry.  So a call is atomic **if what it writes can be
written and read back** (`updates_atomic`); otherwise it may fail and leave the new net behind
(`update_fails_after_commit`).
-/

namespace RabbitDigger.Build

open Transition

variable {Text : Type}

/-! ## The steps of a call -/

/-- A call of `update_net`. -/
structure Call where
  netName : String
  update : Entry → Entry

/-- Where a call is while it holds the lock. -/
inductive Place where
  /-- The text is to be parsed, -/
  | parse
  /-- the net is to be looked up, built and handed over, -/
  | build (config : Config)
  /-- the config with the new entry is to be serialized and stored. -/
  | write (config : Config)

section System

variable (reg : Registry) (json : Json Text)

/-- `update_net`, step by step. -/
def updateBody : Exclusive.Body (Running Text) Call Place (Except Failure Unit) where
  start := .parse
  step call place running :=
    match place with
    | .parse =>
        match json.fromStr running.str with
        | .error e => (running, .inr (.error (.error e)))
        | .ok config => (running, .inl (.build config))
    | .build config =>
        match config.net call.netName, running.entities.nets call.netName with
        | some cfg, some x =>
            match reg.buildNet call.netName (call.update cfg)
              (updateGetter running.entities.nets) () with
            | .error e => (running, .inr (.error e))
            | .ok ((newCfg, refs), _) =>
                (running.replace x (call.update cfg) newCfg refs,
                  .inl (.write { config with
                    net := Function.update config.net call.netName (some newCfg) }))
        | _, _ => (running, .inr (.ok ()))
    | .write config =>
        match json.toStr config with
        | .error e => (running, .inr (.error (.error e)))
        | .ok str => ({ running with str }, .inr (.ok ()))

/-- Any number of concurrent calls, from any running state. -/
def updates (init : Running Text) :
    System (Exclusive.State (Running Text) Call Place (Except Failure Unit))
      (Exclusive.Event Call) :=
  (updateBody reg json).system init

/-- If a call gets to the point where the config with the new entry is serialized, it can be
serialized and is read back as it was. -/
def Writes (running : Running Text) (call : Call) : Prop :=
  ∀ config cfg x newCfg refs,
    json.fromStr running.str = .ok config → config.net call.netName = some cfg →
    running.entities.nets call.netName = some x →
    reg.buildNet call.netName (call.update cfg) (updateGetter running.entities.nets) () =
      .ok ((newCfg, refs), ()) →
    ∃ str,
      json.toStr { config with
        net := Function.update config.net call.netName (some newCfg) } = .ok str ∧
      json.fromStr str = .ok { config with
        net := Function.update config.net call.netName (some newCfg) }

end System

/-! ## What atomic means -/

/-- A call with the state that it has found, the state that it has left, and its result. -/
abbrev Update (Text : Type) := Exclusive.Completed (Running Text) Call (Except Failure Unit)

/-- A call that fails changes nothing.  One that succeeds changes, of the stored config, only
the entry of its name, and of the nets, only the `RunningNet` of its name. -/
structure Atomic (json : Json Text) (d : Update Text) : Prop where
  failed : ∀ e, d.result = .error e → d.after = d.before
  stored : d.result = .ok () → ∃ config config', json.fromStr d.before.str = .ok config ∧
    json.fromStr d.after.str = .ok config' ∧ config'.server = config.server ∧
    ∀ name ≠ d.call.netName, config'.net name = config.net name
  nets : d.result = .ok () → d.after.entities.nets = d.before.entities.nets ∧
    d.after.entities.servers = d.before.entities.servers ∧
    ∀ x, d.before.entities.nets d.call.netName ≠ some x →
      d.after.entities.running[x]? = d.before.entities.running[x]?

/-- The stored entry of every net is the configuration that its `RunningNet` was built
from. -/
def Consistent (json : Json Text) (running : Running Text) : Prop :=
  ∃ config, json.fromStr running.str = .ok config ∧
    ∀ name x, running.entities.nets name = some x →
      ∃ net, running.entities.running[x]? = some net ∧ net.name = name ∧
        config.net name = some net.cfg

/-- **What concurrent calls do.** -/
structure Updated (reg : Registry) (json : Json Text) (init : Running Text)
    (st : Exclusive.State (Running Text) Call Place (Except Failure Unit)) : Prop where
  /-- They take effect one after the other: no update is lost. -/
  serial : st.completed.foldl
    (fun state d => (updateNet reg json state d.call.netName d.call.update).1) (some init) =
      some st.found
  atomic : ∀ d ∈ st.completed, Atomic json d
  consistent : Consistent json init → ∀ d ∈ st.completed, Consistent json d.after

/-! ## Calls one after the other -/

section Calls

variable {reg : Registry} {json : Json Text} {call : Call} {before after : Running Text}
variable {result : Except Failure Unit}

/-- What is still to come of `update_net` when the net has been handed over, -/
def restWrite (json : Json Text) (config : Config) (running : Running Text) :
    Option (Running Text) × Except Failure Unit :=
  match json.toStr config with
  | .error e => (running, .error (.error e))
  | .ok str => (some { running with str }, .ok ())

/-- when the text has been parsed, -/
def restBuild (reg : Registry) (json : Json Text) (call : Call) (config : Config)
    (running : Running Text) : Option (Running Text) × Except Failure Unit :=
  match config.net call.netName, running.entities.nets call.netName with
  | some cfg, some x =>
      match reg.buildNet call.netName (call.update cfg) (updateGetter running.entities.nets) ()
      with
      | .error e => (running, .error e)
      | .ok ((newCfg, refs), _) =>
          restWrite json { config with
            net := Function.update config.net call.netName (some newCfg) }
            (running.replace x (call.update cfg) newCfg refs)
  | _, _ => (running, .ok ())

/-- and at any place. -/
def rest (reg : Registry) (json : Json Text) (call : Call) :
    Place → Running Text → Option (Running Text) × Except Failure Unit
  | .parse, running => updateNet reg json (some running) call.netName call.update
  | .build config, running => restBuild reg json call config running
  | .write config, running => restWrite json config running

theorem updateNet_of_read {config : Config} (h : json.fromStr before.str = .ok config) :
    updateNet reg json (some before) call.netName call.update =
      restBuild reg json call config before := by
  unfold updateNet
  dsimp only
  rw [h]
  rfl

/-- A step takes what is still to come one step further. -/
theorem rest_step (place : Place) (running : Running Text) :
    rest reg json call place running =
      ((updateBody reg json).step call place running).2.elim
        (fun place' => rest reg json call place' ((updateBody reg json).step call place running).1)
        (fun r => (some ((updateBody reg json).step call place running).1, r)) := by
  cases place with
  | parse =>
      simp only [updateBody]
      rcases hread : json.fromStr running.str with e | config
      · simp [rest, updateNet, hread]
      · exact updateNet_of_read hread
  | build config =>
      simp only [updateBody, rest, restBuild]
      rcases config.net call.netName with _ | cfg
      · rfl
      · rcases running.entities.nets call.netName with _ | x
        · rfl
        · dsimp only
          rcases reg.buildNet call.netName (call.update cfg)
            (updateGetter running.entities.nets) () with e | ⟨⟨newCfg, refs⟩, _⟩
          · rfl
          · rfl
  | write config =>
      simp only [updateBody, rest, restWrite]
      rcases json.toStr config with e | str
      · rfl
      · rfl

/-- The steps of a call make up `update_net`. -/
theorem performs_updateNet
    (h : (updateBody reg json).Performs call before after result) :
    updateNet reg json (some before) call.netName call.update = (some after, result) :=
  h.computes (rest reg json call) (fun running r => (some running, r)) rest_step

theorem Running.replace_getElem? (running : Running Text) (x y : ℕ) (given cfg : Entry)
    (refs : List ℕ) :
    (running.replace x given cfg refs).entities.running[y]? =
      if x = y then running.entities.running[y]?.map fun net => { net with given, cfg, refs }
      else running.entities.running[y]? := by
  unfold Running.replace
  dsimp only
  rw [List.getElem?_modify]
  split
  · rfl
  · exact Option.map_id'

/-- A call is atomic if what it writes can be written and read back. -/
theorem UpdateDone.atomic
    (done : UpdateDone reg json before call.netName call.update (some after, result))
    (hwrites : Writes reg json before call) : Atomic json ⟨call, before, after, result⟩ := by
  cases done with
  | unread | unbuilt =>
      refine ⟨fun _ _ => rfl, ?_, ?_⟩
      · rintro ⟨⟩
      · rintro ⟨⟩
  | @missing config hread hmissing =>
      refine ⟨fun _ _ => rfl, fun _ => ⟨config, config, hread, hread, rfl, fun _ _ => rfl⟩, ?_⟩
      exact fun _ => ⟨rfl, rfl, fun _ _ => rfl⟩
  | unwritten hread hstored hrunning hbuilt hwrite =>
      obtain ⟨str, hstr, _⟩ := hwrites _ _ _ _ _ hread hstored hrunning hbuilt
      rw [hwrite] at hstr
      cases hstr
  | @written config cfg newCfg x refs str hread hstored hrunning hbuilt hwrite =>
      obtain ⟨str', hstr, hback⟩ := hwrites _ _ _ _ _ hread hstored hrunning hbuilt
      rw [hwrite] at hstr
      cases hstr
      refine ⟨?_, ?_, ?_⟩
      · rintro e ⟨⟩
      · intro _
        refine ⟨config, _, hread, hback, rfl, ?_⟩
        intro name hname
        exact Function.update_of_ne hname _ _
      · intro _
        refine ⟨rfl, rfl, ?_⟩
        intro y hy
        have hne : x ≠ y := by
          rintro rfl
          exact hy hrunning
        show (before.replace x _ newCfg refs).entities.running[y]? = _
        rw [Running.replace_getElem?, if_neg hne]

/-- and it keeps the stored config and the nets consistent. -/
theorem UpdateDone.consistent
    (done : UpdateDone reg json before call.netName call.update (some after, result))
    (hwrites : Writes reg json before call) (consistent : Consistent json before) :
    Consistent json after := by
  cases done with
  | unread | missing | unbuilt => exact consistent
  | unwritten hread hstored hrunning hbuilt hwrite =>
      obtain ⟨str, hstr, _⟩ := hwrites _ _ _ _ _ hread hstored hrunning hbuilt
      rw [hwrite] at hstr
      cases hstr
  | @written config cfg newCfg x refs str hread hstored hrunning hbuilt hwrite =>
      obtain ⟨str', hstr, hback⟩ := hwrites _ _ _ _ _ hread hstored hrunning hbuilt
      rw [hwrite] at hstr
      cases hstr
      obtain ⟨config', hread', hnets⟩ := consistent
      rw [hread] at hread'
      cases hread'
      obtain ⟨net, hnet, hname, _⟩ := hnets _ x hrunning
      refine ⟨_, hback, ?_⟩
      intro name y (hy : before.entities.nets name = some y)
      obtain ⟨other, hother, hothername, hentry⟩ := hnets name y hy
      by_cases hsame : name = call.netName
      · subst hsame
        rw [hrunning] at hy
        cases hy
        refine ⟨{ net with given := call.update cfg, cfg := newCfg, refs }, ?_, hname, ?_⟩
        · show (before.replace x _ newCfg refs).entities.running[x]? = _
          rw [Running.replace_getElem?, if_pos rfl, hnet]
          rfl
        · exact Function.update_self _ _ _
      · -- the nets have different names, so they are different
        have hne : x ≠ y := by
          rintro rfl
          rw [hnet] at hother
          cases hother
          exact hsame (hothername.symm.trans hname)
        refine ⟨other, ?_, hothername, ?_⟩
        · show (before.replace x _ newCfg refs).entities.running[y]? = _
          rw [Running.replace_getElem?, if_neg hne]
          exact hother
        · exact (Function.update_of_ne hsame _ _).trans hentry

end Calls

/-- **Updates are atomic** in every interleaving of calls, each of which finds a state in
which what it writes can be written and read back. -/
theorem updates_atomic (reg : Registry) (json : Json Text) (init : Running Text)
    (st : Exclusive.State (Running Text) Call Place (Except Failure Unit))
    (reach : (updates reg json init).Reach
      (Exclusive.Body.Entering (Writes reg json)) st) :
    Updated reg json init st := by
  have hserial := Exclusive.serial reach
  -- what each of the calls has done, alone
  have hupdate : ∀ d ∈ st.completed,
      updateNet reg json (some d.before) d.call.netName d.call.update =
        (some d.after, d.result) := by
    intro d hd
    exact performs_updateNet (hserial.performed d hd).2
  have hdone : ∀ d ∈ st.completed, Writes reg json d.before d.call ∧
      UpdateDone reg json d.before d.call.netName d.call.update (some d.after, d.result) := by
    intro d hd
    exact ⟨(hserial.performed d hd).1, hupdate d hd ▸ updateDone ..⟩
  refine ⟨?_, ?_, ?_⟩
  · exact hserial.follow.foldl (v := some)
      (f := fun call state => (updateNet reg json state call.netName call.update).1)
      fun d hd => congrArg Prod.fst (hupdate d hd)
  · intro d hd
    obtain ⟨hwrites, done⟩ := hdone d hd
    exact done.atomic hwrites
  · intro hinit d hd
    have hkept := hserial.follow.invariant (P := Consistent json) hinit fun d hd hbefore =>
      (hdone d hd).2.consistent (hdone d hd).1 hbefore
    exact (hkept d hd).2

/-! ## Options that are a map, and options that are not -/

/-- A serialization of configs with nets of these names: the options of an entry are flattened
into it, so they can only be written if they are a map or nothing. -/
def Json.flattening (names : List String) : Json Config where
  fromStr := Json.ideal.fromStr
  toStr config :=
    if names.all fun name => (config.net name).all fun entry =>
        match entry.opt with
        | .null | .object _ => true
        | _ => false
    then .ok config
    else .error (.other "can only flatten structs and maps")

/-- The nets of `aliasConfig` and the default ones. -/
def aliasJson : Json Config := Json.flattening ["proxy", "noop", "blackhole", "local"]

/-- What is running after `aliasConfig` was started. -/
def aliasRunning : Running Config :=
  ((digger stdRegistry aliasJson).run [.start 3 aliasConfig]).join.get rfl

/-- An update to a net without options. -/
def toNoop (opt : Value) : Call := ⟨"proxy", fun _ => ⟨"noop", opt⟩⟩

/-- A call that takes the lock and works until it returns. -/
def alone (call : Call) : List (Exclusive.Event Call) :=
  [.enter call, .advance, .advance, .advance]

/-- A plain config can be written, and is read as it was. -/
theorem Json.flattening_reads (names : List String) {config : Config} (h : config.All Entry.Plain) :
    (Json.flattening names).toStr config = .ok config ∧
      (Json.flattening names).fromStr config = .ok config := by
  refine ⟨if_pos ?_, congrArg Except.ok (Config.reread_of_plain h)⟩
  rw [List.all_eq_true]
  intro name _
  rw [Option.all_eq_true]
  intro entry hentry
  obtain ⟨fields, hopt, -⟩ := h.net name entry hentry
  rw [hopt]

/-- With an empty map as options the config can be written. -/
theorem writes_toNoop (before : Running Config) :
    Writes stdRegistry aliasJson before (toNoop (.object [])) := by
  intro config cfg x newCfg refs hread hstored hrunning hbuilt
  cases hread
  have hnew : stdRegistry.buildNet "proxy" ⟨"noop", .object []⟩
      (updateGetter before.entities.nets) () = .ok ((⟨"noop", .object []⟩, []), ()) := rfl
  cases hnew.symm.trans hbuilt
  have hplain : Entry.Plain ⟨"noop", .object []⟩ := ⟨_, rfl, nofun⟩
  exact ⟨_, Json.flattening_reads _ (before.str.reread_plain.update "proxy" hplain)⟩

/-- A call that finds the lock free and returns. -/
theorem reach_alone {reg : Registry} {json : Json Text} {init : Running Text} {call : Call}
    {st st' : Exclusive.State (Running Text) Call Place (Except Failure Unit)}
    (hwrites : Writes reg json st.shared call)
    (reach : (updates reg json init).Reach (Exclusive.Body.Entering (Writes reg json)) st)
    (hrun : (alone call).foldlM (updates reg json init).step st = some st') :
    (updates reg json init).Reach (Exclusive.Body.Entering (Writes reg json)) st' := by
  simp only [alone, List.foldlM_cons, List.foldlM_nil, Option.bind_eq_bind,
    Option.bind_eq_some_iff] at hrun
  obtain ⟨a, ha, b, hb, c, hc, d, hd, ⟨⟩⟩ := hrun
  exact .step (e := .advance) (.step (e := .advance) (.step (e := .advance)
    (.step (e := .enter call) reach hwrites ha) trivial hb) trivial hc) trivial hd

theorem updates_atomic_toNoop :
    ∃ st, (updates stdRegistry aliasJson aliasRunning).Reach
        (Exclusive.Body.Entering (Writes stdRegistry aliasJson)) st ∧
      st.completed.map (fun d => d.result) = [.ok (), .ok ()] ∧
      st.shared.entities.running.map (fun net => net.cfg.type) = ["noop", "noop"] ∧
      Updated stdRegistry aliasJson aliasRunning st := by
  have hreach : ∃ st, (updates stdRegistry aliasJson aliasRunning).Reach
        (Exclusive.Body.Entering (Writes stdRegistry aliasJson)) st ∧
      st.completed.map (fun d => d.result) = [.ok (), .ok ()] ∧
      st.shared.entities.running.map (fun net => net.cfg.type) = ["noop", "noop"] :=
    ⟨_, reach_alone (writes_toNoop _) (reach_alone (writes_toNoop _) .init rfl) rfl, rfl, rfl⟩
  obtain ⟨st, reach, hresult, htypes⟩ := hreach
  exact ⟨st, reach, hresult, htypes, updates_atomic _ _ _ st reach⟩

/-- With a text as options the call fails when the net has already been replaced. -/
theorem update_fails_after_commit :
    ∃ st d e, (updates stdRegistry aliasJson aliasRunning).Reachable st ∧
      st.completed = [d] ∧ d.call = toNoop (.string "off") ∧ d.before = aliasRunning ∧
      d.result = .error e ∧ d.after.str = aliasRunning.str ∧
      d.before.entities.running.map (fun net => net.cfg.type) = ["noop", "alias"] ∧
      d.after.entities.running.map (fun net => net.cfg.type) = ["noop", "noop"] ∧
      ¬ Updated stdRegistry aliasJson aliasRunning st := by
  obtain ⟨st, d, e, hrun, hcompleted, hcall, hbefore, hresult, hstr, htypes, htypes'⟩ :
      ∃ st d e, (updates stdRegistry aliasJson aliasRunning).run (alone (toNoop (.string "off"))) =
          some st ∧ st.completed = [d] ∧ d.call = toNoop (.string "off") ∧
        d.before = aliasRunning ∧ d.result = .error e ∧ d.after.str = aliasRunning.str ∧
        d.before.entities.running.map (fun net => net.cfg.type) = ["noop", "alias"] ∧
        d.after.entities.running.map (fun net => net.cfg.type) = ["noop", "noop"] :=
    ⟨_, _, _, rfl, rfl, rfl, rfl, rfl, rfl, rfl, rfl⟩
  refine ⟨st, d, e, System.reachable_of_run _ _ hrun, hcompleted, hcall, hbefore, hresult, hstr,
    htypes, htypes', ?_⟩
  intro updated
  have hsame := (updated.atomic d (by simp [hcompleted])).failed e hresult
  rw [hsame, htypes] at htypes'
  exact absurd htypes' (by decide)

end RabbitDigger.Build
