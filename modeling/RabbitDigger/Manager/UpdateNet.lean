import RabbitDigger.Foundation.Acyclic
import RabbitDigger.Foundation.Transition
import RabbitDigger.Manager.Build

/-!
# Updating a net while it is running

`src/rabbit_digger.rs`: `RabbitDigger::update_net` rebuilds one net of the running
config and hands the result to its `RunningNet`, which everything that refers to it
goes through.  The references of the new configuration are looked up by name in the
table of all `RunningNet`s.

`start` builds nets bottom-up, so the nets it leaves behind refer to older nets only
and a call that is passed on from net to net comes to an end.  **`update_net` has no
such order to follow**: the table also holds the net that is being updated and the nets
that lead to it.  `delegation_ends` says what is left: as long as no update makes a net
refer to one from which it can be reached (`Harmless`), the nets refer to each other
without a cycle and every delegated call ends at a leaf; and the first update that is
carried out without being harmless closes a cycle.
-/

namespace RabbitDigger.Build

open Transition Acyclicity Relation

/-- How a config is serialized: `serde_json::from_str` and `serde_json::to_string`,
over any type of texts. -/
structure Json (Text : Type) where
  fromStr : Text → Except Error Config
  toStr : Config → Except Error Text

/-- `Running`: the serialized config, and the entities. -/
structure Running (Text : Type) where
  str : Text
  entities : Entities

variable {Text : Type}

/-- The getter of `update_net`: references are names, looked up among the running
nets. -/
def updateGetter (nets : String → Option ℕ) : Getter Unit := fun ref st =>
  match ref.represent.asStr with
  | none => .error (.error (.other "Net not found"))
  | some name =>
      match nets name with
      | none => .error (.error (.notFound name))
      | some net => .ok ((ref.represent, net), st)

/-- `RunningNet::update_net`: from now on the `RunningNet` holds a net built from
another configuration. -/
def Running.replace (running : Running Text) (x : ℕ) (given cfg : Entry)
    (refs : List ℕ) : Running Text :=
  { running with
    entities.running :=
      running.entities.running.modify x fun net => { net with given, cfg, refs } }

section System

variable (reg : Registry) (json : Json Text)

/-- `RabbitDigger::update_net`; `none` is `WaitConfig`. -/
def updateNet (state : Option (Running Text)) (netName : String) (update : Entry → Entry) :
    Option (Running Text) × Except Failure Unit :=
  match state with
  | none => (none, .error (.error (.other "Not running")))
  | some running =>
      match json.fromStr running.str with
      | .error e => (running, .error (.error e))
      | .ok config =>
          match config.net netName, running.entities.nets netName with
          | some cfg, some x =>
              match reg.buildNet netName (update cfg) (updateGetter running.entities.nets) ()
              with
              | .error e => (running, .error e)
              | .ok ((newCfg, refs), _) =>
                  let running := running.replace x (update cfg) newCfg refs
                  let net := Function.update config.net netName (some newCfg)
                  match json.toStr { config with net } with
                  | .error e => (running, .error (.error e))
                  | .ok str => (some { running with str }, .ok ())
          | _, _ => (running, .ok ())

/-- What happens to the state: a config is started, everything is stopped, a net is
updated. -/
inductive Action where
  | start (fuel : ℕ) (config : Config)
  | stop
  | update (netName : String) (update : Entry → Entry)

/-- `start` builds first: a config that cannot be built leaves everything as it is. -/
def act (state : Option (Running Text)) : Action → Option (Option (Running Text))
  | .start fuel config =>
      match buildEntities reg fuel config with
      | .error _ => some state
      | .ok (entities, config) =>
          match json.toStr config with
          | .error _ => some none
          | .ok str => some (some ⟨str, entities⟩)
  | .stop => some none
  | .update netName update => some (updateNet reg json state netName update).1

/-- The state of a `RabbitDigger` through any sequence of actions. -/
def digger : System (Option (Running Text)) Action := ⟨none, act reg json⟩

/-! ## Delegation -/

/-- The net held by the `RunningNet` `x` refers to the `RunningNet` `y`. -/
def Refers (running : List Built) (x y : ℕ) : Prop :=
  ∃ net, running[x]? = some net ∧ y ∈ net.refs

/-- A call that is passed on: a net passes it to one of the nets it refers to, or
serves it itself.  The result is the net that serves it, if it is found in so many
hops. -/
def delegate (choose : Built → Option ℕ) (running : List Built) : ℕ → ℕ → Option ℕ
  | 0, _ => none
  | hops + 1, x =>
      match running[x]? with
      | none => none
      | some net =>
          match choose net with
          | none => some x
          | some y => delegate choose running hops y

/-- The `RunningNet`s that a configuration names. -/
def named (nets : String → Option ℕ) (cfg : Entry) : List ℕ :=
  match reg.net cfg.type with
  | none => []
  | some builder =>
      match builder.fromValue cfg.opt with
      | .error _ => []
      | .ok config => config.refs.filterMap fun ref => ref.represent.asStr.bind nets

/-- An update is harmless if no net that the new configuration names leads to the net
that is updated. -/
def Harmless (state : Option (Running Text)) : Action → Prop
  | .update netName update => ∀ running config cfg x, state = some running →
      json.fromStr running.str = .ok config → config.net netName = some cfg →
      running.entities.nets netName = some x →
      ∀ y ∈ named reg running.entities.nets (update cfg),
        ¬ ReflTransGen (Refers running.entities.running) y x
  | _ => True

end System

/-- All references are to nets that exist. -/
def Closed (running : List Built) : Prop := ∀ x y, Refers running x y → y < running.length

/-- A call that has not been served within a number of hops has walked that far. -/
theorem exists_walk_of_delegate {choose : Built → Option ℕ} {running : List Built}
    (hchoose : ∀ net y, choose net = some y → y ∈ net.refs) (hclosed : Closed running)
    (hops x : ℕ) (hx : x < running.length)
    (h : delegate choose running hops x = none) :
    ∃ walk : List ℕ, walk.length = hops + 1 ∧ walk.head? = some x ∧
      walk.IsChain (Refers running) ∧ ∀ y ∈ walk, y < running.length := by
  induction hops generalizing x with
  | zero => exact ⟨[x], rfl, rfl, .singleton x, by simpa using hx⟩
  | succ hops ih =>
      have hnet : running[x]? = some running[x] := List.getElem?_eq_getElem hx
      rw [delegate, hnet] at h
      dsimp only at h
      rcases hnext : choose running[x] with _ | y
      · rw [hnext] at h
        cases h
      · rw [hnext] at h
        have hrefers : Refers running x y := ⟨_, hnet, hchoose _ y hnext⟩
        obtain ⟨walk, hlength, hhead, hchain, hmem⟩ := ih y (hclosed x y hrefers) h
        refine ⟨x :: walk, by simp [hlength], rfl, ?_, ?_⟩
        · refine List.isChain_cons.mpr ⟨?_, hchain⟩
          intro z hz
          rw [hhead] at hz
          cases hz
          exact hrefers
        · intro z hz
          rcases List.mem_cons.mp hz with rfl | hz
          · exact hx
          · exact hmem z hz

/-- Where a call is served, the net does not pass it on. -/
theorem leaf_of_delegate {choose : Built → Option ℕ} {running : List Built}
    {hops x leaf : ℕ} (h : delegate choose running hops x = some leaf) :
    ∃ net, running[leaf]? = some net ∧ choose net = none := by
  induction hops generalizing x with
  | zero => cases h
  | succ hops ih =>
      rw [delegate] at h
      rcases hnet : running[x]? with _ | net
      · rw [hnet] at h
        cases h
      · rw [hnet] at h
        dsimp only at h
        rcases hnext : choose net with _ | y
        · rw [hnext] at h
          cases h
          exact ⟨net, hnet, hnext⟩
        · rw [hnext] at h
          exact ih h

/-- **In an acyclic table every call is served, after at most as many hops as there are
nets.** -/
theorem delegate_of_acyclic {choose : Built → Option ℕ} {running : List Built}
    (hchoose : ∀ net y, choose net = some y → y ∈ net.refs) (hclosed : Closed running)
    (hacyclic : Acyclic (Refers running)) {x : ℕ} (hx : x < running.length) :
    ∃ leaf net, delegate choose running running.length x = some leaf ∧
      running[leaf]? = some net ∧ choose net = none := by
  rcases h : delegate choose running running.length x with _ | leaf
  · obtain ⟨walk, hlength, _, hchain, hmem⟩ :=
      exists_walk_of_delegate hchoose hclosed running.length x hx h
    have hle := hacyclic.length_le (List.range running.length) hchain
      (fun y hy => List.mem_range.mpr (hmem y hy))
    rw [hlength, List.length_range] at hle
    omega
  · obtain ⟨net, hnet, hleaf⟩ := leaf_of_delegate h
    exact ⟨leaf, net, rfl, hnet, hleaf⟩

/-! ## What an update does to the references -/

/-- References that `update_net` could resolve are resolved to the nets they name. -/
theorem resolveNet_updateGetter {nets : String → Option ℕ} {refs : List NetRef}
    {outs : List (Value × ℕ)} {st st' : Unit}
    (h : resolveNet (updateGetter nets) refs st = .ok (outs, st')) :
    outs.map Prod.snd = refs.filterMap fun ref => ref.represent.asStr.bind nets := by
  induction refs generalizing outs with
  | nil =>
      cases h
      rfl
  | cons ref refs ih =>
      obtain ⟨⟨out, st₁⟩, hfirst, h⟩ := bind_ok.mp h
      obtain ⟨⟨tail, st₂⟩, hrest, h⟩ := bind_ok.mp h
      cases h
      have hout : ref.represent.asStr.bind nets = some out.2 := by
        unfold updateGetter at hfirst
        rcases hname : ref.represent.asStr with _ | name
        · rw [hname] at hfirst
          cases hfirst
        · rw [hname] at hfirst
          dsimp only at hfirst
          rcases hnet : nets name with _ | net
          · rw [hnet] at hfirst
            cases hfirst
          · rw [hnet] at hfirst
            cases hfirst
            exact hnet
      have htail := ih hrest
      rw [List.map_cons, htail]
      exact (List.filterMap_cons_some (f := fun ref : NetRef => ref.represent.asStr.bind nets)
        hout).symm

theorem buildNet_updateGetter {reg : Registry} {nets : String → Option ℕ}
    {name : String} {i i' : Entry} {refs : List ℕ} {st st' : Unit}
    (h : reg.buildNet name i (updateGetter nets) st = .ok ((i', refs), st')) :
    refs = named reg nets i := by
  obtain ⟨builder, config, outs, hbuilder, hitem⟩ := Registry.buildNet_ok.mp h
  unfold named
  rw [hbuilder]
  dsimp only
  rw [hitem.read, hitem.refs]
  exact resolveNet_updateGetter hitem.resolve

section Update

variable {reg : Registry} {json : Json Text}

/-- **What `update_net` can do**: the state and the result it leaves, by how far it gets. -/
inductive UpdateDone (reg : Registry) (json : Json Text) (before : Running Text)
    (netName : String) (update : Entry → Entry) :
    Option (Running Text) × Except Failure Unit → Prop where
  | unread {e : Error} (read : json.fromStr before.str = .error e) :
      UpdateDone reg json before netName update (some before, .error (.error e))
  | missing {config : Config} (read : json.fromStr before.str = .ok config)
      (missing : ∀ cfg x, config.net netName = some cfg →
        before.entities.nets netName ≠ some x) :
      UpdateDone reg json before netName update (some before, .ok ())
  | unbuilt {e : Failure} : UpdateDone reg json before netName update (some before, .error e)
  | unwritten {config : Config} {cfg newCfg : Entry} {x : ℕ} {refs : List ℕ} {e : Error}
      (read : json.fromStr before.str = .ok config) (stored : config.net netName = some cfg)
      (running : before.entities.nets netName = some x)
      (built : reg.buildNet netName (update cfg) (updateGetter before.entities.nets) () =
        .ok ((newCfg, refs), ()))
      (write : json.toStr { config with
        net := Function.update config.net netName (some newCfg) } = .error e) :
      UpdateDone reg json before netName update
        (some (before.replace x (update cfg) newCfg refs), .error (.error e))
  | written {config : Config} {cfg newCfg : Entry} {x : ℕ} {refs : List ℕ} {str : Text}
      (read : json.fromStr before.str = .ok config) (stored : config.net netName = some cfg)
      (running : before.entities.nets netName = some x)
      (built : reg.buildNet netName (update cfg) (updateGetter before.entities.nets) () =
        .ok ((newCfg, refs), ()))
      (write : json.toStr { config with
        net := Function.update config.net netName (some newCfg) } = .ok str) :
      UpdateDone reg json before netName update
        (some { before.replace x (update cfg) newCfg refs with str := str }, .ok ())

theorem updateDone (reg : Registry) (json : Json Text) (before : Running Text)
    (netName : String) (update : Entry → Entry) :
    UpdateDone reg json before netName update
      (updateNet reg json (some before) netName update) := by
  unfold updateNet
  dsimp only
  rcases hread : json.fromStr before.str with e | config
  · exact .unread hread
  dsimp only
  rcases hcfg : config.net netName with _ | cfg
  · refine .missing hread ?_
    rw [hcfg]
    rintro cfg x ⟨⟩
  rcases hx : before.entities.nets netName with _ | x
  · refine .missing hread ?_
    rw [hx]
    rintro cfg x _ ⟨⟩
  dsimp only
  rcases hbuild : reg.buildNet netName (update cfg) (updateGetter before.entities.nets) ()
    with e | ⟨⟨newCfg, refs⟩, _⟩
  · exact .unbuilt
  dsimp only
  rcases hwrite : json.toStr { config with
    net := Function.update config.net netName (some newCfg) } with e | str
  · exact .unwritten hread hcfg hx hbuild hwrite
  · exact .written hread hcfg hx hbuild hwrite

/-- An update leaves the running nets as they are, or the net of that name now refers to the
nets that the new configuration names. -/
theorem updateNet_cases {running : Running Text} {state : Option (Running Text)}
    {netName : String} {update : Entry → Entry}
    (h : (updateNet reg json (some running) netName update).1 = state) :
    ∃ running', state = some running' ∧
      (running'.entities = running.entities ∨
        ∃ config cfg newCfg x, json.fromStr running.str = .ok config ∧
          config.net netName = some cfg ∧ running.entities.nets netName = some x ∧
          running'.entities = (running.replace x (update cfg) newCfg
            (named reg running.entities.nets (update cfg))).entities) := by
  have hdone := updateDone reg json running netName update
  subst h
  revert hdone
  generalize updateNet reg json (some running) netName update = result
  intro hdone
  cases hdone with
  | unread | missing | unbuilt => exact ⟨running, rfl, .inl rfl⟩
  | unwritten hread hstored hrunning hbuilt | written hread hstored hrunning hbuilt =>
      cases buildNet_updateGetter hbuilt
      exact ⟨_, rfl, .inr ⟨_, _, _, _, hread, hstored, hrunning, rfl⟩⟩

/-- After a replacement the `RunningNet` refers to the new references, and all others
to what they referred to. -/
theorem redirects_replace (running : Running Text) {x : ℕ}
    (hx : x < running.entities.running.length) (given cfg : Entry) (refs : List ℕ) :
    Redirects (Refers running.entities.running)
      (Refers (running.replace x given cfg refs).entities.running) x (· ∈ refs) where
  here := by
    intro y
    unfold Refers Running.replace
    simp [hx]
  elsewhere := by
    intro z y hz
    unfold Refers Running.replace
    simp [Ne.symm hz]

/-- The table holds nets that exist, and nets refer to nets that exist. -/
structure Entities.Valid (entities : Entities) : Prop where
  table : ∀ name x, entities.nets name = some x → x < entities.running.length
  closed : Closed entities.running

theorem mem_named {nets : String → Option ℕ} {cfg : Entry} {y : ℕ}
    (hy : y ∈ named reg nets cfg) : ∃ name, nets name = some y := by
  unfold named at hy
  split at hy
  · cases hy
  · split at hy
    · cases hy
    · obtain ⟨ref, _, href⟩ := List.mem_filterMap.mp hy
      obtain ⟨name, _, hname⟩ := Option.bind_eq_some_iff.mp href
      exact ⟨name, hname⟩

theorem Entities.Valid.replace {running : Running Text} (h : running.entities.Valid)
    {x : ℕ} (hx : x < running.entities.running.length) {given cfg : Entry} {refs : List ℕ}
    (hrefs : ∀ y ∈ refs, y < running.entities.running.length) :
    (running.replace x given cfg refs).entities.Valid := by
  have hlength : (running.replace x given cfg refs).entities.running.length =
      running.entities.running.length := by
    simp [Running.replace]
  refine ⟨?_, ?_⟩
  · rw [hlength]
    exact h.table
  · intro z y hzy
    rw [hlength]
    have hredirect := redirects_replace running hx given cfg refs
    by_cases hz : z = x
    · subst hz
      exact hrefs y ((hredirect.here y).mp hzy)
    · exact h.closed z y ((hredirect.elsewhere z y hz).mp hzy)

/-- What `start` builds is valid, and refers to older nets only. -/
theorem buildEntities_valid {fuel : ℕ} {config config' : Config} {entities : Entities}
    (h : buildEntities reg fuel config = .ok (entities, config')) :
    entities.Valid ∧ Acyclic (Refers entities.running) := by
  obtain ⟨st, hload, hnets, hrunning, _⟩ := buildEntities_ok.mp h
  have hlinked := (loadServers_linked (Context.linked_initial reg config.net) hload).1
  have hdescends : ∀ x y, Refers entities.running x y → y < x := by
    rintro x y ⟨net, hnet, hy⟩
    rw [hrunning] at hnet
    obtain ⟨_, _, hrefs⟩ := hlinked.wired x net hnet
    obtain ⟨_, _, hlt, _⟩ := exists_of_mem_right hrefs hy
    exact hlt
  refine ⟨⟨?_, ?_⟩, acyclic_of_rank id hdescends⟩
  · rw [hnets, hrunning]
    intro name x hx
    exact (hlinked.cached name x hx).lt
  · intro x y hxy
    have := hdescends x y hxy
    obtain ⟨net, hnet, _⟩ := hxy
    have hx : x < entities.running.length := (List.getElem?_eq_some_iff.mp hnet).1
    omega

/-- **What an action can leave running**: what was running, what a config has been
built into, or what was running with one net replaced. -/
theorem act_cases {state : Option (Running Text)} {action : Action}
    {running' : Running Text} (h : act reg json state action = some (some running')) :
    (∃ running, state = some running ∧ running'.entities = running.entities) ∨
      (∃ fuel config config',
        buildEntities reg fuel config = .ok (running'.entities, config')) ∨
      ∃ running netName update config cfg newCfg x, state = some running ∧
        action = .update netName update ∧ json.fromStr running.str = .ok config ∧
        config.net netName = some cfg ∧ running.entities.nets netName = some x ∧
        running'.entities = (running.replace x (update cfg) newCfg
          (named reg running.entities.nets (update cfg))).entities := by
  cases action with
  | start fuel config =>
      rw [act] at h
      rcases hbuild : buildEntities reg fuel config with e | ⟨entities, config'⟩
      · rw [hbuild] at h
        cases h
        exact .inl ⟨running', rfl, rfl⟩
      · rw [hbuild] at h
        dsimp only at h
        rcases htext : json.toStr config' with e | str
        · rw [htext] at h
          cases h
        · rw [htext] at h
          cases h
          exact .inr (.inl ⟨fuel, config, config', hbuild⟩)
  | stop => cases h
  | update netName update =>
      cases state with
      | none => cases h
      | some running =>
          obtain ⟨after, hafter, hcases⟩ := updateNet_cases (Option.some.inj h)
          cases hafter
          rcases hcases with hsame | ⟨config, cfg, newCfg, x, hread, hcfg, hx, hnew⟩
          · exact .inl ⟨running, rfl, hsame⟩
          · exact .inr (.inr ⟨running, netName, update, config, cfg, newCfg, x, rfl, rfl,
              hread, hcfg, hx, hnew⟩)

/-- The references of a replacement are to nets that exist. -/
theorem Entities.Valid.named {entities : Entities} (h : entities.Valid) {cfg : Entry} :
    ∀ y ∈ named reg entities.nets cfg, y < entities.running.length := by
  intro y hy
  obtain ⟨name, hname⟩ := mem_named hy
  exact h.table name y hname

/-- Every action leaves valid entities. -/
theorem act_valid {state : Option (Running Text)} {action : Action}
    {running' : Running Text} (hstate : ∀ running, state = some running →
      running.entities.Valid) (h : act reg json state action = some (some running')) :
    running'.entities.Valid := by
  rcases act_cases h with ⟨running, hs, hsame⟩ | ⟨_, _, _, hbuild⟩ |
    ⟨running, _, update, _, cfg, _, x, hs, _, _, _, hx, hnew⟩
  · rw [hsame]
    exact hstate running hs
  · exact (buildEntities_valid hbuild).1
  · have hvalid := hstate running hs
    rw [hnew]
    exact hvalid.replace (hvalid.table _ x hx) hvalid.named

/-- Every harmless action leaves the nets without a cycle. -/
theorem act_acyclic {state : Option (Running Text)} {action : Action}
    {running' : Running Text} (hstate : ∀ running, state = some running →
      running.entities.Valid ∧ Acyclic (Refers running.entities.running))
    (hharmless : Harmless reg json state action)
    (h : act reg json state action = some (some running')) :
    Acyclic (Refers running'.entities.running) := by
  rcases act_cases h with ⟨running, hs, hsame⟩ | ⟨_, _, _, hbuild⟩ |
    ⟨running, netName, update, config, cfg, newCfg, x, hs, rfl, hread, hcfg, hx, hnew⟩
  · rw [hsame]
    exact (hstate running hs).2
  · exact (buildEntities_valid hbuild).2
  · obtain ⟨hvalid, hacyclic⟩ := hstate running hs
    rw [hnew]
    refine ((redirects_replace running (hvalid.table _ x hx) _ _ _).acyclic_iff hacyclic).mpr ?_
    exact hharmless running config cfg x hs hread hcfg hx

/-- As long as all actions are harmless, what is running is valid and has no cycle. -/
theorem reach_acyclic {state : Option (Running Text)}
    (reach : (digger reg json).Reach (Harmless reg json) state) :
    ∀ running, state = some running →
      running.entities.Valid ∧ Acyclic (Refers running.entities.running) := by
  induction reach with
  | init =>
      intro running h
      cases h
  | step _ hharmless hstep ih =>
      rintro running rfl
      exact ⟨act_valid (fun running hs => (ih running hs).1) hstep,
        act_acyclic ih hharmless hstep⟩

/-- An update that changes a net keeps an acyclic table acyclic exactly when it is
harmless. -/
theorem acyclic_update_iff {running running' : Running Text}
    (hvalid : running.entities.Valid) (hacyclic : Acyclic (Refers running.entities.running))
    {netName : String} {update : Entry → Entry}
    (h : (updateNet reg json (some running) netName update).1 = some running')
    (hchanged : running'.entities.running ≠ running.entities.running) :
    Acyclic (Refers running'.entities.running) ↔
      Harmless reg json (some running) (.update netName update) := by
  obtain ⟨after, hafter, hcases⟩ := updateNet_cases h
  cases hafter
  rcases hcases with hsame | ⟨config, cfg, newCfg, x, hread, hcfg, hx, hnew⟩
  · exact absurd (congrArg Entities.running hsame) hchanged
  · rw [hnew, (redirects_replace running (hvalid.table _ x hx) _ _ _).acyclic_iff hacyclic]
    constructor
    · intro hnone running₁ config₁ cfg₁ x₁ hs hread₁ hcfg₁ hx₁
      cases hs
      rw [hread] at hread₁
      cases hread₁
      rw [hcfg] at hcfg₁
      cases hcfg₁
      rw [hx] at hx₁
      cases hx₁
      exact hnone
    · intro hharmless
      exact hharmless running config cfg x rfl hread hcfg hx

end Update

/-- **Delegated calls end.**  In every state that is reached by harmless actions the
nets refer to each other without a cycle, and a call that is passed on by any rule is
served after at most as many hops as there are nets.  The condition is exact: from such
a state, an update that changes a net leaves a cycle if it is not harmless. -/
theorem delegation_ends {reg : Registry} {json : Json Text} {running : Running Text}
    (reach : (digger reg json).Reach (Harmless reg json) (some running)) :
    Acyclic (Refers running.entities.running) ∧
      (∀ choose : Built → Option ℕ, (∀ net y, choose net = some y → y ∈ net.refs) →
        ∀ x < running.entities.running.length, ∃ leaf net,
          delegate choose running.entities.running running.entities.running.length x =
              some leaf ∧
            running.entities.running[leaf]? = some net ∧ choose net = none) ∧
      ∀ netName update running',
        (updateNet reg json (some running) netName update).1 = some running' →
        running'.entities.running ≠ running.entities.running →
        (Acyclic (Refers running'.entities.running) ↔
          Harmless reg json (some running) (.update netName update)) := by
  obtain ⟨hvalid, hacyclic⟩ := reach_acyclic reach running rfl
  refine ⟨hacyclic, ?_, ?_⟩
  · intro choose hchoose x hx
    exact delegate_of_acyclic hchoose hvalid.closed hacyclic hx
  · intro netName update running' h hchanged
    exact acyclic_update_iff hvalid hacyclic h hchanged

/-! ## A net that is made an alias of itself -/

/-- The keys that an entry keeps for itself. -/
def Entry.ownKeys : List String := "type" :: "metadata" :: reservedKeys

/-- What the options of an entry add to the text of it. -/
def Entry.flattened (entry : Entry) : List (String × Value) :=
  match entry.opt with
  | .object fields => fields
  | _ => []

/-- An entry as it is read: what is not its own goes into the options. -/
def Entry.reread (entry : Entry) : Entry where
  type := entry.type
  opt := .object (entry.flattened.filter fun field => field.1 ∉ Entry.ownKeys)

/-- A config as it is read. -/
def Config.reread (config : Config) : Config where
  net name := (config.net name).map Entry.reread
  server := config.server.map fun server => (server.1, server.2.reread)

/-- A serialization that writes everything, and reads entries as serde does. -/
def Json.ideal : Json Config := ⟨fun config => .ok config.reread, .ok⟩

/-- The options are a map without the keys of the entry itself. -/
def Entry.Plain (entry : Entry) : Prop :=
  ∃ fields, entry.opt = .object fields ∧ ∀ field ∈ fields, field.1 ∉ Entry.ownKeys

/-- A condition on all entries. -/
structure Config.All (P : Entry → Prop) (config : Config) : Prop where
  net : ∀ name entry, config.net name = some entry → P entry
  server : ∀ server ∈ config.server, P server.2

/-- What is read is plain, -/
theorem Entry.reread_plain (entry : Entry) : entry.reread.Plain :=
  ⟨_, rfl, fun _ hmem => of_decide_eq_true (List.mem_filter.mp hmem).2⟩

/-- and what is plain is read as it is. -/
theorem Entry.Plain.reread {entry : Entry} (h : entry.Plain) : entry.reread = entry := by
  obtain ⟨type, opt⟩ := entry
  obtain ⟨fields, hopt, hkeys⟩ := h
  cases hopt
  have hfilter : fields.filter (fun field => field.1 ∉ Entry.ownKeys) = fields :=
    List.filter_eq_self.mpr fun field hmem => decide_eq_true (hkeys field hmem)
  exact congrArg (fun fields => Entry.mk type (.object fields)) hfilter

theorem Config.reread_plain (config : Config) : config.reread.All Entry.Plain := by
  refine ⟨fun name entry h => ?_, fun server hmem => ?_⟩
  · obtain ⟨entry, -, rfl⟩ := Option.map_eq_some_iff.mp h
    exact entry.reread_plain
  · obtain ⟨server, -, rfl⟩ := List.mem_map.mp hmem
    exact server.2.reread_plain

theorem Config.reread_of_plain {config : Config} (h : config.All Entry.Plain) :
    config.reread = config := by
  obtain ⟨net, server⟩ := config
  have hnet : (fun name => (net name).map Entry.reread) = net := by
    funext name
    exact (Option.map_congr fun entry hentry => (h.net name entry hentry).reread).trans
      (congrFun Option.map_id (net name))
  have hserver : server.map (fun server => (server.1, server.2.reread)) = server := by
    refine (List.map_congr_left fun server hmem => ?_).trans (List.map_id server)
    rw [(h.server server hmem).reread]
    rfl
  exact congrArg₂ Config.mk hnet hserver

/-- An entry that meets the condition too can be put in. -/
theorem Config.All.update {P : Entry → Prop} {config : Config} (h : config.All P) (name : String)
    {entry : Entry} (hentry : P entry) :
    Config.All P { config with net := Function.update config.net name (some entry) } := by
  refine ⟨fun other entry' h' => ?_, h.server⟩
  change Function.update config.net name (some entry) other = some entry' at h'
  by_cases hname : other = name
  · subst hname
    rw [Function.update_self] at h'
    cases h'
    exact hentry
  · rw [Function.update_of_ne hname] at h'
    exact h.net other entry' h'

/-- One alias, used by an echo server. -/
def aliasConfig : Config where
  net name :=
    if name = "proxy" then some ⟨"alias", .object [("net", .string "noop")]⟩ else none
  server := [("echo", ⟨"echo", .object
    [("bind", .string "127.0.0.1:7"), ("listen", .string "proxy")]⟩)]

/-- An update that makes a net an alias. -/
def aliasTo (name : String) (_ : Entry) : Entry :=
  ⟨"alias", .object [("net", .string name)]⟩

/-- What is running after a net has been made an alias of itself. -/
def selfAlias : List Action := [.start 3 aliasConfig, .update "proxy" (aliasTo "proxy")]

/-- A net whose only reference is to itself serves no call. -/
theorem delegate_self {running : List Built} {x : ℕ} {net : Built}
    (hnet : running[x]? = some net) (hrefs : net.refs = [x]) (hops : ℕ) :
    delegate (fun net => net.refs.head?) running hops x = none := by
  induction hops with
  | zero => rfl
  | succ hops ih =>
      rw [delegate, hnet]
      dsimp only
      rw [hrefs]
      exact ih

/-- A net can be made an alias of itself, and a call to it then goes round in
circles. -/
theorem alias_of_itself :
    ∃ running : Running Config,
      (digger stdRegistry Json.ideal).Reachable (some running) ∧
        ¬ Acyclic (Refers running.entities.running) ∧
        running.entities.nets "proxy" = some 1 ∧
        ∀ hops, delegate (fun net => net.refs.head?) running.entities.running hops 1 =
          none := by
  obtain ⟨running, hrun, htable, net, hnet, hrefs⟩ :
      ∃ running, (digger stdRegistry Json.ideal).run selfAlias = some (some running) ∧
        running.entities.nets "proxy" = some 1 ∧
        ∃ net, running.entities.running[1]? = some net ∧ net.refs = [1] :=
    ⟨_, rfl, rfl, _, rfl, rfl⟩
  refine ⟨running, System.reachable_of_run _ selfAlias hrun, ?_, htable,
    delegate_self hnet hrefs⟩
  intro hacyclic
  exact hacyclic 1 (.single ⟨net, hnet, by simp [hrefs]⟩)

/-- A net without references leads nowhere else. -/
theorem not_reaches_of_leaf {running : List Built} {x y : ℕ} {net : Built}
    (hnet : running[y]? = some net) (hrefs : net.refs = []) (hne : y ≠ x) :
    ¬ ReflTransGen (Refers running) y x := by
  intro hpath
  rcases hpath.cases_head with heq | ⟨z, ⟨net', hnet', hz⟩, _⟩
  · exact hne heq
  · rw [hnet] at hnet'
    cases hnet'
    rw [hrefs] at hz
    cases hz

/-- Making the alias an alias of "noop" once more is harmless, and calls to it still
end. -/
theorem delegation_ends_alias_of_noop :
    ∃ running : Running Config,
      (digger stdRegistry Json.ideal).Reach (Harmless stdRegistry Json.ideal)
          (some running) ∧
        Acyclic (Refers running.entities.running) ∧
        running.entities.nets "proxy" = some 1 ∧
        delegate (fun net => net.refs.head?) running.entities.running 2 1 = some 0 := by
  obtain ⟨before, after, hstart, hupdate, hbefore, hnoop, hleaf, hafter, hserved⟩ :
      ∃ before after, act stdRegistry Json.ideal none (.start 3 aliasConfig) =
          some (some before) ∧
        act stdRegistry Json.ideal (some before) (.update "proxy" (aliasTo "noop")) =
          some (some after) ∧
        before.entities.nets "proxy" = some 1 ∧ before.entities.nets "noop" = some 0 ∧
        (∃ net, before.entities.running[0]? = some net ∧ net.refs = []) ∧
        after.entities.nets "proxy" = some 1 ∧
        delegate (fun net => net.refs.head?) after.entities.running 2 1 = some 0 :=
    ⟨_, _, rfl, rfl, rfl, rfl, ⟨_, rfl, rfl⟩, rfl, rfl⟩
  obtain ⟨net, hnet, hrefs⟩ := hleaf
  have hharmless : Harmless stdRegistry Json.ideal (some before)
      (.update "proxy" (aliasTo "noop")) := by
    intro running config cfg x hs _ _ hx y hy
    cases hs
    rw [hbefore] at hx
    cases hx
    have hmem : y ∈ [before.entities.nets "noop"].filterMap id := hy
    rw [hnoop] at hmem
    cases List.mem_singleton.mp hmem
    exact not_reaches_of_leaf hnet hrefs (by decide)
  have hreach : (digger stdRegistry Json.ideal).Reach (Harmless stdRegistry Json.ideal)
      (some after) :=
    .step (.step (e := .start 3 aliasConfig) .init trivial hstart) hharmless hupdate
  exact ⟨after, hreach, (delegation_ends hreach).1, hafter, hserved⟩

end RabbitDigger.Build
