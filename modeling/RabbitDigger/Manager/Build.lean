import Mathlib.Data.List.Forall2
import Mathlib.Logic.Function.Basic
import RabbitDigger.Interface.Basic

/-!
# Building nets and servers from a config

`src/rabbit_digger.rs`: `Registry::build_entities` builds the servers of a config and,
from their references, the nets.  `rd-interface/src/registry.rs`: `build_dyn` reads a
configuration, hands every `NetRef` in it to a getter and writes back what became of
the configuration.

A reference is a **name**, or a net configuration **inline**.  `BuildContext::get_net`
stores an inline configuration under a name generated from the place of the
reference, replaces the reference by that name, and goes on as for any name: it asks
the cache, or else takes the entry out of the config, leaving a placeholder behind,
builds it with itself as the getter, puts what is left of the entry back and caches
the net.

`RunningNet`s are shared by reference.  They are numbered here in the order in which
they are made (`Context.nets`), and everything that holds one holds its number.
-/

namespace RabbitDigger.Build

/-- What a call ends with if it does not succeed: an error, a failed `expect`, or a
recursion deeper than the model was told to follow. -/
inductive Failure where
  | error (error : Error)
  | panicked
  | outOfFuel
deriving Repr, DecidableEq

/-- `ErrorContext::context`. -/
def Failure.context (text : String) : Failure → Failure
  | .error e => .error (.withContext text e)
  | failure => failure

/-- An entry of a config, `config::Net` or `config::Server`: its type, and the options
its builder reads. -/
structure Entry where
  type : String
  opt : Value

/-- `ConfigNet`. -/
abbrev ConfigNet := String → Option Entry

/-- `config::Config`. -/
structure Config where
  net : ConfigNet
  server : List (String × Entry)

/-- A `NetRef` inside a configuration: the path under which the visitor meets it, and
what represents it. -/
structure NetRef where
  path : List String
  represent : Value

/-- A value of the configuration type of a builder: its `NetRef`s in the order in
which they are visited, and all the rest. -/
structure Options where
  rest : Value
  refs : List NetRef

/-- `Builder`, for nets and for servers: how its configuration type is read and
written by serde, and whether it builds. -/
structure Builder where
  fromValue : Value → Except Error Options
  toValue : Options → Except Error Value
  build : Options → Except Error Unit

/-- `Registry`: the builders, by type name. -/
structure Registry where
  net : String → Option Builder
  server : String → Option Builder

/-- A net or a server that has been built: its name, the configuration its builder was
given and what the builder has made of it, and the `RunningNet`s its references were
resolved to. -/
structure Built where
  name : String
  given : Entry
  cfg : Entry
  refs : List ℕ

/-- `BuildContext`: the nets of the config, the cache, and the `RunningNet`s made. -/
structure Context where
  config : ConfigNet
  netCache : String → Option ℕ
  nets : List Built

/-! ## `build_dyn` -/

section BuildDyn

variable {σ : Type}

/-- `NetGetter`: what a reference becomes, and the net it stands for. -/
abbrev Getter (σ : Type) := NetRef → σ → Except Failure ((Value × ℕ) × σ)

/-- `resolve_net`: hand every reference to the getter. -/
def resolveNet (getter : Getter σ) : List NetRef → σ → Except Failure (List (Value × ℕ) × σ)
  | [], st => .ok ([], st)
  | ref :: refs, st => do
      let (out, st) ← getter ref st
      let (outs, st) ← resolveNet getter refs st
      pure (out :: outs, st)

/-- The options after `resolve_net`: every reference is represented by what the getter
has made of it. -/
def Options.resolved (config : Options) (outs : List (Value × ℕ)) : Options :=
  { config with
    refs := List.zipWith (fun ref out => { ref with represent := out.1 }) config.refs outs }

/-- `build_dyn`: the options that are left, and the nets referred to. -/
def buildDyn (builder : Builder) (getter : Getter σ) (cfg : Value) (st : σ) :
    Except Failure ((Value × List ℕ) × σ) := do
  let config ← (builder.fromValue cfg).mapError .error
  let (outs, st) ← resolveNet getter config.refs st
  let cfg ← (builder.toValue (config.resolved outs)).mapError .error
  (builder.build (config.resolved outs)).mapError .error
  pure ((cfg, outs.map Prod.snd), st)

/-- `Registry::get_net`. -/
def Registry.getNet (reg : Registry) (type : String) : Except Failure Builder :=
  match reg.net type with
  | some builder => .ok builder
  | none => .error (.error (.other ("Net type is not loaded: " ++ type)))

/-- `Registry::get_server`. -/
def Registry.getServer (reg : Registry) (type : String) : Except Failure Builder :=
  match reg.server type with
  | some builder => .ok builder
  | none => .error (.error (.other ("Server type is not loaded: " ++ type)))

/-- `Item::build`, and the context that `build_net` and `build_server` add. -/
def buildItem (kind name : String) (builder : Builder) (i : Entry) (getter : Getter σ)
    (st : σ) : Except Failure ((Entry × List ℕ) × σ) := do
  let ((opt, refs), st) ←
    ((buildDyn builder getter i.opt st).mapError
      (Failure.context ("Failed to build " ++ kind ++ ": " ++ i.type))).mapError
      (Failure.context
        ("Failed to build " ++ kind ++ " " ++ name.quote ++ ". Please check your config."))
  pure (({ i with opt }, refs), st)

/-- `Registry::build_net`. -/
def Registry.buildNet (reg : Registry) (name : String) (i : Entry) (getter : Getter σ)
    (st : σ) : Except Failure ((Entry × List ℕ) × σ) := do
  let builder ← reg.getNet i.type
  buildItem "net" name builder i getter st

/-- `Registry::build_server`. -/
def Registry.buildServer (reg : Registry) (name : String) (i : Entry) (getter : Getter σ)
    (st : σ) : Except Failure ((Entry × List ℕ) × σ) := do
  let builder ← reg.getServer i.type
  buildItem "server" name builder i getter st

end BuildDyn

/-! ## `get_net` -/

/-- The keys of a net configuration that are not options: those of `Reserved`, which
must be booleans. -/
def reservedKeys : List String := ["async", "await", "as", "break", "const", "name"]

/-- `NetMetadata` is a boolean, in an object or in an array. -/
def isMetadata : Value → Bool
  | .null | .array [.bool _] => true
  | .object fields =>
      match fields.lookup "reset_on_change" with
      | some (.bool _) => true
      | _ => false
  | _ => false

/-- Whether a field that is not an option is well formed. -/
def wellFormedField : String × Value → Bool
  | (key, .bool _) => key != "metadata"
  | (key, value) => !reservedKeys.contains key && (key != "metadata" || isMetadata value)

/-- `Deserialize for config::Net`: the type, and as options all fields that are not
fields of the struct.  The texts of serde's errors are abbreviated. -/
def Entry.fromValue : Value → Except Error Entry
  | .object fields =>
      if fields.all wellFormedField then
        match fields.lookup "type" with
        | some (.string type) =>
            .ok ⟨type, .object (fields.filter fun field =>
              !(field.1 == "type" || field.1 == "metadata" || reservedKeys.contains field.1))⟩
        | some _ => .error (.config "invalid type")
        | none => .error (.config "missing field")
      else .error (.config "invalid type")
  | _ => .error (.config "invalid type")

/-- What is left in the config while a net is being built. -/
def placeholder : Entry := ⟨"circular reference", .null⟩

/-- The name generated for an inline net. -/
def generatedName (pre path : List String) : String := String.intercalate "/" (pre ++ path)

/-- The name a reference is resolved under.  An inline net is inserted into the
config first. -/
def Context.nameOf (pre : List String) (ref : NetRef) (st : Context) :
    Except Failure (String × Context) :=
  match ref.represent with
  | .string name => .ok (name, st)
  | netCfg => do
      let entry ← (Entry.fromValue netCfg).mapError .error
      let name := generatedName pre ref.path
      pure (name, { st with config := Function.update st.config name (some entry) })

/-- Take an entry out of the config and leave the placeholder. -/
def Context.hide (st : Context) (name : String) : Context :=
  { st with config := Function.update st.config name (some placeholder) }

/-- Put what is left of an entry back, and cache the net that was built from it. -/
def Context.store (st : Context) (net : Built) : Context :=
  { config := Function.update st.config net.name (some net.cfg)
    netCache := Function.update st.netCache net.name (some st.nets.length)
    nets := st.nets ++ [net] }

/-- `BuildContext::get_net`.  The fuel bounds the depth of the recursion. -/
def getNet (reg : Registry) : ℕ → List String → Getter Context
  | 0, _ => fun _ _ => .error .outOfFuel
  | fuel + 1, pre => fun ref st => do
      let (name, st) ← st.nameOf pre ref
      match st.netCache name with
      | some net => pure ((.string name, net), st)
      | none =>
          match st.config name with
          | none =>
              .error (.error (.notFound ("Failed to find net in config file: " ++ name)))
          | some cfg => do
              let ((cfg', refs), st) ←
                reg.buildNet name cfg (getNet reg fuel ["net", name]) (st.hide name)
              match st.config name with
              | none => .error .panicked
              | some _ =>
                  pure ((.string name, st.nets.length), st.store ⟨name, cfg, cfg', refs⟩)

/-! ## `build_entities` -/

/-- `LocalNetConfig::default`, serialized. -/
def defaultLocal : Value :=
  .object [("ttl", .null), ("nodelay", .null), ("mark", .null), ("bind_device", .null),
    ("bind_addr", .null), ("connect_timeout", .null), ("tcp_keepalive", .null),
    ("recv_buffer_size", .null), ("send_buffer_size", .null), ("lookup_host", .null)]

/-- The nets that every config has. -/
def defaultNets : List (String × Entry) :=
  [("noop", ⟨"noop", .null⟩), ("blackhole", ⟨"blackhole", .null⟩),
    ("local", ⟨"local", defaultLocal⟩)]

/-- `if !net.contains_key(..) { net.insert(..) }`. -/
def insertMissing (net : ConfigNet) (entry : String × Entry) : ConfigNet :=
  if (net entry.1).isNone then Function.update net entry.1 (some entry.2) else net

/-- `init_default_net`. -/
def initDefaultNet (net : ConfigNet) : ConfigNet := defaultNets.foldl insertMissing net

/-- `BuildContext::get_server_net`. -/
def getServerNet (reg : Registry) (fuel : ℕ) (server : String) : Getter Context :=
  getNet reg fuel ["server", server]

/-- The loop over the servers. -/
def loadServers (reg : Registry) (fuel : ℕ) :
    List (String × Entry) → Context → Except Failure (List Built × Context)
  | [], st => .ok ([], st)
  | (name, i) :: rest, st => do
      let ((cfg, refs), st) ←
        (reg.buildServer name i (getServerNet reg fuel name) st).mapError
          (Failure.context ("Loading server " ++ name))
      let (servers, st) ← loadServers reg fuel rest st
      pure (⟨name, i, cfg, refs⟩ :: servers, st)

/-- `RunningEntities`: the `RunningNet`s by name, and the servers.  `running` lists
all `RunningNet`s that have been made. -/
structure Entities where
  nets : String → Option ℕ
  servers : List Built
  running : List Built

/-- The context that `build_entities` starts from. -/
def Context.initial (net : ConfigNet) : Context :=
  { config := initDefaultNet net
    netCache := fun _ => none
    nets := [] }

/-- `Registry::build_entities`: the entities, and what has become of the config. -/
def buildEntities (reg : Registry) (fuel : ℕ) (config : Config) :
    Except Failure (Entities × Config) := do
  let (servers, st) ← loadServers reg fuel config.server (Context.initial config.net)
  pure (⟨st.netCache, servers, st.nets⟩,
    ⟨st.config, servers.map fun server => (server.name, server.cfg)⟩)

/-! ## Some builders of the standard plugins -/

/-- `NoopNet` and `BlackholeNet`, whose configuration is `EmptyConfig`. -/
def emptyConfig : Builder where
  fromValue cfg := .ok ⟨cfg, []⟩
  toValue config := .ok config.rest
  build _ := .ok ()

/-- `AliasNet`, whose configuration is one reference. -/
def aliasNet : Builder where
  fromValue
    | .object fields =>
        match fields.lookup "net" with
        | some net => .ok ⟨.null, [⟨["net"], net⟩]⟩
        | none => .error (.config "missing field")
    | _ => .error (.config "invalid type")
  toValue config := .ok (.object (config.refs.map fun ref => ("net", ref.represent)))
  build _ := .ok ()

/-- `EchoServer`: an address, and a reference that is "local" by default. -/
def echoServer : Builder where
  fromValue
    | .object fields =>
        match fields.lookup "bind" with
        | some bind =>
            .ok ⟨bind, [⟨["listen"], (fields.lookup "listen").getD (.string "local")⟩]⟩
        | none => .error (.config "missing field")
    | _ => .error (.config "invalid type")
  toValue config :=
    .ok (.object (("bind", config.rest) ::
      config.refs.map fun ref => ("listen", ref.represent)))
  build _ := .ok ()

/-- A registry with these builders. -/
def stdRegistry : Registry where
  net type :=
    if type = "alias" then some aliasNet
    else if type = "noop" || type = "blackhole" then some emptyConfig
    else none
  server type := if type = "echo" then some echoServer else none

/-! ## What a successful call has done -/

theorem mapError_ok {α ε ε' : Type} {x : Except ε α} {f : ε → ε'} {a : α} :
    x.mapError f = .ok a ↔ x = .ok a := by
  cases x <;> simp [Except.mapError]

theorem exists_of_mem_right {α β : Type} {R : α → β → Prop} {as : List α} {bs : List β}
    (h : List.Forall₂ R as bs) {b : β} (hb : b ∈ bs) : ∃ a ∈ as, R a b := by
  induction h with
  | nil => cases hb
  | cons hab _ ih =>
      rcases List.mem_cons.mp hb with rfl | hb
      · exact ⟨_, by simp, hab⟩
      · obtain ⟨a, ha, hR⟩ := ih hb
        exact ⟨a, by simp [ha], hR⟩

theorem exists_of_getElem?_left {α β : Type} {R : α → β → Prop} {as : List α}
    {bs : List β} (h : List.Forall₂ R as bs) {i : ℕ} {a : α} (ha : as[i]? = some a) :
    ∃ b, bs[i]? = some b ∧ R a b := by
  induction h generalizing i with
  | nil => cases ha
  | cons hab _ ih =>
      cases i with
      | zero =>
          cases ha
          exact ⟨_, rfl, hab⟩
      | succ i => exact ih ha

section BuildDyn

variable {σ : Type} {getter : Getter σ} {st st' : σ}

/-- **Resolving.**  The getter keeps an invariant that may count the references, moves
the state along a preorder, and does for each reference something that stays done; then
`resolve_net` does it for all of them. -/
theorem resolveNet_rule (Inv : ℕ → σ → Prop) (After : σ → σ → Prop)
    (Done : NetRef → Value × ℕ → σ → Prop) (refl : ∀ st, After st st)
    (trans : ∀ st₁ st₂ st₃, After st₁ st₂ → After st₂ st₃ → After st₁ st₃)
    (stays : ∀ ref out st st', Done ref out st → After st st' → Done ref out st')
    (refs : List NetRef)
    (step : ∀ i ref, refs[i]? = some ref → ∀ st out st', Inv i st →
      getter ref st = .ok (out, st') → Inv (i + 1) st' ∧ After st st' ∧ Done ref out st')
    {outs : List (Value × ℕ)} (hst : Inv 0 st)
    (h : resolveNet getter refs st = .ok (outs, st')) :
    Inv refs.length st' ∧ After st st' ∧
      List.Forall₂ (fun ref out => Done ref out st') refs outs := by
  induction refs generalizing st outs Inv with
  | nil =>
      cases h
      exact ⟨hst, refl _, .nil⟩
  | cons ref refs ih =>
      obtain ⟨⟨out, st₁⟩, hfirst, h⟩ := bind_ok.mp h
      obtain ⟨⟨outs, st₂⟩, hrest, h⟩ := bind_ok.mp h
      cases h
      obtain ⟨hst₁, hafter₁, hdone⟩ := step 0 ref rfl st out st₁ hst hfirst
      obtain ⟨hst₂, hafter₂, hall⟩ := ih (fun i => Inv (i + 1))
        (fun i ref href => step (i + 1) ref (by simpa using href)) hst₁ hrest
      exact ⟨hst₂, trans _ _ _ hafter₁ hafter₂, .cons (stays _ _ _ _ hdone hafter₂) hall⟩

/-- `resolve_net` succeeds if the getter does, in every state that it leaves. -/
theorem resolveNet_succeeds (Inv : ℕ → σ → Prop) (refs : List NetRef)
    (step : ∀ i ref, refs[i]? = some ref → ∀ st, Inv i st →
      ∃ out st', getter ref st = .ok (out, st') ∧ Inv (i + 1) st') (hst : Inv 0 st) :
    ∃ outs st', resolveNet getter refs st = .ok (outs, st') := by
  induction refs generalizing st Inv with
  | nil => exact ⟨[], st, rfl⟩
  | cons ref refs ih =>
      obtain ⟨out, st₁, hfirst, hst₁⟩ := step 0 ref rfl st hst
      obtain ⟨outs, st₂, hrest⟩ := ih (fun i => Inv (i + 1))
        (fun i ref href => step (i + 1) ref (by simpa using href)) hst₁
      exact ⟨out :: outs, st₂, bind_ok.mpr ⟨_, hfirst, bind_ok.mpr ⟨_, hrest, rfl⟩⟩⟩

/-- What a successful `build_dyn` has gone through, behind its two contexts. -/
structure BuildsItem (builder : Builder) (getter : Getter σ) (i : Entry) (st : σ)
    (i' : Entry) (refs : List ℕ) (st' : σ) (config : Options)
    (outs : List (Value × ℕ)) : Prop where
  read : builder.fromValue i.opt = .ok config
  resolve : resolveNet getter config.refs st = .ok (outs, st')
  write : builder.toValue (config.resolved outs) = .ok i'.opt
  build : builder.build (config.resolved outs) = .ok ()
  type : i'.type = i.type
  refs : refs = outs.map Prod.snd

theorem buildItem_ok {kind name : String} {builder : Builder} {i i' : Entry}
    {refs : List ℕ} :
    buildItem kind name builder i getter st = .ok ((i', refs), st') ↔
      ∃ config outs, BuildsItem builder getter i st i' refs st' config outs := by
  constructor
  · intro h
    obtain ⟨⟨⟨opt, refs'⟩, st₁⟩, hdyn, h⟩ := bind_ok.mp h
    obtain ⟨config, hread, hdyn⟩ := bind_ok.mp (mapError_ok.mp (mapError_ok.mp hdyn))
    obtain ⟨⟨outs, st₂⟩, hresolve, hdyn⟩ := bind_ok.mp hdyn
    obtain ⟨opt', hwrite, hdyn⟩ := bind_ok.mp hdyn
    obtain ⟨⟨⟩, hbuild, hdyn⟩ := bind_ok.mp hdyn
    cases hdyn
    cases h
    exact ⟨config, outs, mapError_ok.mp hread, hresolve, mapError_ok.mp hwrite,
      mapError_ok.mp hbuild, rfl, rfl⟩
  · rintro ⟨config, outs, h⟩
    refine bind_ok.mpr ⟨((i'.opt, refs), st'), ?_, ?_⟩
    · refine mapError_ok.mpr (mapError_ok.mpr ?_)
      refine bind_ok.mpr ⟨config, mapError_ok.mpr h.read, ?_⟩
      refine bind_ok.mpr ⟨(outs, st'), h.resolve, ?_⟩
      refine bind_ok.mpr ⟨i'.opt, mapError_ok.mpr h.write, ?_⟩
      refine bind_ok.mpr ⟨(), mapError_ok.mpr h.build, ?_⟩
      rw [h.refs]
      rfl
    · have hi' : ({ i with opt := i'.opt } : Entry) = i' := by
        rw [← h.type]
      show Except.ok _ = Except.ok _
      rw [hi']

theorem Registry.getNet_ok {reg : Registry} {type : String} {builder : Builder} :
    reg.getNet type = .ok builder ↔ reg.net type = some builder := by
  unfold Registry.getNet
  split <;> simp_all

theorem Registry.getServer_ok {reg : Registry} {type : String} {builder : Builder} :
    reg.getServer type = .ok builder ↔ reg.server type = some builder := by
  unfold Registry.getServer
  split <;> simp_all

theorem Registry.buildNet_ok {reg : Registry} {name : String} {i i' : Entry}
    {refs : List ℕ} :
    reg.buildNet name i getter st = .ok ((i', refs), st') ↔
      ∃ builder config outs, reg.net i.type = some builder ∧
        BuildsItem builder getter i st i' refs st' config outs := by
  unfold Registry.buildNet
  simp only [bind_ok, Registry.getNet_ok, buildItem_ok, exists_and_left]

theorem Registry.buildServer_ok {reg : Registry} {name : String} {i i' : Entry}
    {refs : List ℕ} :
    reg.buildServer name i getter st = .ok ((i', refs), st') ↔
      ∃ builder config outs, reg.server i.type = some builder ∧
        BuildsItem builder getter i st i' refs st' config outs := by
  unfold Registry.buildServer
  simp only [bind_ok, Registry.getServer_ok, buildItem_ok, exists_and_left]

end BuildDyn

/-- How `get_net` finds the name of a reference. -/
theorem Context.nameOf_ok {pre : List String} {ref : NetRef} {st st₁ : Context}
    {name : String} :
    st.nameOf pre ref = .ok (name, st₁) ↔
      ref.represent = .string name ∧ st₁ = st ∨
        ref.represent.asStr = none ∧ name = generatedName pre ref.path ∧
          ∃ entry, Entry.fromValue ref.represent = .ok entry ∧
            st₁ = { st with config := Function.update st.config name (some entry) } := by
  unfold Context.nameOf
  rcases hrep : ref.represent with _ | _ | _ | _ | given | _ | _
  case string =>
    constructor
    · intro h
      cases h
      exact .inl ⟨rfl, rfl⟩
    · rintro (⟨heq, rfl⟩ | ⟨hnone, _⟩)
      · cases heq
        rfl
      · cases hnone
  all_goals
    rw [bind_ok]
    constructor
    · rintro ⟨entry, hentry, h⟩
      cases h
      exact .inr ⟨rfl, rfl, entry, mapError_ok.mp hentry, rfl⟩
    · rintro (⟨heq, _⟩ | ⟨_, rfl, entry, hentry, rfl⟩)
      · cases heq
      · exact ⟨entry, mapError_ok.mpr hentry, rfl⟩

/-- Finding the name only touches the config. -/
theorem Context.nameOf_frame {pre : List String} {ref : NetRef} {st st₁ : Context}
    {name : String} (h : st.nameOf pre ref = .ok (name, st₁)) :
    st₁.netCache = st.netCache ∧ st₁.nets = st.nets := by
  rcases Context.nameOf_ok.mp h with ⟨_, rfl⟩ | ⟨_, _, _, _, rfl⟩ <;> exact ⟨rfl, rfl⟩

/-- A successful `get_net`: the name was cached, or the entry of that name was built. -/
theorem getNet_ok {reg : Registry} {fuel : ℕ} {pre : List String} {ref : NetRef}
    {st st' : Context} {out : Value × ℕ} :
    getNet reg (fuel + 1) pre ref st = .ok (out, st') ↔
      ∃ name st₁, st.nameOf pre ref = .ok (name, st₁) ∧ out.1 = .string name ∧
        (st₁.netCache name = some out.2 ∧ st' = st₁ ∨
          st₁.netCache name = none ∧ ∃ net st₂, net.name = name ∧
            st₁.config name = some net.given ∧
            reg.buildNet name net.given (getNet reg fuel ["net", name]) (st₁.hide name) =
              .ok ((net.cfg, net.refs), st₂) ∧
            (st₂.config name).isSome ∧ out.2 = st₂.nets.length ∧ st' = st₂.store net) := by
  obtain ⟨represent, id⟩ := out
  rw [getNet, bind_ok]
  constructor
  · rintro ⟨⟨name, st₁⟩, hname, h⟩
    refine ⟨name, st₁, hname, ?_⟩
    dsimp only at h
    rcases hcache : st₁.netCache name with _ | net
    · rw [hcache] at h
      rcases hcfg : st₁.config name with _ | cfg
      · rw [hcfg] at h
        cases h
      · rw [hcfg] at h
        obtain ⟨⟨⟨cfg', refs⟩, st₂⟩, hbuild, h⟩ := bind_ok.mp h
        dsimp only at h
        rcases hstill : st₂.config name with _ | entry
        · rw [hstill] at h
          cases h
        · rw [hstill] at h
          cases h
          exact ⟨rfl, .inr ⟨rfl, ⟨name, cfg, cfg', refs⟩, st₂, rfl, rfl, hbuild,
            by simp [hstill], rfl, rfl⟩⟩
    · rw [hcache] at h
      cases h
      exact ⟨rfl, .inl ⟨rfl, rfl⟩⟩
  · rintro ⟨name, st₁, hname, hrep, h⟩
    refine ⟨(name, st₁), hname, ?_⟩
    dsimp only at hrep h ⊢
    subst hrep
    rcases h with ⟨hcache, rfl⟩ | ⟨hcache, net, st₂, hnet, hcfg, hbuild, hstill, rfl, rfl⟩
    · rw [hcache]
      rfl
    · rw [hcache, hcfg]
      refine bind_ok.mpr ⟨_, hbuild, ?_⟩
      obtain ⟨entry, hentry⟩ := Option.isSome_iff_exists.mp hstill
      dsimp only
      rw [hentry, ← hnet]
      rfl

/-- One turn of the loop over the servers. -/
theorem loadServers_cons_ok {reg : Registry} {fuel : ℕ} {name : String} {i : Entry}
    {rest : List (String × Entry)} {st st' : Context} {servers : List Built} :
    loadServers reg fuel ((name, i) :: rest) st = .ok (servers, st') ↔
      ∃ server tail st₁, servers = server :: tail ∧ server.name = name ∧
        server.given = i ∧
        reg.buildServer name i (getServerNet reg fuel name) st =
          .ok ((server.cfg, server.refs), st₁) ∧
        loadServers reg fuel rest st₁ = .ok (tail, st') := by
  rw [loadServers, bind_ok]
  constructor
  · rintro ⟨⟨⟨cfg, refs⟩, st₁⟩, hbuild, h⟩
    obtain ⟨⟨tail, st₂⟩, hrest, h⟩ := bind_ok.mp h
    cases h
    exact ⟨⟨name, i, cfg, refs⟩, tail, st₁, rfl, rfl, rfl, mapError_ok.mp hbuild, hrest⟩
  · rintro ⟨⟨_, _, cfg, refs⟩, tail, st₁, rfl, rfl, rfl, hbuild, hrest⟩
    exact ⟨((cfg, refs), st₁), mapError_ok.mpr hbuild, bind_ok.mpr ⟨(tail, st'), hrest, rfl⟩⟩

/-- A successful `build_entities`. -/
theorem buildEntities_ok {reg : Registry} {fuel : ℕ} {config config' : Config}
    {entities : Entities} :
    buildEntities reg fuel config = .ok (entities, config') ↔
      ∃ st, loadServers reg fuel config.server (Context.initial config.net) =
          .ok (entities.servers, st) ∧
        entities.nets = st.netCache ∧ entities.running = st.nets ∧
        config'.net = st.config ∧
        config'.server = entities.servers.map fun server => (server.name, server.cfg) := by
  unfold buildEntities
  rw [bind_ok]
  constructor
  · rintro ⟨⟨servers, st⟩, hload, h⟩
    cases h
    exact ⟨st, hload, rfl, rfl, rfl, rfl⟩
  · rintro ⟨st, hload, hnets, hrunning, hnet, hserver⟩
    refine ⟨(entities.servers, st), hload, ?_⟩
    show Except.ok _ = Except.ok _
    rw [← hnets, ← hrunning, ← hnet, ← hserver]

/-! ## The nets that have been built -/

/-- The options of a net configuration, if its type is known and reads them. -/
def Registry.netOptions (reg : Registry) (entry : Entry) : Option Options :=
  (reg.net entry.type).bind fun builder => (builder.fromValue entry.opt).toOption

/-- The options of a server configuration. -/
def Registry.serverOptions (reg : Registry) (entry : Entry) : Option Options :=
  (reg.server entry.type).bind fun builder => (builder.fromValue entry.opt).toOption

theorem toOption_eq_some {ε α : Type} {x : Except ε α} {a : α} :
    x.toOption = some a ↔ x = .ok a := by
  cases x <;> simp [Except.toOption]

theorem Registry.netOptions_eq_some {reg : Registry} {entry : Entry} {options : Options} :
    reg.netOptions entry = some options ↔ ∃ builder, reg.net entry.type = some builder ∧
      builder.fromValue entry.opt = .ok options := by
  unfold Registry.netOptions
  rw [Option.bind_eq_some_iff]
  simp only [toOption_eq_some]

theorem Registry.serverOptions_eq_some {reg : Registry} {entry : Entry}
    {options : Options} :
    reg.serverOptions entry = some options ↔ ∃ builder,
      reg.server entry.type = some builder ∧ builder.fromValue entry.opt = .ok options := by
  unfold Registry.serverOptions
  rw [Option.bind_eq_some_iff]
  simp only [toOption_eq_some]

/-- The name under which a reference is resolved. -/
def refName (pre : List String) (ref : NetRef) : String :=
  match ref.represent.asStr with
  | some name => name
  | none => generatedName pre ref.path

/-- `get_net` resolves a reference under its name. -/
theorem Context.nameOf_eq {pre : List String} {ref : NetRef} {st st₁ : Context}
    {name : String} (h : st.nameOf pre ref = .ok (name, st₁)) : name = refName pre ref := by
  unfold refName
  rcases Context.nameOf_ok.mp h with ⟨hrep, _⟩ | ⟨hrep, hname, _⟩
  · rw [hrep]
    rfl
  · rw [hrep]
    exact hname

/-- There is a net of that name under that number. -/
def IsNet (nets : List Built) (x : ℕ) (name : String) : Prop :=
  ∃ net, nets[x]? = some net ∧ net.name = name

theorem IsNet.lt {nets : List Built} {x : ℕ} {name : String} (h : IsNet nets x name) :
    x < nets.length := by
  obtain ⟨net, hnet, _⟩ := h
  exact (List.getElem?_eq_some_iff.mp hnet).1

theorem IsNet.mono {nets nets' : List Built} (hsub : nets <+: nets') {x : ℕ}
    {name : String} (h : IsNet nets x name) : IsNet nets' x name := by
  obtain ⟨more, rfl⟩ := hsub
  obtain ⟨net, hnet, hname⟩ := h
  refine ⟨net, ?_, hname⟩
  rw [List.getElem?_append_left (List.getElem?_eq_some_iff.mp hnet).1]
  exact hnet

/-- The references of a net are those of its configuration, each resolved to a net of
its name that was made before. -/
def WiredAt (reg : Registry) (nets : List Built) (x : ℕ) (net : Built) : Prop :=
  ∃ options, reg.netOptions net.given = some options ∧
    List.Forall₂ (fun ref y => y < x ∧ IsNet nets y (refName ["net", net.name] ref))
      options.refs net.refs

theorem WiredAt.mono {reg : Registry} {nets nets' : List Built} (hsub : nets <+: nets')
    {x : ℕ} {net : Built} (h : WiredAt reg nets x net) : WiredAt reg nets' x net := by
  obtain ⟨options, hoptions, hrefs⟩ := h
  exact ⟨options, hoptions, hrefs.imp fun _ _ hy => ⟨hy.1, hy.2.mono hsub⟩⟩

/-- **What `get_net` has built hangs together**: the cache knows nets by their names,
and every net refers to nets that were made before it. -/
structure Context.Linked (reg : Registry) (st : Context) : Prop where
  cached : ∀ name x, st.netCache name = some x → IsNet st.nets x name
  wired : ∀ x net, st.nets[x]? = some net → WiredAt reg st.nets x net

theorem Context.prefix_store (st : Context) (net : Built) :
    st.nets <+: (st.store net).nets := ⟨[net], rfl⟩

theorem Context.isNet_store (st : Context) (net : Built) :
    IsNet (st.store net).nets st.nets.length net.name :=
  ⟨net, by simp [Context.store], rfl⟩

/-- A net whose references have been made is stored in order. -/
theorem Context.Linked.store {reg : Registry} {st : Context} (hst : st.Linked reg)
    {net : Built} (hwired : WiredAt reg st.nets st.nets.length net) :
    (st.store net).Linked reg where
  cached := by
    intro name x hx
    by_cases hname : name = net.name
    · subst hname
      have hlast : st.nets.length = x := by simpa [Context.store] using hx
      subst hlast
      exact st.isNet_store net
    · have hold : st.netCache name = some x := by
        simpa [Context.store, Function.update_of_ne hname] using hx
      exact (hst.cached name x hold).mono (st.prefix_store net)
  wired := by
    intro x net' hx
    refine WiredAt.mono (st.prefix_store net) ?_
    rcases Nat.lt_trichotomy x st.nets.length with hlt | rfl | hgt
    · refine hst.wired x net' ?_
      rw [← hx]
      exact (List.getElem?_append_left hlt).symm
    · have hnew : net = net' := by simpa [Context.store] using hx
      exact hnew ▸ hwired
    · have hnone : (st.store net).nets[x]? = none :=
        List.getElem?_eq_none (by simp [Context.store]; omega)
      rw [hnone] at hx
      cases hx

/-- A getter that keeps things together, forgets no net and answers with the net of the
name of the reference. -/
def KeepsLinks (reg : Registry) (pre : List String) (getter : Getter Context) : Prop :=
  ∀ ref st out st', st.Linked reg → getter ref st = .ok (out, st') →
    st'.Linked reg ∧ st.nets <+: st'.nets ∧ out.1 = .string (refName pre ref) ∧
      IsNet st'.nets out.2 (refName pre ref)

/-- What `resolve_net` does with such a getter. -/
theorem KeepsLinks.buildsItem {reg : Registry} {pre : List String}
    {getter : Getter Context} (hgetter : KeepsLinks reg pre getter) {builder : Builder}
    {i i' : Entry} {st st' : Context} {refs : List ℕ} {config : Options}
    {outs : List (Value × ℕ)} (hst : st.Linked reg)
    (h : BuildsItem builder getter i st i' refs st' config outs) :
    st'.Linked reg ∧ st.nets <+: st'.nets ∧
      List.Forall₂ (fun ref out => out.1 = .string (refName pre ref) ∧
        IsNet st'.nets out.2 (refName pre ref)) config.refs outs :=
  resolveNet_rule (fun _ => Context.Linked reg) (fun st st' => st.nets <+: st'.nets)
    (fun ref out st => out.1 = .string (refName pre ref) ∧
      IsNet st.nets out.2 (refName pre ref))
    (fun _ => List.prefix_refl _) (fun _ _ _ => List.IsPrefix.trans)
    (fun _ _ _ _ hdone hsub => ⟨hdone.1, hdone.2.mono hsub⟩) config.refs
    (fun _ ref _ st out st' => hgetter ref st out st') hst h.resolve

/-- **`get_net` builds bottom-up.** -/
theorem getNet_keepsLinks (reg : Registry) (fuel : ℕ) :
    ∀ pre, KeepsLinks reg pre (getNet reg fuel pre) := by
  induction fuel with
  | zero =>
      intro pre ref st out st' _ h
      cases h
  | succ fuel ih =>
      intro pre ref st out st' hst h
      obtain ⟨name, st₁, hname, hout, h⟩ := getNet_ok.mp h
      obtain ⟨hcache, hnets⟩ := Context.nameOf_frame hname
      have hrefName := Context.nameOf_eq hname
      subst hrefName
      have hst₁ : st₁.Linked reg := by
        refine ⟨?_, ?_⟩
        · rw [hcache, hnets]
          exact hst.cached
        · rw [hnets]
          exact hst.wired
      rcases h with ⟨hhit, rfl⟩ | ⟨_, net, st₂, hnet, _, hbuild, _, hlast, rfl⟩
      · exact ⟨hst₁, hnets ▸ List.prefix_refl _, hout, hst₁.cached _ _ hhit⟩
      · obtain ⟨builder, config, outs, hbuilder, hitem⟩ := Registry.buildNet_ok.mp hbuild
        have hhidden : (st₁.hide (refName pre ref)).Linked reg := ⟨hst₁.cached, hst₁.wired⟩
        obtain ⟨hst₂, hsub, hrefs⟩ := (ih ["net", refName pre ref]).buildsItem hhidden hitem
        have hwired : WiredAt reg st₂.nets st₂.nets.length net := by
          refine ⟨config, Registry.netOptions_eq_some.mpr ⟨builder, hbuilder, hitem.read⟩, ?_⟩
          rw [hitem.refs, List.forall₂_map_right_iff, hnet]
          exact hrefs.imp fun _ _ hy => ⟨hy.2.lt, hy.2⟩
        refine ⟨hst₂.store hwired, ?_, hout, ?_⟩
        · rw [← hnets]
          exact List.IsPrefix.trans hsub (st₂.prefix_store net)
        · rw [hlast, ← hnet]
          exact st₂.isNet_store net

/-- The references of a server are those of its configuration, each resolved to a net of
its name. -/
def WiredServer (reg : Registry) (nets : List Built) (server : Built) : Prop :=
  ∃ options, reg.serverOptions server.given = some options ∧
    List.Forall₂ (fun ref y => IsNet nets y (refName ["server", server.name] ref))
      options.refs server.refs

/-- The loop over the servers keeps things together. -/
theorem loadServers_linked {reg : Registry} {fuel : ℕ} {rest : List (String × Entry)}
    {st st' : Context} {servers : List Built} (hst : st.Linked reg)
    (h : loadServers reg fuel rest st = .ok (servers, st')) :
    st'.Linked reg ∧ st.nets <+: st'.nets ∧
      ∀ server ∈ servers, WiredServer reg st'.nets server := by
  induction rest generalizing st servers with
  | nil =>
      cases h
      exact ⟨hst, List.prefix_refl _, by simp⟩
  | cons first rest ih =>
      obtain ⟨server, tail, st₁, rfl, hname, hgiven, hbuild, hrest⟩ :=
        loadServers_cons_ok.mp h
      obtain ⟨builder, config, outs, hbuilder, hitem⟩ := Registry.buildServer_ok.mp hbuild
      obtain ⟨hst₁, hsub₁, hrefs⟩ :=
        (getNet_keepsLinks reg fuel ["server", first.1]).buildsItem hst hitem
      obtain ⟨hst', hsub₂, hservers⟩ := ih hst₁ hrest
      refine ⟨hst', hsub₁.trans hsub₂, ?_⟩
      intro server' hserver'
      rcases List.mem_cons.mp hserver' with rfl | hserver'
      · refine ⟨config, Registry.serverOptions_eq_some.mpr
          ⟨builder, hgiven ▸ hbuilder, hgiven ▸ hitem.read⟩, ?_⟩
        rw [hitem.refs, List.forall₂_map_right_iff, hname]
        exact hrefs.imp fun _ _ hy => hy.2.mono hsub₂
      · exact hservers server' hserver'

/-- What `build_entities` starts from. -/
theorem Context.linked_initial (reg : Registry) (net : ConfigNet) :
    (Context.initial net).Linked reg := by
  constructor
  · intro name x hx
    cases hx
  · intro x net hx
    cases hx

end RabbitDigger.Build
