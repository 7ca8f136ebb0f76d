import RabbitDigger.Manager.Build

/-!
# What a reference denotes

The specification that `build_entities` is measured against, stated on the config as it
was given.  A reference **denotes** the entry of its name, or the net configuration that
stands in its place; where the latter stands is its `Origin`.  What can be reached from the
servers (`Occurs`) is what the config describes, whether or not anything is ever built.

`build_entities` finds nets by name only, so each origin also has the name under which it
will be looked up.  Nothing in the source keeps generated names apart from each other and
from given ones; `NamesDistinct` says of a config that they are.

`Faithful` is what flattening is for: every reference was resolved to a net that was built
from what the reference denotes, and shares this net only with references to the same
origin; the rewritten config names every net that was built and holds its configuration;
and building from the rewritten config leads to the same graph and changes nothing.
-/

namespace RabbitDigger.Build

/-- Where a net configuration stands in a config: under a name, or in place of a
reference of a server or of a net, which are counted in the order of the visit. -/
inductive Origin where
  | named (name : String)
  | inServer (server i : ℕ)
  | inNet (parent : Origin) (i : ℕ)
deriving Repr, DecidableEq

/-- What a reference denotes: where it stands, the name under which it is looked up,
and the net configuration itself, if there is one. -/
structure Denoted where
  origin : Origin
  name : String
  entry : Option Entry

/-- What a reference denotes in a config, given the place it stands in. -/
def denote (net : ConfigNet) (pre : List String) (here : Origin) (ref : NetRef) : Denoted :=
  match ref.represent.asStr with
  | some name => ⟨.named name, name, net name⟩
  | none => ⟨here, refName pre ref, (Entry.fromValue ref.represent).toOption⟩

@[simp] theorem denote_name (net : ConfigNet) (pre : List String) (here : Origin)
    (ref : NetRef) : (denote net pre here ref).name = refName pre ref := by
  unfold denote refName
  split <;> simp_all

section Config

variable (reg : Registry) (config : Config)

/-- What the servers of a config refer to, directly or through other nets. -/
inductive Occurs : Denoted → Prop where
  | server {k i : ℕ} {name : String} {entry : Entry} {options : Options} {ref : NetRef} :
      config.server[k]? = some (name, entry) → reg.serverOptions entry = some options →
      options.refs[i]? = some ref →
      Occurs (denote (initDefaultNet config.net) ["server", name] (.inServer k i) ref)
  | net {d : Denoted} {i : ℕ} {entry : Entry} {options : Options} {ref : NetRef} :
      Occurs d → d.entry = some entry → reg.netOptions entry = some options →
      options.refs[i]? = some ref →
      Occurs (denote (initDefaultNet config.net) ["net", d.name] (.inNet d.origin i) ref)

/-- **Names are distinct**: what the servers refer to is looked up under one name only
if it stands in one place. -/
def NamesDistinct : Prop :=
  ∀ d₁ d₂, Occurs reg config d₁ → Occurs reg config d₂ → d₁.name = d₂.name →
    d₁.origin = d₂.origin

/-- The config as it was given, read along the entities that were built from it: a
reference denotes `d` and was resolved to the `RunningNet` `x`. -/
inductive Reads (entities : Entities) : Denoted → ℕ → Prop where
  | server {k i x : ℕ} {name : String} {entry : Entry} {server : Built}
      {options : Options} {ref : NetRef} :
      config.server[k]? = some (name, entry) → entities.servers[k]? = some server →
      reg.serverOptions entry = some options → options.refs[i]? = some ref →
      server.refs[i]? = some x →
      Reads entities
        (denote (initDefaultNet config.net) ["server", name] (.inServer k i) ref) x
  | net {d : Denoted} {i x y : ℕ} {entry : Entry} {net : Built} {options : Options}
      {ref : NetRef} :
      Reads entities d x → entities.running[x]? = some net → d.entry = some entry →
      reg.netOptions entry = some options → options.refs[i]? = some ref →
      net.refs[i]? = some y →
      Reads entities
        (denote (initDefaultNet config.net) ["net", d.name] (.inNet d.origin i) ref) y

end Config

/-- The name of a `RunningNet`. -/
def Entities.nameOf (entities : Entities) (x : ℕ) : String :=
  (entities.running[x]?).elim "" Built.name

/-- Options whose references are the names of these nets. -/
def Names (entities : Entities) (options : Options) (refs : List ℕ) : Prop :=
  options.refs.map NetRef.represent = refs.map fun x => .string (entities.nameOf x)

/-- The graph, by name: the configuration of a net, and the names of the nets it refers
to. -/
def Entities.graph (entities : Entities) (name : String) : Option (Entry × List String) :=
  (entities.nets name).bind fun x =>
    (entities.running[x]?).map fun net => (net.cfg, net.refs.map entities.nameOf)

/-- The servers, and the names of the nets they refer to. -/
def Entities.serverGraph (entities : Entities) : List (String × Entry × List String) :=
  entities.servers.map fun server =>
    (server.name, server.cfg, server.refs.map entities.nameOf)

/-- **Flattening is faithful.** -/
structure Faithful (reg : Registry) (config : Config) (entities : Entities)
    (config' : Config) : Prop where
  /-- The servers are those of the config. -/
  servers : entities.servers.map (fun server => (server.name, server.given)) = config.server
  /-- A reference was resolved to a net built from what it denotes. -/
  built : ∀ d x, Reads reg config entities d x →
    ∃ net, entities.running[x]? = some net ∧ d.entry = some net.given
  /-- Two references share a net only if they denote the same: one inline net, or the
  entry of one name. -/
  own : ∀ d₁ d₂ x, Reads reg config entities d₁ x → Reads reg config entities d₂ x →
    d₁.origin = d₂.origin
  /-- Every net is known by its name, under which the rewritten config has its
  configuration, with names for all references. -/
  described : ∀ d x net, Reads reg config entities d x → entities.running[x]? = some net →
    entities.nets net.name = some x ∧ config'.net net.name = some net.cfg ∧
      ∃ options, reg.netOptions net.cfg = some options ∧ Names entities options net.refs
  /-- The rewritten config has the configurations of the servers. -/
  describedServers : config'.server =
      entities.servers.map (fun server => (server.name, server.cfg)) ∧
    ∀ server ∈ entities.servers, ∃ options,
      reg.serverOptions server.cfg = some options ∧ Names entities options server.refs
  /-- Building from the rewritten config changes nothing. -/
  again : ∃ fuel entities', buildEntities reg fuel config' = .ok (entities', config') ∧
    entities'.graph = entities.graph ∧ entities'.serverGraph = entities.serverGraph

/-! ## An origin denotes one thing -/

section Config

variable {reg : Registry} {config : Config}

/-- How something occurs, by its origin. -/
theorem Occurs.cases_origin {d : Denoted} (h : Occurs reg config d) :
    (∃ name, d = ⟨.named name, name, initDefaultNet config.net name⟩) ∨
      (∃ k i name entry options ref, config.server[k]? = some (name, entry) ∧
        reg.serverOptions entry = some options ∧ options.refs[i]? = some ref ∧
        d = ⟨.inServer k i, refName ["server", name] ref,
          (Entry.fromValue ref.represent).toOption⟩) ∨
      ∃ d₀ i entry options ref, Occurs reg config d₀ ∧ d₀.entry = some entry ∧
        reg.netOptions entry = some options ∧ options.refs[i]? = some ref ∧
        d = ⟨.inNet d₀.origin i, refName ["net", d₀.name] ref,
          (Entry.fromValue ref.represent).toOption⟩ := by
  cases h with
  | @server k i name entry options ref hserver hoptions href =>
      unfold denote
      rcases ref.represent.asStr with _ | given
      · exact .inr (.inl ⟨k, i, name, entry, options, ref, hserver, hoptions, href, rfl⟩)
      · exact .inl ⟨given, rfl⟩
  | @net d₀ i entry options ref hd₀ hentry hoptions href =>
      unfold denote
      rcases ref.represent.asStr with _ | given
      · exact .inr (.inr ⟨d₀, i, entry, options, ref, hd₀, hentry, hoptions, href, rfl⟩)
      · exact .inl ⟨given, rfl⟩

/-- What occurs is determined by its origin. -/
theorem Occurs.unique (origin : Origin) :
    ∀ d₁ d₂, Occurs reg config d₁ → Occurs reg config d₂ → d₁.origin = origin →
      d₂.origin = origin → d₁ = d₂ := by
  -- an inline net of a net is found through its parent, which is unique by induction
  induction origin with
  | named name =>
      intro d₁ d₂ h₁ h₂ ho₁ ho₂
      rcases h₁.cases_origin with ⟨n₁, rfl⟩ | ⟨_, _, _, _, _, _, _, _, _, rfl⟩ |
        ⟨_, _, _, _, _, _, _, _, _, rfl⟩
      · rcases h₂.cases_origin with ⟨n₂, rfl⟩ | ⟨_, _, _, _, _, _, _, _, _, rfl⟩ |
          ⟨_, _, _, _, _, _, _, _, _, rfl⟩
        · cases ho₁
          cases ho₂
          rfl
        · cases ho₂
        · cases ho₂
      · cases ho₁
      · cases ho₁
  | inServer k i =>
      intro d₁ d₂ h₁ h₂ ho₁ ho₂
      rcases h₁.cases_origin with ⟨_, rfl⟩ |
        ⟨_, _, _, _, _, _, hserver₁, hoptions₁, href₁, rfl⟩ | ⟨_, _, _, _, _, _, _, _, _, rfl⟩
      · cases ho₁
      · rcases h₂.cases_origin with ⟨_, rfl⟩ |
          ⟨_, _, _, _, _, _, hserver₂, hoptions₂, href₂, rfl⟩ |
          ⟨_, _, _, _, _, _, _, _, _, rfl⟩
        · cases ho₂
        · cases ho₁
          cases ho₂
          rw [hserver₁] at hserver₂
          cases hserver₂
          rw [hoptions₁] at hoptions₂
          cases hoptions₂
          rw [href₁] at href₂
          cases href₂
          rfl
        · cases ho₂
      · cases ho₁
  | inNet parent i ih =>
      intro d₁ d₂ h₁ h₂ ho₁ ho₂
      rcases h₁.cases_origin with ⟨_, rfl⟩ | ⟨_, _, _, _, _, _, _, _, _, rfl⟩ |
        ⟨p₁, _, _, _, _, hp₁, hentry₁, hoptions₁, href₁, rfl⟩
      · cases ho₁
      · cases ho₁
      · rcases h₂.cases_origin with ⟨_, rfl⟩ | ⟨_, _, _, _, _, _, _, _, _, rfl⟩ |
          ⟨p₂, _, _, _, _, hp₂, hentry₂, hoptions₂, href₂, rfl⟩
        · cases ho₂
        · cases ho₂
        · simp only [Origin.inNet.injEq] at ho₁ ho₂
          obtain ⟨hparent₁, rfl⟩ := ho₁
          obtain ⟨hparent₂, rfl⟩ := ho₂
          obtain rfl := ih p₁ p₂ hp₁ hp₂ hparent₁ hparent₂
          rw [hentry₁] at hentry₂
          cases hentry₂
          rw [hoptions₁] at hoptions₂
          cases hoptions₂
          rw [href₁] at href₂
          cases href₂
          rfl

/-- If names are distinct, what occurs is determined by its name. -/
theorem NamesDistinct.eq (distinct : NamesDistinct reg config) {d₁ d₂ : Denoted}
    (h₁ : Occurs reg config d₁) (h₂ : Occurs reg config d₂) (hname : d₁.name = d₂.name) :
    d₁ = d₂ :=
  Occurs.unique d₂.origin d₁ d₂ h₁ h₂ (distinct d₁ d₂ h₁ h₂ hname) rfl

/-- What is read occurs. -/
theorem Reads.occurs {entities : Entities} {d : Denoted} {x : ℕ}
    (h : Reads reg config entities d x) : Occurs reg config d := by
  induction h with
  | server hserver _ hoptions href _ => exact .server hserver hoptions href
  | net _ _ hentry hoptions href _ ih => exact .net ih hentry hoptions href

/-! ## Faithful flattening needs distinct names -/

variable {fuel : ℕ} {config' : Config} {entities : Entities}

/-- The loop over the servers goes through all of them. -/
theorem loadServers_given {rest : List (String × Entry)} {st st' : Context}
    {servers : List Built} (h : loadServers reg fuel rest st = .ok (servers, st')) :
    servers.map (fun server => (server.name, server.given)) = rest := by
  induction rest generalizing st servers with
  | nil =>
      cases h
      rfl
  | cons first rest ih =>
      obtain ⟨server, tail, st₁, rfl, hname, hgiven, _, hrest⟩ := loadServers_cons_ok.mp h
      rw [List.map_cons, hname, hgiven, ih hrest]

/-- Whatever the names are like: if every reference was resolved to a net built from what
it denotes, then everything that occurs was resolved, to a net of its name. -/
theorem exists_reads (h : buildEntities reg fuel config = .ok (entities, config'))
    (hbuilt : ∀ d x, Reads reg config entities d x →
      ∃ net, entities.running[x]? = some net ∧ d.entry = some net.given)
    {d : Denoted} (hd : Occurs reg config d) :
    ∃ x, Reads reg config entities d x ∧ IsNet entities.running x d.name := by
  obtain ⟨st, hload, _, hrunning, _, _⟩ := buildEntities_ok.mp h
  obtain ⟨hlinked, _, hservers⟩ := loadServers_linked (Context.linked_initial reg config.net) hload
  have hgiven := loadServers_given hload
  rw [← hrunning] at hservers
  -- along the way to `d`: each net was built from what is denoted, so it has these references
  induction hd with
  | @server k i name entry options ref hserver hoptions href =>
      rw [← hgiven, List.getElem?_map, Option.map_eq_some_iff] at hserver
      obtain ⟨server, hk, heq⟩ := hserver
      cases heq
      obtain ⟨options', hoptions', hrefs⟩ := hservers server (List.mem_of_getElem? hk)
      rw [hoptions] at hoptions'
      cases hoptions'
      obtain ⟨x, hx, hnet⟩ := exists_of_getElem?_left hrefs href
      refine ⟨x, .server ?_ hk hoptions href hx, by rwa [denote_name]⟩
      rw [← hgiven, List.getElem?_map, hk]
      rfl
  | @net d i entry options ref _ hentry hoptions href ih =>
      obtain ⟨x, hreads, net, hnet, hname⟩ := ih
      obtain ⟨net', hnet', hentry'⟩ := hbuilt d x hreads
      rw [hnet] at hnet'
      cases hnet'
      rw [hentry] at hentry'
      cases hentry'
      have hwired := hlinked.wired x net (hrunning ▸ hnet)
      rw [← hrunning] at hwired
      obtain ⟨options', hoptions', hrefs⟩ := hwired
      rw [hoptions] at hoptions'
      cases hoptions'
      obtain ⟨y, hy, _, hisNet⟩ := exists_of_getElem?_left hrefs href
      refine ⟨y, .net hreads hnet hentry hoptions href hy, ?_⟩
      rw [denote_name, ← hname]
      exact hisNet

/-- **A config that is flattened faithfully has distinct names.** -/
theorem Faithful.namesDistinct (h : buildEntities reg fuel config = .ok (entities, config'))
    (hfaithful : Faithful reg config entities config') : NamesDistinct reg config := by
  intro d₁ d₂ h₁ h₂ hname
  obtain ⟨x₁, hreads₁, net₁, hnet₁, hname₁⟩ := exists_reads h hfaithful.built h₁
  obtain ⟨x₂, hreads₂, net₂, hnet₂, hname₂⟩ := exists_reads h hfaithful.built h₂
  have hx₁ := (hfaithful.described d₁ x₁ net₁ hreads₁ hnet₁).1
  have hx₂ := (hfaithful.described d₂ x₂ net₂ hreads₂ hnet₂).1
  rw [hname₁, hname] at hx₁
  rw [hname₂, hx₁] at hx₂
  cases hx₂
  exact hfaithful.own d₁ d₂ x₁ hreads₁ hreads₂

end Config

end RabbitDigger.Build
