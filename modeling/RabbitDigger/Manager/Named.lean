import Mathlib.Data.Set.Finite.Basic
import RabbitDigger.Foundation.Acyclic
import RabbitDigger.Manager.Rebuild

/-!
# Building a config of names

A config in which every reference is a name, as `start` leaves it, is a **graph**: its
nodes are the names, and an entry is linked to the names its options refer to.
`build_entities` explores this graph from the servers.  It never looks for cycles; an
entry that is being built is hidden behind a placeholder whose type has no builder, and a
cycle runs into it.

This module shows that the exploration is exact (`build_named_config`).  It **succeeds if
and only if** all that is reached is there and is accepted by its builder, and no cycle is
reached.  And what a successful build leaves is one `RunningNet` for each name that is
reached, shared by all references to it, with every other entry untouched.

A config is a finite map.  Without this the exploration could go on forever along ever new
names.
-/

namespace RabbitDigger.Build

open Acyclicity

section Graph

variable (reg : Registry) (config : Config)

/-- The entry of `a` refers to `b`. -/
def Links (a b : String) : Prop :=
  ∃ entry options ref, initDefaultNet config.net a = some entry ∧
    reg.netOptions entry = some options ∧ ref ∈ options.refs ∧ ref.represent = .string b

/-- The names that the servers refer to, directly or through other entries. -/
inductive Reached : String → Prop where
  | server {server : String × Entry} {options : Options} {ref : NetRef} {name : String} :
      server ∈ config.server → reg.serverOptions server.2 = some options →
      ref ∈ options.refs → ref.represent = .string name → Reached name
  | net {a b : String} : Reached a → Links reg config a b → Reached b

/-- All references in a config are names. -/
structure AllNamed : Prop where
  server : ∀ server ∈ config.server, ∀ options, reg.serverOptions server.2 = some options →
    NamedBy (fun _ => True) options
  net : ∀ name entry options, initDefaultNet config.net name = some entry →
    reg.netOptions entry = some options → NamedBy (fun _ => True) options

/-- **What can be built**: every type has a builder that accepts the options, every name
that is reached is defined, and no cycle is reached. -/
structure Admissible : Prop where
  servers : ∀ server ∈ config.server, ∃ builder options,
    reg.server server.2.type = some builder ∧ Buildable builder server.2 options
  nets : ∀ name, Reached reg config name → ∃ entry builder options,
    initDefaultNet config.net name = some entry ∧ reg.net entry.type = some builder ∧
    Buildable builder entry options
  acyclic : Acyclic fun a b => Reached reg config a ∧ Links reg config a b

/-- Every reference was resolved to the one net of its name. -/
def Shares (entities : Entities) (options : Options) (refs : List ℕ) : Prop :=
  List.Forall₂ (fun ref x => ∃ name, ref.represent = .string name ∧
    entities.nets name = some x) options.refs refs

/-- **What has been built**: each name that is reached once, and nothing else. -/
structure BuiltOnce (entities : Entities) (config' : Config) : Prop where
  /-- No name was built twice. -/
  once : (entities.running.map Built.name).Nodup
  /-- The names that were built are those that are reached. -/
  names : ∀ name, name ∈ entities.running.map Built.name ↔ Reached reg config name
  /-- Every net was built from the entry of its name, and is the one known by it. -/
  known : ∀ (x : ℕ) (net : Built), entities.running[x]? = some net →
    entities.nets net.name = some x ∧ initDefaultNet config.net net.name = some net.given ∧
    config'.net net.name = some net.cfg
  /-- All references of nets share these. -/
  shared : ∀ net ∈ entities.running, ∃ options, reg.netOptions net.given = some options ∧
    Shares entities options net.refs
  /-- The servers are those of the config, and their references share the nets too. -/
  servers : entities.servers.map (fun server => (server.name, server.given)) = config.server ∧
    ∀ server ∈ entities.servers, ∃ options, reg.serverOptions server.given = some options ∧
      Shares entities options server.refs
  /-- What is not reached is neither built nor changed. -/
  untouched : ∀ name, ¬ Reached reg config name →
    entities.nets name = none ∧ config'.net name = initDefaultNet config.net name
  /-- The placeholder is not left in place of an entry. -/
  restored : ∀ name, config'.net name = some placeholder →
    ¬ Reached reg config name ∧ initDefaultNet config.net name = some placeholder

end Graph

variable {reg : Registry} {config config' : Config} {entities : Entities} {fuel : ℕ}

/-! ## The graph and what occurs -/

/-- In a config of names, what occurs are the names that are reached. -/
theorem AllNamed.occurs_iff (named : AllNamed reg config) {d : Denoted} :
    Occurs reg config d ↔ ∃ name, Reached reg config name ∧
      d = ⟨.named name, name, initDefaultNet config.net name⟩ := by
  constructor
  · intro hd
    induction hd with
    | @server k i server entry options ref hk hoptions href =>
        have hmem := List.mem_of_getElem? href
        have hserver := List.mem_of_getElem? hk
        obtain ⟨name, hrep, _⟩ := named.server _ hserver options hoptions ref hmem
        exact ⟨name, .server hserver hoptions hmem hrep, denote_of_string hrep⟩
    | @net d i entry options ref _ hentry hoptions href ih =>
        obtain ⟨a, hreached, rfl⟩ := ih
        have hmem := List.mem_of_getElem? href
        obtain ⟨name, hrep, _⟩ := named.net a entry options hentry hoptions ref hmem
        exact ⟨name, .net hreached ⟨entry, options, ref, hentry, hoptions, hmem, hrep⟩,
          denote_of_string hrep⟩
  · rintro ⟨name, hreached, rfl⟩
    induction hreached with
    | server hserver hoptions href hrep =>
        obtain ⟨k, hk⟩ := List.mem_iff_getElem?.mp hserver
        obtain ⟨i, hi⟩ := List.mem_iff_getElem?.mp href
        have hoccurs := Occurs.server hk hoptions hi
        rw [denote_of_string hrep] at hoccurs
        exact hoccurs
    | net _ hlink ih =>
        obtain ⟨entry, options, ref, hentry, hoptions, href, hrep⟩ := hlink
        obtain ⟨i, hi⟩ := List.mem_iff_getElem?.mp href
        have hoccurs := Occurs.net ih hentry hoptions hi
        rw [denote_of_string hrep] at hoccurs
        exact hoccurs

theorem AllNamed.namesDistinct (named : AllNamed reg config) : NamesDistinct reg config := by
  intro d₁ d₂ h₁ h₂ hname
  obtain ⟨name₁, _, rfl⟩ := named.occurs_iff.mp h₁
  obtain ⟨name₂, _, rfl⟩ := named.occurs_iff.mp h₂
  exact congrArg Origin.named hname

/-! ## Success -/

/-- The references of what can be built are reached. -/
theorem AllNamed.reached_of_net (named : AllNamed reg config) {name : String} {entry : Entry}
    {options : Options} (hreached : Reached reg config name)
    (hentry : initDefaultNet config.net name = some entry)
    (hoptions : reg.netOptions entry = some options) :
    NamedBy (fun b => Reached reg config b ∧ Reached reg config name ∧
      Links reg config name b) options := by
  intro ref href
  obtain ⟨b, hrep, _⟩ := named.net name entry options hentry hoptions ref href
  have hlink : Links reg config name b := ⟨entry, options, ref, hentry, hoptions, href, hrep⟩
  exact ⟨b, hrep, .net hreached hlink, hreached, hlink⟩

/-- **What is admissible is built**, with fuel for one net more than the config has. -/
theorem Admissible.succeeds (h : Admissible reg config) (named : AllNamed reg config)
    (noPlaceholder : reg.net placeholder.type = none) (names : Finset String)
    (hnames : ∀ name, (initDefaultNet config.net name).isSome → name ∈ names)
    (hfuel : names.card < fuel) :
    ∃ entities config', buildEntities reg fuel config = .ok (entities, config') := by
  have hdefined : ∀ name, Reached reg config name → name ∈ names := by
    intro name hreached
    obtain ⟨entry, _, _, hentry, _⟩ := h.nets name hreached
    exact hnames name (by rw [hentry]; rfl)
  obtain ⟨rank, hrank, hle⟩ := h.acyclic.exists_rank names
    fun a b hab => hdefined b (.net hab.1 hab.2)
  have plan : Plan reg (initDefaultNet config.net) (Reached reg config) rank := by
    intro name hreached
    obtain ⟨entry, builder, options, hentry, hbuilder, hbuildable⟩ := h.nets name hreached
    refine ⟨entry, builder, options, hentry, hbuilder, hbuildable, ?_⟩
    have hoptions := Registry.netOptions_eq_some.mpr ⟨builder, hbuilder, hbuildable.read⟩
    intro ref href
    obtain ⟨b, hrep, hb, hlink⟩ := named.reached_of_net hreached hentry hoptions ref href
    exact ⟨b, hrep, hb, hrank name b hlink⟩
  have hservers : ∀ server ∈ config.server, ∃ builder options,
      reg.server server.2.type = some builder ∧ Buildable builder server.2 options ∧
        NamedBy (Reached reg config) options := by
    intro server hserver
    obtain ⟨builder, options, hbuilder, hbuildable⟩ := h.servers server hserver
    refine ⟨builder, options, hbuilder, hbuildable, ?_⟩
    have hoptions := Registry.serverOptions_eq_some.mpr ⟨builder, hbuilder, hbuildable.read⟩
    intro ref href
    obtain ⟨name, hrep, _⟩ := named.server server hserver options hoptions ref href
    exact ⟨name, hrep, .server hserver hoptions href hrep⟩
  obtain ⟨servers, st, hload⟩ := loadServers_succeeds noPlaceholder named.namesDistinct plan
    fuel (fun name _ => (hle name).trans_lt hfuel) hservers config.server 0 _ List.drop_zero
    Building.initial
  exact ⟨⟨st.netCache, servers, st.nets⟩,
    ⟨st.config, servers.map fun server => (server.name, server.cfg)⟩,
    buildEntities_ok.mpr ⟨st, hload, rfl, rfl, rfl, rfl⟩⟩

/-! ## What a successful build has done -/

/-- References that are names stay as they are. -/
theorem Wiring.buildable {builder : Builder} {pre : List String} {cache : String → Option ℕ}
    {item : Built} {options : Options} {outs : List (Value × ℕ)}
    (h : Wiring builder pre cache item options outs)
    (hnamed : NamedBy (fun _ => True) options) : Buildable builder item.given options := by
  have hself : options.resolved outs = options := by
    refine resolved_eq_self ?_
    rw [List.forall₂_iff_zip]
    refine ⟨h.resolved.length_eq, ?_⟩
    intro ref out hmem
    obtain ⟨name, hrep, _⟩ := hnamed ref (List.of_mem_zip hmem).1
    rw [((List.forall₂_iff_zip.mp h.resolved).2 hmem).1, refName_of_string hrep, hrep]
  refine ⟨h.read, ⟨item.cfg.opt, ?_⟩, ?_⟩
  · rw [← hself]
    exact h.write
  · rw [← hself]
    exact h.build

/-- They are resolved to the nets of these names. -/
theorem Wiring.shares {builder : Builder} {pre : List String} {item : Built}
    {options : Options} {outs : List (Value × ℕ)}
    (h : Wiring builder pre entities.nets item options outs)
    (hnamed : NamedBy (fun _ => True) options) : Shares entities options item.refs := by
  unfold Shares
  rw [h.refs, List.forall₂_map_right_iff, List.forall₂_iff_zip]
  refine ⟨h.resolved.length_eq, ?_⟩
  intro ref out hmem
  obtain ⟨name, hrep, _⟩ := hnamed ref (List.of_mem_zip hmem).1
  have hcache := ((List.forall₂_iff_zip.mp h.resolved).2 hmem).2
  rw [refName_of_string hrep] at hcache
  exact ⟨name, hrep, hcache⟩

section Success

variable (named : AllNamed reg config) (noPlaceholder : reg.net placeholder.type = none)
  (h : buildEntities reg fuel config = .ok (entities, config'))

include named noPlaceholder h

/-- A name that is reached has been built from its entry. -/
theorem built_of_reached {name : String} (hreached : Reached reg config name) :
    ∃ x net builder options outs, entities.nets name = some x ∧
      entities.running[x]? = some net ∧ net.name = name ∧
      initDefaultNet config.net name = some net.given ∧ config'.net name = some net.cfg ∧
      reg.net net.given.type = some builder ∧
      Wiring builder ["net", name] entities.nets net options outs := by
  have distinct := named.namesDistinct
  have hcomplete := buildEntities_complete noPlaceholder distinct h
  have hoccurs := named.occurs_iff.mpr ⟨name, hreached, rfl⟩
  obtain ⟨x, hx⟩ := hcomplete.of_occurs distinct hoccurs
  obtain ⟨net, hnet, hcfg, hbuilt⟩ := hcomplete.builtFrom distinct hoccurs hx
  obtain ⟨builder, options, outs, hbuilder, hwiring⟩ := hbuilt.wiring
  exact ⟨x, net, builder, options, outs, hx, hnet, hbuilt.name, hbuilt.entry, hcfg, hbuilder,
    hwiring⟩

/-- **Only what is admissible is built.** -/
theorem admissible_of_buildEntities : Admissible reg config := by
  have hcomplete := buildEntities_complete noPlaceholder named.namesDistinct h
  refine ⟨?_, ?_, ?_⟩
  · intro server hserver
    rw [← hcomplete.given] at hserver
    obtain ⟨built, hbuilt, rfl⟩ := List.mem_map.mp hserver
    obtain ⟨builder, options, outs, hbuilder, hwiring⟩ := hcomplete.servers built hbuilt
    have hmem : (built.name, built.given) ∈ config.server := by
      rw [← hcomplete.given]
      exact hserver
    have hoptions := Registry.serverOptions_eq_some.mpr ⟨builder, hbuilder, hwiring.read⟩
    exact ⟨builder, options, hbuilder,
      hwiring.buildable (named.server _ hmem options hoptions)⟩
  · intro name hreached
    obtain ⟨x, net, builder, options, outs, _, _, _, hentry, _, hbuilder, hwiring⟩ :=
      built_of_reached named noPlaceholder h hreached
    have hoptions := Registry.netOptions_eq_some.mpr ⟨builder, hbuilder, hwiring.read⟩
    exact ⟨net.given, builder, options, hentry, hbuilder,
      hwiring.buildable (named.net name _ options hentry hoptions)⟩
  · -- every net refers to nets that were made before it
    refine acyclic_of_rank (fun name => (entities.nets name).getD 0) ?_
    rintro a b ⟨hreached, entry, options, ref, hentry, hoptions, href, hrep⟩
    obtain ⟨x, net, builder, options', outs, hx, hnet, _, hentry', _, hbuilder, hwiring⟩ :=
      built_of_reached named noPlaceholder h hreached
    obtain rfl := Option.some.inj (hentry.symm.trans hentry')
    obtain rfl := Option.some.inj (hoptions.symm.trans
      (Registry.netOptions_eq_some.mpr ⟨builder, hbuilder, hwiring.read⟩))
    obtain ⟨i, hi⟩ := List.mem_iff_getElem?.mp href
    obtain ⟨y, hyi, hy⟩ := hwiring.of_ref hi
    rw [refName_of_string hrep] at hy
    obtain ⟨_, _, hwired⟩ := (buildEntities_linked h).wired x net hnet
    obtain ⟨_, _, hlt, _⟩ := exists_of_mem_right hwired (List.mem_of_getElem? hyi)
    show (entities.nets b).getD 0 < (entities.nets a).getD 0
    rw [hx, hy]
    exact hlt

/-- Every net that was made is the one known by its name. -/
theorem nets_of_running {x : ℕ} {net : Built} (hnet : entities.running[x]? = some net) :
    entities.nets net.name = some x := by
  have stable : Stable reg config
      fun st => ∀ (x : ℕ) (net : Built), st.nets[x]? = some net →
        st.netCache net.name = some x := by
    constructor
    · intro st st' hcache hnets hP
      rw [hcache, hnets]
      exact hP
    · intro d k frames done st net hst hname hP x net' hx
      -- the net that is stored was not known before
      have hfresh := (hst.inProgress ⟨d, k⟩ (by simp)).2.1
      change (st.nets ++ [net])[x]? = some net' at hx
      show Function.update st.netCache net.name (some st.nets.length) net'.name = some x
      rw [List.getElem?_append] at hx
      split at hx
      · have hold := hP x net' hx
        have hne : net'.name ≠ net.name := by
          intro heq
          rw [heq, hname, hfresh] at hold
          cases hold
        rw [Function.update_of_ne hne]
        exact hold
      · rename_i hge
        rw [List.getElem?_singleton] at hx
        split at hx
        · cases hx
          rw [Function.update_self]
          congr 1
          omega
        · cases hx
  obtain ⟨st, hload, hnets, hrunning, _, _⟩ := buildEntities_ok.mp h
  have hkept := loadServers_keeps stable noPlaceholder named.namesDistinct config.server 0 _ _
    st List.drop_zero Building.initial (by intro x net hx; cases hx) hload
  rw [hnets]
  exact hkept x net (hrunning ▸ hnet)

/-- A net that was made has a name that is reached. -/
theorem reached_of_running {x : ℕ} {net : Built} (hnet : entities.running[x]? = some net) :
    Reached reg config net.name := by
  have hcomplete := buildEntities_complete noPlaceholder named.namesDistinct h
  have hx := nets_of_running named noPlaceholder h hnet
  obtain ⟨d, _, hd, hname, _⟩ := hcomplete.finished net.name x hx
  obtain ⟨name, hreached, rfl⟩ := named.occurs_iff.mp hd
  rw [← hname]
  exact hreached

/-- A name that is not reached stays as it was. -/
theorem untouched_of_not_reached {name : String} (hnot : ¬ Reached reg config name) :
    entities.nets name = none ∧ config'.net name = initDefaultNet config.net name := by
  have hcomplete := buildEntities_complete noPlaceholder named.namesDistinct h
  have hnone : entities.nets name = none := by
    rcases hx : entities.nets name with _ | x
    · rfl
    · obtain ⟨d, _, hd, hname, _⟩ := hcomplete.finished name x hx
      obtain ⟨name', hreached, rfl⟩ := named.occurs_iff.mp hd
      exact absurd (hname ▸ hreached) hnot
  refine ⟨hnone, hcomplete.untouched name hnone ?_⟩
  intro d hd hname
  obtain ⟨name', _, rfl⟩ := named.occurs_iff.mp hd
  exact congrArg Origin.named hname

/-- **What a successful build leaves.** -/
theorem builtOnce_of_buildEntities : BuiltOnce reg config entities config' := by
  have hcomplete := buildEntities_complete noPlaceholder named.namesDistinct h
  -- the net under a number is the one that was built for its name
  have hbuilt : ∀ (x : ℕ) (net : Built), entities.running[x]? = some net →
      initDefaultNet config.net net.name = some net.given ∧
      config'.net net.name = some net.cfg ∧ ∃ builder options outs,
        reg.net net.given.type = some builder ∧
        Wiring builder ["net", net.name] entities.nets net options outs := by
    intro x net hnet
    obtain ⟨x', net', builder, options, outs, hx', hnet', _, hentry, hcfg, hbuilder, hwiring⟩ :=
      built_of_reached named noPlaceholder h (reached_of_running named noPlaceholder h hnet)
    obtain rfl := Option.some.inj
      ((nets_of_running named noPlaceholder h hnet).symm.trans hx')
    obtain rfl := Option.some.inj (hnet.symm.trans hnet')
    exact ⟨hentry, hcfg, builder, options, outs, hbuilder, hwiring⟩
  refine ⟨?_, ?_, ?_, ?_, ⟨hcomplete.given, ?_⟩, ?_, ?_⟩
  · rw [List.nodup_iff_getElem?_ne_getElem?]
    intro i j hij hj heq
    rw [List.length_map] at hj
    have hi : i < entities.running.length := hij.trans hj
    rw [List.getElem?_map, List.getElem?_map, List.getElem?_eq_getElem hi,
      List.getElem?_eq_getElem hj] at heq
    have hxi := nets_of_running named noPlaceholder h (List.getElem?_eq_getElem hi)
    have hxj := nets_of_running named noPlaceholder h (List.getElem?_eq_getElem hj)
    rw [Option.some.inj heq, hxj] at hxi
    exact absurd (Option.some.inj hxi) (by omega)
  · intro name
    constructor
    · intro hmem
      obtain ⟨net, hnet, rfl⟩ := List.mem_map.mp hmem
      obtain ⟨x, hx⟩ := List.mem_iff_getElem?.mp hnet
      exact reached_of_running named noPlaceholder h hx
    · intro hreached
      obtain ⟨x, net, _, _, _, _, hnet, rfl, _⟩ :=
        built_of_reached named noPlaceholder h hreached
      exact List.mem_map.mpr ⟨net, List.mem_of_getElem? hnet, rfl⟩
  · intro x net hnet
    obtain ⟨hentry, hcfg, _⟩ := hbuilt x net hnet
    exact ⟨nets_of_running named noPlaceholder h hnet, hentry, hcfg⟩
  · intro net hmem
    obtain ⟨x, hnet⟩ := List.mem_iff_getElem?.mp hmem
    obtain ⟨hentry, _, builder, options, outs, hbuilder, hwiring⟩ := hbuilt x net hnet
    have hoptions := Registry.netOptions_eq_some.mpr ⟨builder, hbuilder, hwiring.read⟩
    exact ⟨options, hoptions, hwiring.shares (named.net _ _ options hentry hoptions)⟩
  · intro server hserver
    obtain ⟨builder, options, outs, hbuilder, hwiring⟩ := hcomplete.servers server hserver
    have hmem : (server.name, server.given) ∈ config.server := by
      rw [← hcomplete.given]
      exact List.mem_map.mpr ⟨server, hserver, rfl⟩
    have hoptions := Registry.serverOptions_eq_some.mpr ⟨builder, hbuilder, hwiring.read⟩
    exact ⟨options, hoptions, hwiring.shares (named.server _ hmem options hoptions)⟩
  · intro name hnot
    exact untouched_of_not_reached named noPlaceholder h hnot
  · intro name hplaceholder
    have hnot : ¬ Reached reg config name := by
      intro hreached
      obtain ⟨x, net, builder, _, _, _, _, _, _, hcfg, hbuilder, hwiring⟩ :=
        built_of_reached named noPlaceholder h hreached
      rw [hplaceholder] at hcfg
      rw [← hwiring.type, ← Option.some.inj hcfg, noPlaceholder] at hbuilder
      cases hbuilder
    refine ⟨hnot, ?_⟩
    rw [← hplaceholder]
    exact (untouched_of_not_reached named noPlaceholder h hnot).2.symm

end Success

/-- An entry is the given one or a default net. -/
theorem mem_of_initDefaultNet {net : ConfigNet} {name : String} {entry : Entry}
    (h : initDefaultNet net name = some entry) :
    net name = some entry ∨ (name, entry) ∈ defaultNets := by
  unfold initDefaultNet at h
  generalize defaultNets = entries at h ⊢
  induction entries generalizing net with
  | nil => exact .inl h
  | cons first entries ih =>
      rw [List.foldl_cons] at h
      rcases ih h with hsome | hmem
      · unfold insertMissing at hsome
        split at hsome
        · by_cases hname : name = first.1
          · rw [hname, Function.update_self] at hsome
            rw [hname, ← Option.some.inj hsome]
            exact .inr (by simp)
          · rw [Function.update_of_ne hname] at hsome
            exact .inl hsome
        · exact .inl hsome
      · exact .inr (List.mem_cons_of_mem _ hmem)

/-- The nets that `init_default_net` adds are finitely many. -/
theorem finite_initDefaultNet {net : ConfigNet} (h : {name | (net name).isSome}.Finite) :
    {name | (initDefaultNet net name).isSome}.Finite := by
  refine (h.union (List.finite_toSet (defaultNets.map Prod.fst))).subset fun name hname => ?_
  obtain ⟨entry, hentry⟩ := Option.isSome_iff_exists.mp hname
  rcases mem_of_initDefaultNet hentry with hgiven | hdefault
  · exact .inl (Option.isSome_iff_exists.mpr ⟨entry, hgiven⟩)
  · exact .inr (List.mem_map.mpr ⟨_, hdefault, rfl⟩)

/-- **Building is exact** on configs of names.  With enough fuel it succeeds if and only if
the config is admissible; and with any fuel, when it succeeds the config was admissible and
each name that is reached was built once, and nothing else. -/
theorem build_named_config (noPlaceholder : reg.net placeholder.type = none)
    (finite : {name | (config.net name).isSome}.Finite) (named : AllNamed reg config) :
    (∃ bound, ∀ fuel, bound ≤ fuel →
      ((∃ entities config', buildEntities reg fuel config = .ok (entities, config')) ↔
        Admissible reg config)) ∧
    ∀ fuel entities config', buildEntities reg fuel config = .ok (entities, config') →
      Admissible reg config ∧ BuiltOnce reg config entities config' := by
  constructor
  · have hfinite := finite_initDefaultNet finite
    refine ⟨hfinite.toFinset.card + 1, ?_⟩
    intro fuel hfuel
    constructor
    · rintro ⟨entities, config', hbuild⟩
      exact admissible_of_buildEntities named noPlaceholder hbuild
    · intro hadmissible
      exact hadmissible.succeeds named noPlaceholder hfinite.toFinset
        (fun name hname => hfinite.mem_toFinset.mpr hname) hfuel
  · intro fuel entities config' hbuild
    exact ⟨admissible_of_buildEntities named noPlaceholder hbuild,
      builtOnce_of_buildEntities named noPlaceholder hbuild⟩

/-- Two servers that listen on two aliases of one net. -/
def diamond : Config where
  net name :=
    if name = "left" ∨ name = "right" then
      some ⟨"alias", .object [("net", .string "noop")]⟩
    else none
  server := [
    ("first", ⟨"echo", .object [("bind", .string "127.0.0.1:7"),
      ("listen", .string "left")]⟩),
    ("second", ⟨"echo", .object [("bind", .string "127.0.0.1:8"),
      ("listen", .string "right")]⟩)]

theorem diamond_allNamed : AllNamed stdRegistry diamond where
  server := by
    intro server hserver options hoptions ref href
    rcases List.mem_cons.mp hserver with rfl | hserver
    · cases hoptions
      obtain rfl := List.mem_singleton.mp href
      exact ⟨"left", rfl, trivial⟩
    · obtain rfl := List.mem_singleton.mp hserver
      cases hoptions
      obtain rfl := List.mem_singleton.mp href
      exact ⟨"right", rfl, trivial⟩
  net := by
    intro name entry options hentry hoptions ref href
    rcases mem_of_initDefaultNet hentry with hgiven | hdefault
    · simp only [diamond] at hgiven
      split at hgiven
      · cases hgiven
        cases hoptions
        obtain rfl := List.mem_singleton.mp href
        exact ⟨"noop", rfl, trivial⟩
      · cases hgiven
    · -- the default nets refer to nothing, or have no builder here
      simp only [defaultNets, List.mem_cons, Prod.mk.injEq, List.not_mem_nil, or_false]
        at hdefault
      rcases hdefault with ⟨_, rfl⟩ | ⟨_, rfl⟩ | ⟨_, rfl⟩ <;> cases hoptions
      all_goals cases href

/-- The net at the bottom of the diamond is built once. -/
theorem build_named_diamond : ∃ entities config',
    buildEntities stdRegistry 2 diamond = .ok (entities, config') ∧
      AllNamed stdRegistry diamond ∧ {name | (diamond.net name).isSome}.Finite ∧
      entities.running.length = 3 ∧ Admissible stdRegistry diamond ∧
      BuiltOnce stdRegistry diamond entities config' := by
  have finite : {name | (diamond.net name).isSome}.Finite := by
    refine (List.finite_toSet ["left", "right"]).subset ?_
    intro name hname
    by_contra hnot
    change name ∉ ["left", "right"] at hnot
    simp only [List.mem_cons, List.not_mem_nil, or_false] at hnot
    change (diamond.net name).isSome at hname
    simp [diamond, hnot] at hname
  obtain ⟨entities, config', hbuild, hlength⟩ : ∃ entities config',
      buildEntities stdRegistry 2 diamond = .ok (entities, config') ∧
        entities.running.length = 3 := ⟨_, _, rfl, rfl⟩
  exact ⟨entities, config', hbuild, diamond_allNamed, finite, hlength,
    (build_named_config rfl finite diamond_allNamed).2 2 entities config' hbuild⟩

end RabbitDigger.Build
