import RabbitDigger.Manager.Flatten

/-!
# Building a flattened config again

What `build_entities` leaves in the config is again a config, in which every reference is
a name.  On such a config **nothing stands in the way of a build**: `Plan` lists what is
needed, that every name has an entry which its builder reads and accepts, and that
references descend along a rank; `getNet_succeeds` shows that it is enough.

The first build provides a plan for the second, with the order in which the nets were made
as the rank.  The second build then finds every entry as the first has left it, so it
changes nothing and connects the same names.  With this the account of flattening is
complete: `flatten_faithful_iff` says that a build is faithful to its config **exactly if
the names in it are distinct**.

Two things are assumed of the builders: reading what was written gives back the options
(serde), and no net type is called like the placeholder.
-/

namespace RabbitDigger.Build

/-- Options that were read and whose references are now names are read back from what is
written. -/
def RoundTrips (builder : Builder) : Prop :=
  ∀ cfg options outs cfg', builder.fromValue cfg = .ok options →
    outs.length = options.refs.length →
    (∀ out ∈ outs, ∃ name, out.1 = .string name) →
    builder.toValue (options.resolved outs) = .ok cfg' →
    builder.fromValue cfg' = .ok (options.resolved outs)

/-- What is assumed of the builders. -/
structure Registry.Lawful (reg : Registry) : Prop where
  noPlaceholder : reg.net placeholder.type = none
  net : ∀ type builder, reg.net type = some builder → RoundTrips builder
  server : ∀ type builder, reg.server type = some builder → RoundTrips builder

/-! ## Plans -/

/-- A builder reads an entry and accepts its options as they are. -/
structure Buildable (builder : Builder) (entry : Entry) (options : Options) : Prop where
  read : builder.fromValue entry.opt = .ok options
  write : ∃ opt, builder.toValue options = .ok opt
  build : builder.build options = .ok ()

/-- Every reference is a good name. -/
def NamedBy (Good : String → Prop) (options : Options) : Prop :=
  ∀ ref ∈ options.refs, ∃ name, ref.represent = .string name ∧ Good name

/-- The good names can be built: each has an entry that is accepted, and refers to good
names of a lower rank. -/
def Plan (reg : Registry) (net : ConfigNet) (Good : String → Prop) (rank : String → ℕ) :
    Prop :=
  ∀ name, Good name → ∃ entry builder options, net name = some entry ∧
    reg.net entry.type = some builder ∧ Buildable builder entry options ∧
    NamedBy (fun name' => Good name' ∧ rank name' < rank name) options

theorem refName_of_string {pre : List String} {ref : NetRef} {name : String}
    (h : ref.represent = .string name) : refName pre ref = name := by
  unfold refName
  rw [h]
  rfl

theorem denote_of_string {net : ConfigNet} {pre : List String} {here : Origin}
    {ref : NetRef} {name : String} (h : ref.represent = .string name) :
    denote net pre here ref = ⟨.named name, name, net name⟩ := by
  unfold denote
  rw [h]
  rfl

/-- Resolving references that are names changes nothing. -/
theorem resolved_eq_self {options : Options} {outs : List (Value × ℕ)}
    (h : List.Forall₂ (fun ref out => out.1 = ref.represent) options.refs outs) :
    options.resolved outs = options := by
  obtain ⟨rest, refs⟩ := options
  change List.Forall₂ _ refs outs at h
  have key : List.zipWith (fun (ref : NetRef) (out : Value × ℕ) =>
      ({ ref with represent := out.1 } : NetRef)) refs outs = refs := by
    induction h with
    | nil => rfl
    | cons hout _ ih =>
        rw [List.zipWith_cons_cons, ih, hout]
  show (⟨rest, _⟩ : Options) = _
  rw [key]

/-- The references of the resolved options are represented by what the getter gave. -/
theorem represent_resolved {R : NetRef → Value × ℕ → Prop} {options : Options}
    {outs : List (Value × ℕ)} (h : List.Forall₂ R options.refs outs) :
    List.Forall₂ (fun ref out => ref.represent = out.1 ∧ ∃ ref₀, R ref₀ out)
      (options.resolved outs).refs outs := by
  obtain ⟨rest, refs⟩ := options
  change List.Forall₂ _ refs outs at h
  show List.Forall₂ _ (List.zipWith _ refs outs) outs
  induction h with
  | nil => exact .nil
  | cons hout _ ih => exact .cons ⟨rfl, _, hout⟩ ih

/-- A build of named references goes through once they are resolved. -/
theorem Buildable.item {σ : Type} {getter : Getter σ} {builder : Builder} {entry : Entry}
    {options : Options} {pre : List String} {st st' : σ} {outs : List (Value × ℕ)}
    (h : Buildable builder entry options) {Good : String → Prop}
    (hnamed : NamedBy Good options)
    (hresolve : resolveNet getter options.refs st = .ok (outs, st'))
    (houts : List.Forall₂ (fun ref out => out.1 = .string (refName pre ref))
      options.refs outs) :
    ∃ cfg refs, BuildsItem builder getter entry st cfg refs st' options outs := by
  obtain ⟨opt, hwrite⟩ := h.write
  have hself : options.resolved outs = options := by
    refine resolved_eq_self ?_
    rw [List.forall₂_iff_zip] at houts ⊢
    refine ⟨houts.1, ?_⟩
    intro ref out hmem
    obtain ⟨name, hname, _⟩ := hnamed ref (List.of_mem_zip hmem).1
    rw [houts.2 hmem, refName_of_string hname, hname]
  exact ⟨⟨entry.type, opt⟩, _, h.read, hresolve, by rw [hself]; exact hwrite,
    by rw [hself]; exact h.build, rfl, rfl⟩

section Config

variable {reg : Registry} {config : Config} {Good : String → Prop} {rank : String → ℕ}

/-- **With a plan, `get_net` succeeds.** -/
theorem getNet_succeeds (noPlaceholder : reg.net placeholder.type = none)
    (distinct : NamesDistinct reg config)
    (plan : Plan reg (initDefaultNet config.net) Good rank) (fuel : ℕ) :
    ∀ frames done pre here ref name st, Building reg config frames done st →
      Occurs reg config (denote (initDefaultNet config.net) pre here ref) →
      ref.represent = .string name → Good name → rank name < fuel →
      (∀ frame ∈ frames, rank name < rank frame.net.name) →
      ∃ out st', getNet reg fuel pre ref st = .ok (out, st') := by
  induction fuel with
  | zero =>
      intro frames done pre here ref name st _ _ _ _ hfuel
      cases hfuel
  | succ fuel ih =>
      intro frames done pre here ref name st hst hoccurs hrep hgood hfuel hframes
      rw [denote_of_string hrep] at hoccurs
      have hname : st.nameOf pre ref = .ok (name, st) :=
        Context.nameOf_ok.mpr (.inl ⟨hrep, rfl⟩)
      rcases hcache : st.netCache name with _ | x
      · -- the entry is there: neither finished nor in progress, for reasons of rank
        obtain ⟨entry, builder, options, hentry, hbuilder, hbuildable, hnamed⟩ :=
          plan name hgood
        have hopen : ∀ frame ∈ frames, frame.net.name ≠ name := by
          intro frame hmem heq
          have := hframes frame hmem
          rw [heq] at this
          omega
        have hconfig : st.config name = some entry := by
          rw [← hentry]
          exact hst.given name hcache hopen fun d hd hd' => distinct _ _ hd hoccurs hd'
        have hhidden := hst.hide hoccurs (.named name) hcache hopen
        have hoptions : reg.netOptions entry = some options :=
          Registry.netOptions_eq_some.mpr ⟨builder, hbuilder, hbuildable.read⟩
        have hchild : ∀ k ref', options.refs[k]? = some ref' → Occurs reg config
            (denote (initDefaultNet config.net) ["net", name] (.inNet (.named name) k) ref') :=
          fun k ref' href => .net hoccurs hentry hoptions href
        obtain ⟨outs, st₂, hresolve⟩ := resolveNet_succeeds
          (fun k st => Building reg config
            (⟨⟨.named name, name, initDefaultNet config.net name⟩, k⟩ :: frames) done st)
          options.refs (by
            intro k ref' href st hst
            obtain ⟨hnext, hready⟩ := hst.ready_net distinct (hchild k ref' href)
            -- its rank is lower than that of all nets in progress
            obtain ⟨name', hrep', hgood', hrank⟩ := hnamed ref' (List.mem_of_getElem? href)
            obtain ⟨out, st', h⟩ := ih _ done ["net", name] (.inNet (.named name) k) ref'
              name' st hnext (hchild k ref' href) hrep' hgood' (by omega) (by
                intro frame hmem
                rcases List.mem_cons.mp hmem with rfl | hmem
                · exact hrank
                · have := hframes frame hmem
                  omega)
            exact ⟨out, st', h, (getNet_resolves noPlaceholder distinct fuel _ _ done _ ref' st
              out st' hnext (hchild k ref' href) hready h).1⟩)
          hhidden
        obtain ⟨hst₂, _, hresolved⟩ :=
          (getNet_resolves noPlaceholder distinct fuel ["net", name]).net distinct hhidden
            hoccurs hentry hoptions hresolve
        obtain ⟨cfg, refs, hitem⟩ := hbuildable.item hnamed hresolve
          (hresolved.imp fun _ _ hout => hout.1)
        have hstill := (hst₂.inProgress _ (List.mem_cons_self ..)).2.2.1
        refine ⟨(.string name, st₂.nets.length), st₂.store ⟨name, entry, cfg, refs⟩, ?_⟩
        refine getNet_ok.mpr ⟨name, st, hname, rfl, .inr ⟨hcache, ⟨name, entry, cfg, refs⟩,
          st₂, rfl, hconfig, ?_, ?_, rfl, rfl⟩⟩
        · exact Registry.buildNet_ok.mpr ⟨builder, options, outs, hbuilder, hitem⟩
        · rw [hstill]
          rfl
      · exact ⟨(.string name, x), st,
          getNet_ok.mpr ⟨name, st, hname, rfl, .inl ⟨hcache, rfl⟩⟩⟩

/-- With a plan and servers that refer to good names, the loop over the servers goes
through. -/
theorem loadServers_succeeds (noPlaceholder : reg.net placeholder.type = none)
    (distinct : NamesDistinct reg config)
    (plan : Plan reg (initDefaultNet config.net) Good rank) (fuel : ℕ)
    (hfuel : ∀ name, Good name → rank name < fuel)
    (hservers : ∀ server ∈ config.server, ∃ builder options,
      reg.server server.2.type = some builder ∧ Buildable builder server.2 options ∧
        NamedBy Good options)
    (rest : List (String × Entry)) :
    ∀ k st, config.server.drop k = rest → Building reg config [] (before k 0) st →
      ∃ servers st', loadServers reg fuel rest st = .ok (servers, st') := by
  induction rest with
  | nil =>
      intro k st _ _
      exact ⟨[], st, rfl⟩
  | cons first rest ih =>
      intro k st hdrop hst
      obtain ⟨name, entry⟩ := first
      obtain ⟨hk, hnext⟩ := getElem?_of_drop_eq_cons hdrop
      obtain ⟨builder, options, hbuilder, hbuildable, hnamed⟩ :=
        hservers (name, entry) (List.mem_of_getElem? hk)
      have hoptions : reg.serverOptions entry = some options :=
        Registry.serverOptions_eq_some.mpr ⟨builder, hbuilder, hbuildable.read⟩
      have hresolves := getNet_resolves noPlaceholder distinct fuel ["server", name]
      obtain ⟨outs, st₁, hresolve⟩ := resolveNet_succeeds
        (fun i st => Building reg config [] (before k i) st) options.refs (by
          intro i ref href st hst
          have hchild := Occurs.server hk hoptions href
          obtain ⟨hstart, hready⟩ := hst.ready_server distinct hchild
          obtain ⟨name', hrep, hgood⟩ := hnamed ref (List.mem_of_getElem? href)
          obtain ⟨out, st', h⟩ := getNet_succeeds noPlaceholder distinct plan fuel [] _
            ["server", name] (.inServer k i) ref name' st hstart hchild hrep hgood
            (hfuel name' hgood) (by simp)
          exact ⟨out, st', h, (hresolves _ _ _ ref st out st' hstart hchild hready h).1⟩)
        hst
      obtain ⟨hst₁, _, hresolved⟩ := hresolves.server distinct hst hk hoptions hresolve
      obtain ⟨cfg, refs, hitem⟩ := hbuildable.item hnamed hresolve
        (hresolved.imp fun _ _ hout => hout.1)
      obtain ⟨servers, st', hrest⟩ := ih (k + 1) st₁ hnext hst₁
      have hbuild : reg.buildServer name entry (getServerNet reg fuel name) st =
          .ok ((cfg, refs), st₁) :=
        Registry.buildServer_ok.mpr ⟨builder, options, outs, hbuilder, hitem⟩
      exact ⟨⟨name, entry, cfg, refs⟩ :: servers, st', loadServers_cons_ok.mpr
        ⟨_, servers, st₁, rfl, rfl, rfl, hbuild, hrest⟩⟩

end Config

/-! ## The config that a build leaves -/

/-- Inserting what is missing keeps what is there. -/
theorem foldl_insertMissing_isSome (entries : List (String × Entry)) {net : ConfigNet}
    {name : String} (h : (net name).isSome) :
    (entries.foldl insertMissing net name).isSome := by
  induction entries generalizing net with
  | nil => exact h
  | cons entry entries ih =>
      refine ih ?_
      unfold insertMissing
      split
      · by_cases hname : name = entry.1
        · rw [hname, Function.update_self]
          rfl
        · rwa [Function.update_of_ne hname]
      · exact h

/-- Nothing is missing afterwards. -/
theorem isSome_initDefaultNet (net : ConfigNet) :
    ∀ entry ∈ defaultNets, (initDefaultNet net entry.1).isSome := by
  unfold initDefaultNet
  generalize defaultNets = entries
  induction entries generalizing net with
  | nil => simp
  | cons first entries ih =>
      intro entry hmem
      rcases List.mem_cons.mp hmem with rfl | hmem
      · refine foldl_insertMissing_isSome entries ?_
        unfold insertMissing
        split
        · rw [Function.update_self]
          rfl
        · rename_i h
          exact Option.isSome_iff_ne_none.mpr fun hnone => h (by rw [hnone]; rfl)
      · exact ih _ entry hmem

/-- If nothing is missing, nothing is inserted. -/
theorem initDefaultNet_eq_self {net : ConfigNet}
    (h : ∀ entry ∈ defaultNets, (net entry.1).isSome) : initDefaultNet net = net := by
  unfold initDefaultNet
  generalize defaultNets = entries at h ⊢
  induction entries with
  | nil => rfl
  | cons entry entries ih =>
      have hfirst : insertMissing net entry = net := by
        unfold insertMissing
        rw [if_neg]
        have hsome := h entry (by simp)
        rw [Option.isNone_iff_eq_none]
        exact Option.isSome_iff_ne_none.mp hsome
      rw [List.foldl_cons, hfirst]
      exact ih fun entry' hmem => h entry' (by simp [hmem])

/-- What is left of a configuration: it is read, written and built as it is, and all its
references are names of nets in the cache. -/
structure Normal (builder : Builder) (cache : String → Option ℕ) (item : Built)
    (options : Options) : Prop where
  read : builder.fromValue item.cfg.opt = .ok options
  write : builder.toValue options = .ok item.cfg.opt
  build : builder.build options = .ok ()
  refs : List.Forall₂ (fun ref y => ∃ name, ref.represent = .string name ∧
    cache name = some y) options.refs item.refs

/-- **What a build leaves of a configuration is normal.** -/
theorem Wiring.normal {builder : Builder} {pre : List String} {cache : String → Option ℕ}
    {item : Built} {options : Options} {outs : List (Value × ℕ)}
    (h : Wiring builder pre cache item options outs) (roundTrips : RoundTrips builder) :
    Normal builder cache item (options.resolved outs) where
  read := by
    refine roundTrips _ _ _ _ h.read h.resolved.length_eq.symm ?_ h.write
    intro out hout
    obtain ⟨ref, -, hname, -⟩ := exists_of_mem_right h.resolved hout
    exact ⟨_, hname⟩
  write := h.write
  build := h.build
  refs := by
    rw [h.refs, List.forall₂_map_right_iff]
    refine (represent_resolved h.resolved).imp ?_
    rintro ref out ⟨hrep, ref₀, hout, hcache⟩
    exact ⟨refName pre ref₀, hrep.trans hout, hcache⟩

namespace Normal

variable {builder : Builder} {cache cache₂ : String → Option ℕ} {item item₂ : Built}
  {options options₂ : Options}

theorem buildable (h : Normal builder cache item options) :
    Buildable builder item.cfg options :=
  ⟨h.read, ⟨_, h.write⟩, h.build⟩

/-- A reference is the name of a net. -/
theorem of_ref (h : Normal builder cache item options) {i : ℕ} {ref : NetRef}
    (href : options.refs[i]? = some ref) :
    ∃ name y, ref.represent = .string name ∧ cache name = some y ∧ item.refs[i]? = some y := by
  obtain ⟨y, hy, name, hrep, hcache⟩ := exists_of_getElem?_left h.refs href
  exact ⟨name, y, hrep, hcache, hy⟩

/-- What is referred to has a name. -/
theorem of_getElem? (h : Normal builder cache item options) {i y : ℕ}
    (hy : item.refs[i]? = some y) : ∃ ref name, options.refs[i]? = some ref ∧
      ref.represent = .string name ∧ cache name = some y := by
  obtain ⟨ref, href, name, hrep, hcache⟩ := exists_of_getElem?_left h.refs.flip hy
  exact ⟨ref, name, href, hrep, hcache⟩

/-- The references, by name. -/
theorem represents (h : Normal builder cache item options) {nameOf : ℕ → String}
    (hnameOf : ∀ name x, cache name = some x → nameOf x = name) :
    options.refs.map NetRef.represent = item.refs.map fun x => .string (nameOf x) := by
  rw [← List.forall₂_eq_eq_eq, List.forall₂_map_left_iff, List.forall₂_map_right_iff]
  refine h.refs.imp ?_
  rintro ref y ⟨name, hrep, hcache⟩
  rw [hrep, hnameOf name y hcache]

/-- **Building a normal configuration leaves it as it is**, and connects it with the nets
of the same names. -/
theorem again (h : Normal builder cache item options) {pre : List String}
    {outs : List (Value × ℕ)} (h₂ : Wiring builder pre cache₂ item₂ options₂ outs)
    (hgiven : item₂.given = item.cfg) {nameOf nameOf₂ : ℕ → String}
    (hnameOf : ∀ name x, cache name = some x → nameOf x = name)
    (hnameOf₂ : ∀ name x, cache₂ name = some x → nameOf₂ x = name) :
    item₂.cfg = item.cfg ∧ item₂.refs.map nameOf₂ = item.refs.map nameOf := by
  have hread := h₂.read
  rw [hgiven, h.read] at hread
  cases hread
  -- the options are read as they were written, so the getter is asked for names
  have hnamed : List.Forall₂ (fun ref out => out.1 = ref.represent ∧
      ref.represent = .string (nameOf₂ out.2)) options.refs outs := by
    rw [List.forall₂_iff_zip]
    refine ⟨h₂.resolved.length_eq, ?_⟩
    intro ref out hmem
    obtain ⟨hout, hcache⟩ := (List.forall₂_iff_zip.mp h₂.resolved).2 hmem
    obtain ⟨i, hi⟩ := List.mem_iff_getElem?.mp (List.of_mem_zip hmem).1
    obtain ⟨name, _, hrep, _⟩ := h.of_ref hi
    rw [refName_of_string hrep] at hout hcache
    rw [hnameOf₂ _ _ hcache, hrep]
    exact ⟨hout, rfl⟩
  constructor
  · have hwrite := h₂.write
    rw [resolved_eq_self (hnamed.imp fun _ _ hout => hout.1), h.write] at hwrite
    have htype := h₂.type
    rw [hgiven] at htype
    obtain ⟨_, _, ⟨type, opt⟩, _⟩ := item₂
    cases htype
    cases hwrite
    rfl
  · have hmap : options.refs.map NetRef.represent =
        outs.map fun out => .string (nameOf₂ out.2) := by
      rw [← List.forall₂_eq_eq_eq, List.forall₂_map_left_iff, List.forall₂_map_right_iff]
      exact hnamed.imp fun _ _ hout => hout.2
    rw [h.represents hnameOf] at hmap
    rw [h₂.refs, List.map_map]
    have hinj : Function.Injective Value.string := fun _ _ heq => Value.string.inj heq
    refine (List.map_injective_iff.mpr hinj ?_).symm
    rw [List.map_map, List.map_map]
    exact hmap

end Normal

/-- **A config describes what was built**: it has the configurations of all nets and
servers, and no others are reached from the servers. -/
structure Describes (reg : Registry) (config : Config) (entities : Entities) : Prop where
  nets : ∀ name x, entities.nets name = some x → ∃ net builder options,
    entities.running[x]? = some net ∧ net.name = name ∧ config.net name = some net.cfg ∧
    reg.net net.cfg.type = some builder ∧ Normal builder entities.nets net options
  servers : config.server = entities.servers.map fun server => (server.name, server.cfg)
  server : ∀ server ∈ entities.servers, ∃ builder options,
    reg.server server.cfg.type = some builder ∧ Normal builder entities.nets server options
  reached : ∀ name x, entities.nets name = some x →
    Occurs reg config ⟨.named name, name, config.net name⟩
  defaults : initDefaultNet config.net = config.net

section First

variable {reg : Registry} {config config' : Config} {entities : Entities} {fuel : ℕ}

/-- The rewritten config has the default nets. -/
theorem Complete.initDefaultNet_eq (h : Complete reg config entities config') :
    initDefaultNet config'.net = config'.net :=
  initDefaultNet_eq_self fun entry hmem =>
    h.keys entry.1 (isSome_initDefaultNet config.net entry hmem)

/-- A reference of the rewritten config, resolved to the same net as a reference of the
given one, is the name of that net. -/
theorem Complete.denote_again (h : Complete reg config entities config')
    {pre pre' : List String} {here : Origin} {ref ref' : NetRef} {name : String} {y : ℕ}
    (hrep : ref'.represent = .string name) (hname : entities.nets name = some y)
    (href : entities.nets (refName pre ref) = some y) :
    denote (initDefaultNet config'.net) pre' here ref' =
      ⟨.named (refName pre ref), refName pre ref,
        initDefaultNet config'.net (refName pre ref)⟩ := by
  have heq : name = refName pre ref := (h.nameOf_eq hname).symm.trans (h.nameOf_eq href)
  rw [denote_of_string hrep, heq]

/-- What was built for a reference can be reached in the rewritten config, by its name. -/
theorem Complete.reached (h : Complete reg config entities config') (lawful : reg.Lawful)
    (distinct : NamesDistinct reg config) {d : Denoted} (hd : Occurs reg config d) :
    Occurs reg config' ⟨.named d.name, d.name, initDefaultNet config'.net d.name⟩ := by
  induction hd with
  | @server k i name entry options ref hk hoptions href =>
      obtain ⟨server, y, hserver, hy, hnets⟩ := h.server_ref hk hoptions href
      obtain ⟨builder, options', outs, hbuilder, hwiring⟩ :=
        h.servers server (List.mem_of_getElem? hserver)
      have hnormal := hwiring.normal (lawful.server _ _ hbuilder)
      obtain ⟨ref', name', href', hrep, hname'⟩ := hnormal.of_getElem? hy
      have hk' : config'.server[k]? = some (server.name, server.cfg) := by
        rw [h.rewritten, List.getElem?_map, hserver]
        rfl
      rw [← hwiring.type] at hbuilder
      have hoccurs := Occurs.server hk'
        (Registry.serverOptions_eq_some.mpr ⟨builder, hbuilder, hnormal.read⟩) href'
      rw [h.denote_again hrep hname' hnets] at hoccurs
      rw [denote_name]
      exact hoccurs
  | @net d i entry options ref hd hentry hoptions href ih =>
      obtain ⟨x, hx⟩ := h.of_occurs distinct hd
      obtain ⟨net, y, hnet, hy, hnets⟩ := h.net_ref distinct hd hx hentry hoptions href
      obtain ⟨net', hnet', hcfg, hbuilt⟩ := h.builtFrom distinct hd hx
      rw [hnet] at hnet'
      cases hnet'
      obtain ⟨builder, options', outs, hbuilder, hwiring⟩ := hbuilt.wiring
      have hnormal := hwiring.normal (lawful.net _ _ hbuilder)
      obtain ⟨ref', name', href', hrep, hname'⟩ := hnormal.of_getElem? hy
      rw [← hwiring.type] at hbuilder
      have hcfg' : initDefaultNet config'.net d.name = some net.cfg := by
        rw [h.initDefaultNet_eq]
        exact hcfg
      have hoccurs := Occurs.net ih hcfg'
        (Registry.netOptions_eq_some.mpr ⟨builder, hbuilder, hnormal.read⟩) href'
      rw [h.denote_again hrep hname' hnets] at hoccurs
      rw [denote_name]
      exact hoccurs

/-- **The rewritten config describes what was built.** -/
theorem Complete.describes (h : Complete reg config entities config') (lawful : reg.Lawful)
    (distinct : NamesDistinct reg config) : Describes reg config' entities := by
  refine ⟨?_, h.rewritten, ?_, ?_, h.initDefaultNet_eq⟩
  · intro name x hx
    obtain ⟨d, net, _, hname, hnet, hcfg, hbuilt⟩ := h.finished name x hx
    obtain ⟨builder, options, outs, hbuilder, hwiring⟩ := hbuilt.wiring
    exact ⟨net, builder, _, hnet, hbuilt.name.trans hname, hcfg, hwiring.type ▸ hbuilder,
      hwiring.normal (lawful.net _ _ hbuilder)⟩
  · intro server hserver
    obtain ⟨builder, options, outs, hbuilder, hwiring⟩ := h.servers server hserver
    exact ⟨builder, _, hwiring.type ▸ hbuilder, hwiring.normal (lawful.server _ _ hbuilder)⟩
  · intro name x hx
    obtain ⟨d, _, hd, rfl, _⟩ := h.finished name x hx
    have hoccurs := h.reached lawful distinct hd
    rw [h.initDefaultNet_eq] at hoccurs
    exact hoccurs

/-- The nets that have been built hang together. -/
theorem buildEntities_linked (h : buildEntities reg fuel config = .ok (entities, config')) :
    (⟨config'.net, entities.nets, entities.running⟩ : Context).Linked reg := by
  obtain ⟨st, hload, hnets, hrunning, hnet, _⟩ := buildEntities_ok.mp h
  rw [hnets, hrunning, hnet]
  exact (loadServers_linked (Context.linked_initial reg config.net) hload).1

end First

namespace Describes

variable {reg : Registry} {config config₂ : Config} {entities entities₂ : Entities} {fuel : ℕ}

theorem nameOf_eq (h : Describes reg config entities) (name : String) (x : ℕ)
    (hx : entities.nets name = some x) : entities.nameOf x = name := by
  obtain ⟨net, _, _, hnet, hname, _⟩ := h.nets name x hx
  unfold Entities.nameOf
  rw [hnet]
  exact hname

/-- Only names of nets occur. -/
theorem of_occurs (h : Describes reg config entities) {d : Denoted}
    (hd : Occurs reg config d) : ∃ name x, entities.nets name = some x ∧
      d = ⟨.named name, name, config.net name⟩ := by
  induction hd with
  | @server k i name entry options ref hk hoptions href =>
      rw [h.servers, List.getElem?_map, Option.map_eq_some_iff] at hk
      obtain ⟨server, hserver, heq⟩ := hk
      cases heq
      obtain ⟨builder, options', hbuilder, hnormal⟩ :=
        h.server server (List.mem_of_getElem? hserver)
      have hoptions' := Registry.serverOptions_eq_some.mpr ⟨builder, hbuilder, hnormal.read⟩
      rw [hoptions] at hoptions'
      cases hoptions'
      obtain ⟨name', y, hrep, hy, _⟩ := hnormal.of_ref href
      exact ⟨name', y, hy, by rw [denote_of_string hrep, h.defaults]⟩
  | @net d i entry options ref _ hentry hoptions href ih =>
      obtain ⟨name, x, hx, rfl⟩ := ih
      obtain ⟨net, builder, options', _, _, hcfg, hbuilder, hnormal⟩ := h.nets name x hx
      rw [hcfg] at hentry
      cases hentry
      have hoptions' := Registry.netOptions_eq_some.mpr ⟨builder, hbuilder, hnormal.read⟩
      rw [hoptions] at hoptions'
      cases hoptions'
      obtain ⟨name', y, hrep, hy, _⟩ := hnormal.of_ref href
      exact ⟨name', y, hy, by rw [denote_of_string hrep, h.defaults]⟩

theorem namesDistinct (h : Describes reg config entities) : NamesDistinct reg config := by
  intro d₁ d₂ h₁ h₂ hname
  obtain ⟨name₁, _, _, rfl⟩ := h.of_occurs h₁
  obtain ⟨name₂, _, _, rfl⟩ := h.of_occurs h₂
  exact congrArg Origin.named hname

/-- The nets can be built in the order in which they were built before. -/
theorem plan (h : Describes reg config entities)
    (linked : (⟨config.net, entities.nets, entities.running⟩ : Context).Linked reg) :
    Plan reg (initDefaultNet config.net) (fun name => ∃ x, entities.nets name = some x)
      fun name => (entities.nets name).getD 0 := by
  rintro name ⟨x, hx⟩
  obtain ⟨net, builder, options, hnet, _, hcfg, hbuilder, hnormal⟩ := h.nets name x hx
  refine ⟨net.cfg, builder, options, ?_, hbuilder, hnormal.buildable, ?_⟩
  · rw [h.defaults]
    exact hcfg
  · intro ref href
    obtain ⟨i, hi⟩ := List.mem_iff_getElem?.mp href
    obtain ⟨name', y, hrep, hy, hyi⟩ := hnormal.of_ref hi
    obtain ⟨_, _, hwired⟩ := linked.wired x net hnet
    obtain ⟨_, _, hlt, _⟩ := exists_of_mem_right hwired (List.mem_of_getElem? hyi)
    refine ⟨name', hrep, ⟨y, hy⟩, ?_⟩
    show (entities.nets name').getD 0 < (entities.nets name).getD 0
    rw [hx, hy]
    exact hlt

/-- **A described config is built again.** -/
theorem succeeds (h : Describes reg config entities)
    (noPlaceholder : reg.net placeholder.type = none)
    (linked : (⟨config.net, entities.nets, entities.running⟩ : Context).Linked reg) :
    ∃ entities₂ config₂,
      buildEntities reg entities.running.length config = .ok (entities₂, config₂) := by
  obtain ⟨servers, st, hload⟩ := loadServers_succeeds noPlaceholder h.namesDistinct
    (h.plan linked) entities.running.length (by
      rintro name ⟨x, hx⟩
      rw [hx]
      exact (linked.cached name x hx).lt)
    (by
      intro server hserver
      rw [h.servers] at hserver
      obtain ⟨built, hbuilt, rfl⟩ := List.mem_map.mp hserver
      obtain ⟨builder, options, hbuilder, hnormal⟩ := h.server built hbuilt
      refine ⟨builder, options, hbuilder, hnormal.buildable, ?_⟩
      intro ref href
      obtain ⟨i, hi⟩ := List.mem_iff_getElem?.mp href
      obtain ⟨name, y, hrep, hy, _⟩ := hnormal.of_ref hi
      exact ⟨name, hrep, y, hy⟩)
    config.server 0 _ List.drop_zero Building.initial
  exact ⟨⟨st.netCache, servers, st.nets⟩,
    ⟨st.config, servers.map fun server => (server.name, server.cfg)⟩,
    buildEntities_ok.mpr ⟨st, hload, rfl, rfl, rfl, rfl⟩⟩

variable (h : Describes reg config entities) (h₂ : Complete reg config entities₂ config₂)

include h h₂

/-- The nets of the second build: each has the configuration of the net of that name, and
refers to the same names. -/
theorem net_again {name : String} {x₂ : ℕ} (hx₂ : entities₂.nets name = some x₂) :
    ∃ x net net₂, entities.nets name = some x ∧ entities.running[x]? = some net ∧
      entities₂.running[x₂]? = some net₂ ∧ config₂.net name = some net₂.cfg ∧
      config.net name = some net.cfg ∧ net₂.cfg = net.cfg ∧
      net₂.refs.map entities₂.nameOf = net.refs.map entities.nameOf := by
  obtain ⟨d, net₂, hd, hname, hnet₂, hcfg₂, hbuilt⟩ := h₂.finished name x₂ hx₂
  obtain ⟨name', x, hx, rfl⟩ := h.of_occurs hd
  cases hname
  obtain ⟨net, builder, options, hnet, _, hcfg, hbuilder, hnormal⟩ := h.nets _ x hx
  have hgiven := hbuilt.entry
  rw [hcfg] at hgiven
  have hgiven := (Option.some.inj hgiven).symm
  obtain ⟨builder₂, options₂, outs, hbuilder₂, hwiring⟩ := hbuilt.wiring
  rw [hgiven, hbuilder] at hbuilder₂
  cases hbuilder₂
  obtain ⟨hsame, hrefs⟩ := hnormal.again hwiring hgiven h.nameOf_eq fun _ _ => h₂.nameOf_eq
  exact ⟨x, net, net₂, hx, hnet, hnet₂, hcfg₂, hcfg, hsame, hrefs⟩

/-- The servers of the second build. -/
theorem server_again {server server₂ : Built} (hserver : server ∈ entities.servers)
    (hserver₂ : server₂ ∈ entities₂.servers) (hgiven : server₂.given = server.cfg) :
    server₂.cfg = server.cfg ∧
      server₂.refs.map entities₂.nameOf = server.refs.map entities.nameOf := by
  obtain ⟨builder, options, hbuilder, hnormal⟩ := h.server server hserver
  obtain ⟨builder₂, options₂, outs, hbuilder₂, hwiring⟩ := h₂.servers server₂ hserver₂
  rw [hgiven, hbuilder] at hbuilder₂
  cases hbuilder₂
  exact hnormal.again hwiring hgiven h.nameOf_eq fun _ _ => h₂.nameOf_eq

/-- The second build has the same graph. -/
theorem graph_again : entities₂.graph = entities.graph := by
  funext name
  unfold Entities.graph
  rcases hx : entities.nets name with _ | x
  · rcases hx₂ : entities₂.nets name with _ | x₂
    · rfl
    · obtain ⟨x, _, _, hx', _⟩ := h.net_again h₂ hx₂
      rw [hx] at hx'
      cases hx'
  · -- a net of the first build is reached in the rewritten config, hence built again
    obtain ⟨x₂, hx₂⟩ := h₂.of_occurs h.namesDistinct (h.reached name x hx)
    obtain ⟨x', net, net₂, hx', hnet, hnet₂, _, _, hcfg, hrefs⟩ := h.net_again h₂ hx₂
    rw [hx] at hx'
    cases hx'
    dsimp only at hx₂
    rw [hx₂]
    show Option.map _ _ = Option.map _ _
    rw [hnet, hnet₂, Option.map_some, Option.map_some, hcfg, hrefs]

/-- The servers of the two builds correspond. -/
theorem servers_again : List.Forall₂ (fun server₂ server => server₂.name = server.name ∧
    server₂.cfg = server.cfg ∧
    server₂.refs.map entities₂.nameOf = server.refs.map entities.nameOf)
    entities₂.servers entities.servers := by
  have hgiven := h₂.given
  rw [h.servers, ← List.forall₂_eq_eq_eq, List.forall₂_map_left_iff,
    List.forall₂_map_right_iff, List.forall₂_iff_zip] at hgiven
  rw [List.forall₂_iff_zip]
  refine ⟨hgiven.1, ?_⟩
  intro server₂ server hmem
  obtain ⟨hname, hcfg⟩ := Prod.mk.inj (hgiven.2 hmem)
  obtain ⟨hserver₂, hserver⟩ := List.of_mem_zip hmem
  exact ⟨hname, h.server_again h₂ hserver hserver₂ hcfg⟩

theorem serverGraph_again : entities₂.serverGraph = entities.serverGraph := by
  unfold Entities.serverGraph
  rw [← List.forall₂_eq_eq_eq, List.forall₂_map_left_iff, List.forall₂_map_right_iff]
  refine (h.servers_again h₂).imp ?_
  rintro server₂ server ⟨hname, hcfg, hrefs⟩
  rw [hname, hcfg, hrefs]

/-- **The second build changes nothing.** -/
theorem config_again : config₂ = config := by
  have hnet : config₂.net = config.net := by
    funext name
    rcases hx₂ : entities₂.nets name with _ | x₂
    · -- not built again, and not inserted either: only names occur
      rw [h₂.untouched name hx₂, h.defaults]
      intro d hd hname
      obtain ⟨_, _, _, rfl⟩ := h.of_occurs hd
      exact congrArg Origin.named hname
    · obtain ⟨_, _, _, _, _, _, hcfg₂, hcfg, hsame, _⟩ := h.net_again h₂ hx₂
      rw [hcfg₂, hcfg, hsame]
  have hserver : config₂.server = config.server := by
    rw [h₂.rewritten, h.servers, ← List.forall₂_eq_eq_eq, List.forall₂_map_left_iff,
      List.forall₂_map_right_iff]
    refine (h.servers_again h₂).imp ?_
    rintro server₂ server ⟨hname, hcfg, _⟩
    rw [hname, hcfg]
  obtain ⟨net₂, servers₂⟩ := config₂
  cases hnet
  cases hserver
  rfl

end Describes

/-! ## Faithfulness -/

section Faithful

variable {reg : Registry} {config config' : Config} {entities : Entities} {fuel : ℕ}

/-- **A config with distinct names is flattened faithfully.** -/
theorem NamesDistinct.faithful (distinct : NamesDistinct reg config) (lawful : reg.Lawful)
    (h : buildEntities reg fuel config = .ok (entities, config')) :
    Faithful reg config entities config' := by
  have hcomplete := buildEntities_complete lawful.noPlaceholder distinct h
  have hdescribes := hcomplete.describes lawful distinct
  refine ⟨hcomplete.given, ?_, ?_, ?_, ⟨hcomplete.rewritten, ?_⟩, ?_⟩
  · intro d x hreads
    obtain ⟨net, hnet, _, hbuilt⟩ :=
      hcomplete.builtFrom distinct hreads.occurs (hcomplete.of_reads distinct hreads)
    exact ⟨net, hnet, hbuilt.entry⟩
  · intro d₁ d₂ x h₁ h₂
    have hname₁ := hcomplete.nameOf_eq (hcomplete.of_reads distinct h₁)
    have hname₂ := hcomplete.nameOf_eq (hcomplete.of_reads distinct h₂)
    exact distinct d₁ d₂ h₁.occurs h₂.occurs (hname₁.symm.trans hname₂)
  · intro d x net hreads hnet
    have hx := hcomplete.of_reads distinct hreads
    obtain ⟨net', builder, options, hnet', hname, hcfg, hbuilder, hnormal⟩ :=
      hdescribes.nets d.name x hx
    rw [hnet] at hnet'
    cases hnet'
    rw [hname]
    exact ⟨hx, hcfg, options, Registry.netOptions_eq_some.mpr ⟨builder, hbuilder, hnormal.read⟩,
      hnormal.represents hdescribes.nameOf_eq⟩
  · intro server hserver
    obtain ⟨builder, options, hbuilder, hnormal⟩ := hdescribes.server server hserver
    exact ⟨options, Registry.serverOptions_eq_some.mpr ⟨builder, hbuilder, hnormal.read⟩,
      hnormal.represents hdescribes.nameOf_eq⟩
  · obtain ⟨entities₂, config₂, hagain⟩ :=
      hdescribes.succeeds lawful.noPlaceholder (buildEntities_linked h)
    have hcomplete₂ :=
      buildEntities_complete lawful.noPlaceholder hdescribes.namesDistinct hagain
    rw [hdescribes.config_again hcomplete₂] at hagain
    exact ⟨_, entities₂, hagain, hdescribes.graph_again hcomplete₂,
      hdescribes.serverGraph_again hcomplete₂⟩

/-- **Flattening is faithful exactly if names are distinct.**  Of a config from which
`build_entities` builds: every reference was resolved to what it denotes, the rewritten
config describes the result and leads to it again, if and only if no two places in the
config share a name. -/
theorem flatten_faithful_iff (lawful : reg.Lawful)
    (h : buildEntities reg fuel config = .ok (entities, config')) :
    Faithful reg config entities config' ↔ NamesDistinct reg config :=
  ⟨fun hfaithful => hfaithful.namesDistinct h, fun distinct => distinct.faithful lawful h⟩

end Faithful

/-! ### Distinct names and shared ones -/

theorem emptyConfig_roundTrips : RoundTrips emptyConfig := by
  intro cfg options outs cfg' hread _ _ hwrite
  cases hread
  cases hwrite
  rfl

theorem aliasNet_roundTrips : RoundTrips aliasNet := by
  intro cfg options outs cfg' hread hlength _ hwrite
  cases cfg with
  | object fields =>
      rcases hnet : fields.lookup "net" with _ | net
      · simp [aliasNet, hnet] at hread
      · have hoptions : (⟨.null, [⟨["net"], net⟩]⟩ : Options) = options := by
          simpa [aliasNet, hnet] using hread
        subst hoptions
        obtain ⟨out, rfl⟩ := List.length_eq_one_iff.mp hlength
        cases hwrite
        rfl
  | _ => cases hread

theorem echoServer_roundTrips : RoundTrips echoServer := by
  intro cfg options outs cfg' hread hlength _ hwrite
  cases cfg with
  | object fields =>
      rcases hbind : fields.lookup "bind" with _ | bind
      · simp [echoServer, hbind] at hread
      · have hoptions : (⟨bind, [⟨["listen"],
            (fields.lookup "listen").getD (.string "local")⟩]⟩ : Options) = options := by
          simpa [echoServer, hbind] using hread
        subst hoptions
        obtain ⟨out, rfl⟩ := List.length_eq_one_iff.mp hlength
        cases hwrite
        rfl
  | _ => cases hread

theorem stdRegistry_lawful : stdRegistry.Lawful where
  noPlaceholder := rfl
  net := by
    intro type builder h
    simp only [stdRegistry] at h
    split_ifs at h
    · cases h
      exact aliasNet_roundTrips
    · cases h
      exact emptyConfig_roundTrips
  server := by
    intro type builder h
    simp only [stdRegistry] at h
    split_ifs at h
    cases h
    exact echoServer_roundTrips

/-- A server that listens on an alias of a net, all inline. -/
def nestedConfig : Config where
  net _ := none
  server := [("echo", ⟨"echo", .object [("bind", .string "127.0.0.1:7"),
    ("listen", .object [("type", .string "alias"),
      ("net", .object [("type", .string "noop")])])]⟩)]

/-- What the server refers to. -/
theorem occurs_nestedConfig {d : Denoted} (h : Occurs stdRegistry nestedConfig d) :
    d = ⟨.inServer 0 0, "server/echo/listen",
        some ⟨"alias", .object [("net", .object [("type", .string "noop")])]⟩⟩ ∨
      d = ⟨.inNet (.inServer 0 0) 0, "net/server/echo/listen/net",
        some ⟨"noop", .object []⟩⟩ := by
  induction h with
  | @server k i name entry options ref hk hoptions href =>
      cases k with
      | succ k => cases hk
      | zero =>
          cases hk
          cases hoptions
          cases i with
          | succ i => cases href
          | zero =>
              cases href
              exact .inl rfl
  | @net d i entry options ref _ hentry hoptions href ih =>
      rcases ih with rfl | rfl
      · cases hentry
        cases hoptions
        cases i with
        | succ i => cases href
        | zero =>
            cases href
            exact .inr rfl
      · cases hentry
        cases hoptions
        cases href

/-- Nested inline nets are flattened faithfully. -/
theorem flatten_faithful_nested :
    ∃ entities config', buildEntities stdRegistry 2 nestedConfig = .ok (entities, config') ∧
      stdRegistry.Lawful ∧ NamesDistinct stdRegistry nestedConfig ∧
      Faithful stdRegistry nestedConfig entities config' := by
  obtain ⟨entities, config', hbuild⟩ : ∃ entities config',
      buildEntities stdRegistry 2 nestedConfig = .ok (entities, config') := ⟨_, _, rfl⟩
  have distinct : NamesDistinct stdRegistry nestedConfig := by
    intro d₁ d₂ h₁ h₂ hname
    rcases occurs_nestedConfig h₁ with rfl | rfl <;>
      rcases occurs_nestedConfig h₂ with rfl | rfl
    · rfl
    · exact absurd hname (by decide)
    · exact absurd hname (by decide)
    · rfl
  exact ⟨entities, config', hbuild, stdRegistry_lawful, distinct,
    (flatten_faithful_iff stdRegistry_lawful hbuild).mpr distinct⟩

/-- A net has the name that is generated for the inline net of a server, and another
server refers to it. -/
def sharedName : Config where
  net name := if name = "server/echo/listen" then some ⟨"blackhole", .object []⟩ else none
  server := [
    ("echo", ⟨"echo", .object [("bind", .string "127.0.0.1:7"),
      ("listen", .object [("type", .string "noop")])]⟩),
    ("other", ⟨"echo", .object [("bind", .string "127.0.0.1:8"),
      ("listen", .string "server/echo/listen")]⟩)]

/-- The server gets the inline net of the first server instead, and the net it refers to
is no longer in the config. -/
theorem entry_replaced_by_inline_net :
    ∃ entities config', buildEntities stdRegistry 1 sharedName = .ok (entities, config') ∧
      sharedName.net "server/echo/listen" = some ⟨"blackhole", .object []⟩ ∧
      config'.net "server/echo/listen" = some ⟨"noop", .object []⟩ ∧
      (∃ x net, Reads stdRegistry sharedName entities ⟨.named "server/echo/listen",
          "server/echo/listen", some ⟨"blackhole", .object []⟩⟩ x ∧
        entities.running[x]? = some net ∧ net.given = ⟨"noop", .object []⟩) ∧
      ¬ Faithful stdRegistry sharedName entities config' := by
  obtain ⟨entities, config', hbuild, hentry, other, net, hother, hrefs, hnet, hgiven⟩ :
      ∃ entities config', buildEntities stdRegistry 1 sharedName = .ok (entities, config') ∧
        config'.net "server/echo/listen" = some ⟨"noop", .object []⟩ ∧
        ∃ other net, entities.servers[1]? = some other ∧ other.refs[0]? = some 0 ∧
          entities.running[0]? = some net ∧ net.given = ⟨"noop", .object []⟩ :=
    ⟨_, _, rfl, rfl, _, _, rfl, rfl, rfl, rfl⟩
  have hreads : Reads stdRegistry sharedName entities ⟨.named "server/echo/listen",
      "server/echo/listen", some ⟨"blackhole", .object []⟩⟩ 0 := by
    show Reads stdRegistry sharedName entities (denote (initDefaultNet sharedName.net)
      ["server", "other"] (.inServer 1 0) ⟨["listen"], .string "server/echo/listen"⟩) 0
    exact .server (k := 1) (i := 0) rfl hother rfl rfl hrefs
  refine ⟨entities, config', hbuild, rfl, hentry, ⟨0, net, hreads, hnet, hgiven⟩, ?_⟩
  intro hfaithful
  obtain ⟨net', hnet', heq⟩ := hfaithful.built _ _ hreads
  rw [hnet] at hnet'
  cases hnet'
  rw [hgiven] at heq
  have htype := congrArg Entry.type (Option.some.inj heq)
  exact absurd htype (by decide)

end RabbitDigger.Build
