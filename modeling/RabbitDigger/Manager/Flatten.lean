import RabbitDigger.Manager.Denotation

/-!
# Flattening with distinct names

`BuildContext::get_net` runs through the references depth first, with a config that
changes under it: entries disappear behind a placeholder while their nets are being
built, inline nets appear, finished entries come back rewritten.  This module follows it
on configs with **distinct names** and shows that none of these changes ever meets a
reader it was not meant for.

The invariant `Building` relates the three places a net can be in:

* **in progress**, one of the frames of the recursion: its entry is the placeholder;
* **finished**, in the cache: its entry is what it was built from, rewritten, and all
  its references are finished;
* **neither**: a name that was given still has the entry it was given with.

An inline net is inserted the moment its reference is visited, and never again; for this
the invariant knows which references have been `Started`.
-/

namespace RabbitDigger.Build

/-- A net whose references are being resolved, and how many have been started. -/
structure Frame where
  net : Denoted
  started : ℕ

/-- The references of a built net or server have been resolved: each is represented by
its name, and the net of that name is in the cache. -/
structure Wiring (builder : Builder) (pre : List String) (cache : String → Option ℕ)
    (item : Built) (options : Options) (outs : List (Value × ℕ)) : Prop where
  read : builder.fromValue item.given.opt = .ok options
  write : builder.toValue (options.resolved outs) = .ok item.cfg.opt
  build : builder.build (options.resolved outs) = .ok ()
  type : item.cfg.type = item.given.type
  refs : item.refs = outs.map Prod.snd
  resolved : List.Forall₂ (fun ref out => out.1 = .string (refName pre ref) ∧
    cache (refName pre ref) = some out.2) options.refs outs

/-- Nothing leaves the cache. -/
def Extends (cache cache' : String → Option ℕ) : Prop :=
  ∀ name x, cache name = some x → cache' name = some x

theorem Extends.refl (cache : String → Option ℕ) : Extends cache cache := fun _ _ h => h

theorem Extends.trans {cache₁ cache₂ cache₃ : String → Option ℕ}
    (h₁ : Extends cache₁ cache₂) (h₂ : Extends cache₂ cache₃) : Extends cache₁ cache₃ :=
  fun name x h => h₂ name x (h₁ name x h)

theorem Wiring.mono {builder : Builder} {pre : List String}
    {cache cache' : String → Option ℕ} (hextends : Extends cache cache') {item : Built}
    {options : Options} {outs : List (Value × ℕ)}
    (h : Wiring builder pre cache item options outs) :
    Wiring builder pre cache' item options outs :=
  { h with resolved := h.resolved.imp fun _ _ hout => ⟨hout.1, hextends _ _ hout.2⟩ }

/-- A reference of what was built was resolved to the net of its name. -/
theorem Wiring.of_ref {builder : Builder} {pre : List String} {cache : String → Option ℕ}
    {item : Built} {options : Options} {outs : List (Value × ℕ)}
    (h : Wiring builder pre cache item options outs) {i : ℕ} {ref : NetRef}
    (href : options.refs[i]? = some ref) :
    ∃ x, item.refs[i]? = some x ∧ cache (refName pre ref) = some x := by
  obtain ⟨out, hout, _, hx⟩ := exists_of_getElem?_left h.resolved href
  refine ⟨out.2, ?_, hx⟩
  rw [h.refs, List.getElem?_map, hout]
  rfl

section Config

variable (reg : Registry) (config : Config)

/-- The references that have been started: those of the servers, as `done` says, those
of the nets in progress up to a point, and all of the nets that are finished. -/
inductive Started (frames : List Frame) (done : ℕ → ℕ → Prop)
    (cache : String → Option ℕ) : Origin → Prop where
  | named (name : String) : Started frames done cache (.named name)
  | server {k i : ℕ} : done k i → Started frames done cache (.inServer k i)
  | frame {frame : Frame} {i : ℕ} : frame ∈ frames → i < frame.started →
      Started frames done cache (.inNet frame.net.origin i)
  | cached {d : Denoted} {x i : ℕ} : Occurs reg config d → cache d.name = some x →
      Started frames done cache (.inNet d.origin i)

/-- A net was built from what a reference denotes. -/
structure BuiltFrom (cache : String → Option ℕ) (d : Denoted) (net : Built) : Prop where
  name : net.name = d.name
  entry : d.entry = some net.given
  wiring : ∃ builder options outs, reg.net net.given.type = some builder ∧
    Wiring builder ["net", d.name] cache net options outs

/-- **The state of a build** with these nets in progress. -/
structure Building (frames : List Frame) (done : ℕ → ℕ → Prop) (st : Context) : Prop where
  inProgress : ∀ frame ∈ frames, Occurs reg config frame.net ∧
    st.netCache frame.net.name = none ∧ st.config frame.net.name = some placeholder ∧
    Started reg config frames done st.netCache frame.net.origin
  nodup : (frames.map fun frame => frame.net.name).Nodup
  finished : ∀ name x, st.netCache name = some x → ∃ d net, Occurs reg config d ∧
    d.name = name ∧ Started reg config frames done st.netCache d.origin ∧
    st.nets[x]? = some net ∧ st.config name = some net.cfg ∧
    BuiltFrom reg st.netCache d net
  given : ∀ name, st.netCache name = none → (∀ frame ∈ frames, frame.net.name ≠ name) →
    (∀ d, Occurs reg config d → d.name = name → d.origin = .named name) →
    st.config name = initDefaultNet config.net name
  keys : ∀ name, (initDefaultNet config.net name).isSome → (st.config name).isSome

end Config

variable {reg : Registry} {config : Config} {frames frames' : List Frame}
  {done done' : ℕ → ℕ → Prop} {st : Context} {d : Denoted}

/-- What has been started stays started. -/
theorem Started.mono {cache cache' : String → Option ℕ} {origin : Origin}
    (h : Started reg config frames done cache origin)
    (hframes : ∀ frame ∈ frames, (∃ frame' ∈ frames', frame'.net = frame.net ∧
      frame.started ≤ frame'.started) ∨
      Occurs reg config frame.net ∧ ∃ x, cache' frame.net.name = some x)
    (hdone : ∀ k i, done k i → done' k i) (hcache : Extends cache cache') :
    Started reg config frames' done' cache' origin := by
  cases h with
  | named name => exact .named name
  | server h => exact .server (hdone _ _ h)
  | frame hmem hlt =>
      rcases hframes _ hmem with ⟨frame', hmem', hnet, hle⟩ | ⟨hoccurs, x, hx⟩
      · rw [← hnet]
        exact .frame hmem' (Nat.lt_of_lt_of_le hlt hle)
      · exact .cached hoccurs hx
  | cached hoccurs hx => exact .cached hoccurs (hcache _ _ hx)

theorem Started.of_subset {cache : String → Option ℕ} {origin : Origin}
    (h : Started reg config frames done cache origin) (hsub : frames ⊆ frames') :
    Started reg config frames' done cache origin :=
  h.mono (fun frame hmem => .inl ⟨frame, hsub hmem, rfl, Nat.le_refl _⟩) (fun _ _ h => h)
    (.refl _)

theorem BuiltFrom.mono {cache cache' : String → Option ℕ} (hextends : Extends cache cache')
    {net : Built} (h : BuiltFrom reg cache d net) : BuiltFrom reg cache' d net := by
  obtain ⟨builder, options, outs, hbuilder, hwiring⟩ := h.wiring
  exact ⟨h.name, h.entry, builder, options, outs, hbuilder, hwiring.mono hextends⟩

/-! ## Steps of a build -/

/-- What occurs and has not been started is neither finished nor in progress. -/
theorem Building.not_started (hst : Building reg config frames done st)
    (distinct : NamesDistinct reg config) (hd : Occurs reg config d)
    (hnew : ¬ Started reg config frames done st.netCache d.origin) :
    st.netCache d.name = none ∧ ∀ frame ∈ frames, frame.net.name ≠ d.name := by
  constructor
  · rcases hx : st.netCache d.name with _ | x
    · rfl
    · obtain ⟨d', _, hd', hname, hstarted, _⟩ := hst.finished d.name x hx
      obtain rfl := distinct.eq hd' hd hname
      exact absurd hstarted hnew
  · intro frame hmem hname
    obtain ⟨hoccurs, _, _, hstarted⟩ := hst.inProgress frame hmem
    have heq := distinct.eq hoccurs hd hname
    rw [heq] at hstarted
    exact hnew hstarted

/-- An inline net is inserted into the config. -/
theorem Building.insert (hst : Building reg config frames done st)
    (hd : Occurs reg config d) (hinline : ∀ name, d.origin ≠ .named name)
    (hcache : st.netCache d.name = none) (hframes : ∀ frame ∈ frames, frame.net.name ≠ d.name)
    (entry : Entry) :
    Building reg config frames done
      { st with config := Function.update st.config d.name (some entry) } where
  inProgress := by
    intro frame hmem
    obtain ⟨hoccurs, hnone, hplaceholder, hstarted⟩ := hst.inProgress frame hmem
    refine ⟨hoccurs, hnone, ?_, hstarted⟩
    show Function.update st.config d.name (some entry) frame.net.name = _
    rw [Function.update_of_ne (hframes frame hmem)]
    exact hplaceholder
  nodup := hst.nodup
  finished := by
    intro name x hx
    obtain ⟨d', net, hoccurs, hname, hstarted, hnet, hcfg, hbuilt⟩ := hst.finished name x hx
    refine ⟨d', net, hoccurs, hname, hstarted, hnet, ?_, hbuilt⟩
    have hne : name ≠ d.name := by
      rintro rfl
      rw [hcache] at hx
      cases hx
    show Function.update st.config d.name (some entry) name = _
    rw [Function.update_of_ne hne]
    exact hcfg
  given := by
    intro name hnone hopen hnamed
    -- the name of an inline net is not a name that was given
    have hne : name ≠ d.name := by
      rintro rfl
      exact hinline d.name (hnamed d hd rfl)
    show Function.update st.config d.name (some entry) name = _
    rw [Function.update_of_ne hne]
    exact hst.given name hnone hopen hnamed
  keys := by
    intro name hsome
    show (Function.update st.config d.name (some entry) name).isSome
    by_cases hname : name = d.name
    · rw [hname, Function.update_self]
      rfl
    · rw [Function.update_of_ne hname]
      exact hst.keys name hsome

/-- A net is taken out of the config to be built. -/
theorem Building.hide (hst : Building reg config frames done st) (hd : Occurs reg config d)
    (hstarted : Started reg config frames done st.netCache d.origin)
    (hcache : st.netCache d.name = none)
    (hframes : ∀ frame ∈ frames, frame.net.name ≠ d.name) :
    Building reg config (⟨d, 0⟩ :: frames) done (st.hide d.name) where
  inProgress := by
    intro frame hmem
    rcases List.mem_cons.mp hmem with rfl | hmem
    · exact ⟨hd, hcache, Function.update_self _ _ _,
        hstarted.of_subset (List.subset_cons_self _ _)⟩
    · obtain ⟨hoccurs, hnone, hplaceholder, hframe⟩ := hst.inProgress frame hmem
      refine ⟨hoccurs, hnone, ?_, hframe.of_subset (List.subset_cons_self _ _)⟩
      show Function.update st.config d.name _ frame.net.name = _
      rw [Function.update_of_ne (hframes frame hmem)]
      exact hplaceholder
  nodup := by
    rw [List.map_cons, List.nodup_cons]
    refine ⟨?_, hst.nodup⟩
    intro hmem
    obtain ⟨frame, hframe, hname⟩ := List.mem_map.mp hmem
    exact hframes frame hframe hname
  finished := by
    intro name x hx
    obtain ⟨d', net, hoccurs, hname, hs, hnet, hcfg, hbuilt⟩ := hst.finished name x hx
    refine ⟨d', net, hoccurs, hname, hs.of_subset (List.subset_cons_self _ _), hnet, ?_,
      hbuilt⟩
    have hne : name ≠ d.name := by
      rintro rfl
      have hx' : st.netCache d.name = some x := hx
      rw [hcache] at hx'
      cases hx'
    show Function.update st.config d.name _ name = _
    rw [Function.update_of_ne hne]
    exact hcfg
  given := by
    intro name hnone hopen hnamed
    have hne : name ≠ d.name := Ne.symm (hopen ⟨d, 0⟩ (by simp))
    show Function.update st.config d.name _ name = _
    rw [Function.update_of_ne hne]
    exact hst.given name hnone (fun frame hmem => hopen frame (by simp [hmem])) hnamed
  keys := by
    intro name hsome
    show (Function.update st.config d.name (some placeholder) name).isSome
    by_cases hname : name = d.name
    · rw [hname, Function.update_self]
      rfl
    · rw [Function.update_of_ne hname]
      exact hst.keys name hsome

/-- Starting more references, in the servers or in the net that is being built. -/
theorem Building.start (hst : Building reg config frames done st)
    (hnames : frames'.map Frame.net = frames.map Frame.net)
    (hframes : ∀ frame ∈ frames, ∃ frame' ∈ frames', frame'.net = frame.net ∧
      frame.started ≤ frame'.started)
    (hdone : ∀ k i, done k i → done' k i) : Building reg config frames' done' st := by
  have hmono : ∀ origin, Started reg config frames done st.netCache origin →
      Started reg config frames' done' st.netCache origin :=
    fun origin h => h.mono (fun frame hmem => .inl (hframes frame hmem)) hdone (.refl _)
  have hback : ∀ frame' ∈ frames', ∃ frame ∈ frames, frame.net = frame'.net := by
    intro frame' hmem
    have hnet : frame'.net ∈ frames.map Frame.net :=
      hnames ▸ List.mem_map_of_mem (f := Frame.net) hmem
    obtain ⟨frame, hframe, heq⟩ := List.mem_map.mp hnet
    exact ⟨frame, hframe, heq⟩
  constructor
  · intro frame' hmem
    obtain ⟨frame, hframe, heq⟩ := hback frame' hmem
    obtain ⟨hoccurs, hnone, hplaceholder, hstarted⟩ := hst.inProgress frame hframe
    rw [← heq]
    exact ⟨hoccurs, hnone, hplaceholder, hmono _ hstarted⟩
  · have hmap : frames'.map (fun frame => frame.net.name) =
        frames.map fun frame => frame.net.name := by
      have := congrArg (List.map Denoted.name) hnames
      rwa [List.map_map, List.map_map] at this
    rw [hmap]
    exact hst.nodup
  · intro name x hx
    obtain ⟨d', net, hoccurs, hname, hstarted, hrest⟩ := hst.finished name x hx
    exact ⟨d', net, hoccurs, hname, hmono _ hstarted, hrest⟩
  · intro name hnone hopen hnamed
    refine hst.given name hnone ?_ hnamed
    intro frame hmem
    obtain ⟨frame', hmem', heq, _⟩ := hframes frame hmem
    rw [← heq]
    exact hopen frame' hmem'
  · exact hst.keys

/-- The net being built is finished. -/
theorem Building.store {k : ℕ} (hst : Building reg config (⟨d, k⟩ :: frames) done st)
    {net : Built} (hbuilt : BuiltFrom reg st.netCache d net) :
    Building reg config frames done (st.store net) ∧
      Extends st.netCache (st.store net).netCache := by
  obtain ⟨hd, hcache, _, hstarted⟩ := hst.inProgress ⟨d, k⟩ (by simp)
  have hnodup := hst.nodup
  rw [List.map_cons, List.nodup_cons] at hnodup
  have hname := hbuilt.name
  have hstored : (st.store net).netCache d.name = some st.nets.length := by
    show Function.update st.netCache net.name _ d.name = _
    rw [hname, Function.update_self]
  have hother : ∀ name, name ≠ d.name → (st.store net).netCache name = st.netCache name := by
    intro name hne
    show Function.update st.netCache net.name _ name = _
    rw [hname, Function.update_of_ne hne]
  have hconfig : ∀ name, name ≠ d.name → (st.store net).config name = st.config name := by
    intro name hne
    show Function.update st.config net.name _ name = _
    rw [hname, Function.update_of_ne hne]
  have hextends : Extends st.netCache (st.store net).netCache := by
    intro name x hx
    rw [hother name]
    · exact hx
    · rintro rfl
      rw [hcache] at hx
      cases hx
  -- what was started because `d` was in progress is now because `d` is finished
  have hmono : ∀ origin, Started reg config (⟨d, k⟩ :: frames) done st.netCache origin →
      Started reg config frames done (st.store net).netCache origin := by
    intro origin h
    refine h.mono ?_ (fun _ _ h => h) hextends
    intro frame hmem
    rcases List.mem_cons.mp hmem with rfl | hmem
    · exact .inr ⟨hd, _, hstored⟩
    · exact .inl ⟨frame, hmem, rfl, Nat.le_refl _⟩
  refine ⟨⟨?_, hnodup.2, ?_, ?_, ?_⟩, hextends⟩
  · intro frame hmem
    obtain ⟨hoccurs, hnone, hplaceholder, hframe⟩ := hst.inProgress frame (by simp [hmem])
    have hne : frame.net.name ≠ d.name := by
      intro heq
      exact hnodup.1 (List.mem_map.mpr ⟨frame, hmem, heq⟩)
    exact ⟨hoccurs, by rw [hother _ hne, hnone], by rw [hconfig _ hne, hplaceholder],
      hmono _ hframe⟩
  · intro name x hx
    by_cases hne : name = d.name
    · subst hne
      rw [hstored] at hx
      cases hx
      refine ⟨d, net, hd, rfl, hmono _ hstarted, by simp [Context.store], ?_,
        hbuilt.mono hextends⟩
      show Function.update st.config net.name _ d.name = _
      rw [hname, Function.update_self]
    · rw [hother name hne] at hx
      obtain ⟨d', net', hoccurs, hname', hs, hnet, hcfg, hbuilt'⟩ := hst.finished name x hx
      refine ⟨d', net', hoccurs, hname', hmono _ hs, ?_, by rw [hconfig name hne, hcfg],
        hbuilt'.mono hextends⟩
      show (st.nets ++ [net])[x]? = _
      rw [List.getElem?_append_left (List.getElem?_eq_some_iff.mp hnet).1]
      exact hnet
  · intro name hnone hopen hnamed
    have hne : name ≠ d.name := by
      rintro rfl
      rw [hstored] at hnone
      cases hnone
    rw [hother name hne] at hnone
    rw [hconfig name hne]
    refine hst.given name hnone ?_ hnamed
    intro frame hmem
    rcases List.mem_cons.mp hmem with rfl | hmem
    · exact Ne.symm hne
    · exact hopen frame hmem
  · intro name hsome
    by_cases hne : name = d.name
    · show (Function.update st.config net.name (some net.cfg) name).isSome
      rw [hne, hname, Function.update_self]
      rfl
    · rw [hconfig name hne]
      exact hst.keys name hsome

/-- The next reference of the net being built has not been started. -/
theorem Building.next_not_started {k : ℕ}
    (hst : Building reg config (⟨d, k⟩ :: frames) done st) :
    ¬ Started reg config (⟨d, k⟩ :: frames) done st.netCache (.inNet d.origin k) := by
  obtain ⟨hd, hcache, _, _⟩ := hst.inProgress ⟨d, k⟩ (by simp)
  have hnodup := hst.nodup
  rw [List.map_cons, List.nodup_cons] at hnodup
  -- the origin of `d` is that of `d` alone, which is in progress once and not cached
  generalize horigin : Origin.inNet d.origin k = origin
  intro h
  cases h with
  | named | server => cases horigin
  | @frame frame i hmem hlt =>
      simp only [Origin.inNet.injEq] at horigin
      obtain ⟨hparent, rfl⟩ := horigin
      have heq : frame.net = d :=
        Occurs.unique d.origin _ _ (hst.inProgress frame hmem).1 hd hparent.symm rfl
      rcases List.mem_cons.mp hmem with rfl | hmem
      · exact Nat.lt_irrefl _ hlt
      · exact hnodup.1 (List.mem_map.mpr ⟨frame, hmem, by rw [heq]⟩)
  | @cached d' x i hoccurs hx =>
      simp only [Origin.inNet.injEq] at horigin
      have heq : d' = d := Occurs.unique d.origin _ _ hoccurs hd horigin.1.symm rfl
      rw [heq, hcache] at hx
      cases hx

/-! ## `get_net` -/

/-- What holds before a reference is resolved: if it is an inline net, it has just been
started, and nothing has its name yet. -/
def Ready (reg : Registry) (config : Config) (frames : List Frame) (done : ℕ → ℕ → Prop)
    (pre : List String) (here : Origin) (ref : NetRef) (st : Context) : Prop :=
  ref.represent.asStr = none → (∀ name, here ≠ .named name) ∧
    Started reg config frames done st.netCache here ∧
    st.netCache (refName pre ref) = none ∧
    ∀ frame ∈ frames, frame.net.name ≠ refName pre ref

/-- Before the next reference of the net being built is resolved. -/
theorem Building.ready_net {k : ℕ} {ref : NetRef}
    (hst : Building reg config (⟨d, k⟩ :: frames) done st)
    (distinct : NamesDistinct reg config)
    (hoccurs : Occurs reg config (denote (initDefaultNet config.net) ["net", d.name]
      (.inNet d.origin k) ref)) :
    Building reg config (⟨d, k + 1⟩ :: frames) done st ∧
      Ready reg config (⟨d, k + 1⟩ :: frames) done ["net", d.name] (.inNet d.origin k) ref
        st := by
  constructor
  · refine hst.start rfl ?_ fun _ _ h => h
    intro frame hmem
    rcases List.mem_cons.mp hmem with rfl | hmem
    · exact ⟨⟨d, k + 1⟩, by simp, rfl, Nat.le_succ k⟩
    · exact ⟨frame, by simp [hmem], rfl, Nat.le_refl _⟩
  · intro hinline
    have horigin : (denote (initDefaultNet config.net) ["net", d.name] (.inNet d.origin k)
        ref).origin = .inNet d.origin k := by
      unfold denote
      rw [hinline]
    have hnew := hst.next_not_started
    rw [← horigin] at hnew
    obtain ⟨hnone, hframes⟩ := hst.not_started distinct hoccurs hnew
    rw [denote_name] at hnone hframes
    refine ⟨by simp, .frame (List.mem_cons_self ..) (Nat.lt_succ_self k), hnone, ?_⟩
    intro frame hmem
    rcases List.mem_cons.mp hmem with rfl | hmem
    · exact hframes ⟨d, k⟩ (by simp)
    · exact hframes frame (by simp [hmem])

/-- The references of the servers before the `i`-th of server `k`. -/
def before (k i : ℕ) : ℕ → ℕ → Prop := fun k' i' => k' < k ∨ k' = k ∧ i' < i

/-- Before the next reference of a server is resolved. -/
theorem Building.ready_server {k i : ℕ} {name : String} {ref : NetRef}
    (hst : Building reg config [] (before k i) st) (distinct : NamesDistinct reg config)
    (hoccurs : Occurs reg config (denote (initDefaultNet config.net) ["server", name]
      (.inServer k i) ref)) :
    Building reg config [] (before k (i + 1)) st ∧
      Ready reg config [] (before k (i + 1)) ["server", name] (.inServer k i) ref st := by
  have hmore : ∀ k' i', before k i k' i' → before k (i + 1) k' i' := by
    unfold before
    omega
  refine ⟨hst.start rfl (by simp) hmore, ?_⟩
  intro hinline
  have horigin : (denote (initDefaultNet config.net) ["server", name] (.inServer k i)
      ref).origin = .inServer k i := by
    unfold denote
    rw [hinline]
  have hnew : ¬ Started reg config [] (before k i) st.netCache (.inServer k i) := by
    intro h
    cases h with
    | server h =>
        unfold before at h
        omega
  rw [← horigin] at hnew
  obtain ⟨hnone, _⟩ := hst.not_started distinct hoccurs hnew
  rw [denote_name] at hnone
  refine ⟨by simp, .server ?_, hnone, by simp⟩
  unfold before
  omega

/-- Finding the name of a reference: the config now has what the reference denotes under
that name, unless the net is finished or in progress. -/
theorem Building.nameOf {pre : List String} {here : Origin} {ref : NetRef} {st₁ : Context}
    {name : String} (hst : Building reg config frames done st)
    (distinct : NamesDistinct reg config)
    (hoccurs : Occurs reg config (denote (initDefaultNet config.net) pre here ref))
    (hready : Ready reg config frames done pre here ref st)
    (h : st.nameOf pre ref = .ok (name, st₁)) :
    Building reg config frames done st₁ ∧ st₁.netCache = st.netCache ∧
      Started reg config frames done st.netCache
        (denote (initDefaultNet config.net) pre here ref).origin ∧
      (st₁.netCache name = none → (∀ frame ∈ frames, frame.net.name ≠ name) →
        st₁.config name = (denote (initDefaultNet config.net) pre here ref).entry) := by
  have hname := Context.nameOf_eq h
  rcases Context.nameOf_ok.mp h with ⟨hrep, rfl⟩ | ⟨hrep, _, entry, hentry, rfl⟩
  · -- a name: the config stays as it is
    have hstr : ref.represent.asStr = some name := by
      rw [hrep]
      rfl
    have hdenote : denote (initDefaultNet config.net) pre here ref =
        ⟨.named name, name, initDefaultNet config.net name⟩ := by
      unfold denote
      rw [hstr]
    rw [hdenote] at hoccurs ⊢
    refine ⟨hst, rfl, .named name, ?_⟩
    intro hnone hopen
    refine hst.given name hnone hopen ?_
    intro d' hd' hname'
    exact distinct _ _ hd' hoccurs hname'
  · -- an inline net: it has just been inserted, and nothing had its name
    obtain ⟨hinline, hstarted, hnone, hopen⟩ := hready hrep
    have hdenote : denote (initDefaultNet config.net) pre here ref =
        ⟨here, refName pre ref, some entry⟩ := by
      unfold denote
      rw [hrep]
      simp [hentry, Except.toOption]
    subst hname
    rw [hdenote] at hoccurs ⊢
    refine ⟨hst.insert hoccurs hinline hnone hopen entry, rfl, hstarted, ?_⟩
    intro _ _
    exact Function.update_self _ _ _

/-- A getter that resolves references to what they denote: the state stays one of a
build, and the reference is represented by its name, under which the net is finished. -/
def Resolves (reg : Registry) (config : Config) (pre : List String)
    (getter : Getter Context) : Prop :=
  ∀ frames done here ref st out st', Building reg config frames done st →
    Occurs reg config (denote (initDefaultNet config.net) pre here ref) →
    Ready reg config frames done pre here ref st → getter ref st = .ok (out, st') →
    Building reg config frames done st' ∧ Extends st.netCache st'.netCache ∧
      out.1 = .string (refName pre ref) ∧ st'.netCache (refName pre ref) = some out.2

/-- The references of a net are resolved one after the other, with the net in
progress. -/
theorem Resolves.net {getter : Getter Context}
    (hgetter : Resolves reg config ["net", d.name] getter)
    (distinct : NamesDistinct reg config)
    (hst : Building reg config (⟨d, 0⟩ :: frames) done st) {entry : Entry}
    {options : Options} (hd : Occurs reg config d) (hentry : d.entry = some entry)
    (hoptions : reg.netOptions entry = some options) {outs : List (Value × ℕ)}
    {st' : Context} (h : resolveNet getter options.refs st = .ok (outs, st')) :
    Building reg config (⟨d, options.refs.length⟩ :: frames) done st' ∧
      Extends st.netCache st'.netCache ∧
      List.Forall₂ (fun ref out => out.1 = .string (refName ["net", d.name] ref) ∧
        st'.netCache (refName ["net", d.name] ref) = some out.2) options.refs outs := by
  refine resolveNet_rule (fun k st => Building reg config (⟨d, k⟩ :: frames) done st)
    (fun st st' => Extends st.netCache st'.netCache)
    (fun ref out st => out.1 = .string (refName ["net", d.name] ref) ∧
      st.netCache (refName ["net", d.name] ref) = some out.2)
    (fun _ => .refl _) (fun _ _ _ => .trans)
    (fun _ _ _ _ hdone hextends => ⟨hdone.1, hextends _ _ hdone.2⟩) options.refs ?_ hst h
  intro k ref href st out st' hst h
  have hchild := Occurs.net hd hentry hoptions href
  obtain ⟨hnext, hready⟩ := hst.ready_net distinct hchild
  exact hgetter _ _ _ ref st out st' hnext hchild hready h

/-- The references of a server are resolved one after the other. -/
theorem Resolves.server {getter : Getter Context} {k : ℕ} {name : String} {entry : Entry}
    {options : Options} (hgetter : Resolves reg config ["server", name] getter)
    (distinct : NamesDistinct reg config) (hst : Building reg config [] (before k 0) st)
    (hk : config.server[k]? = some (name, entry))
    (hoptions : reg.serverOptions entry = some options) {outs : List (Value × ℕ)}
    {st' : Context} (h : resolveNet getter options.refs st = .ok (outs, st')) :
    Building reg config [] (before (k + 1) 0) st' ∧ Extends st.netCache st'.netCache ∧
      List.Forall₂ (fun ref out => out.1 = .string (refName ["server", name] ref) ∧
        st'.netCache (refName ["server", name] ref) = some out.2) options.refs outs := by
  obtain ⟨hst', hrest⟩ := resolveNet_rule
    (fun i st => Building reg config [] (before k i) st)
    (fun st st' => Extends st.netCache st'.netCache)
    (fun ref out st => out.1 = .string (refName ["server", name] ref) ∧
      st.netCache (refName ["server", name] ref) = some out.2)
    (fun _ => .refl _) (fun _ _ _ => .trans)
    (fun _ _ _ _ hdone hextends => ⟨hdone.1, hextends _ _ hdone.2⟩) options.refs
    (by
      intro i ref href st out st' hst h
      have hchild := Occurs.server hk hoptions href
      obtain ⟨hnext, hready⟩ := hst.ready_server distinct hchild
      exact hgetter _ _ _ ref st out st' hnext hchild hready h)
    hst h
  refine ⟨hst'.start rfl (by simp) ?_, hrest⟩
  unfold before
  omega

/-- `get_net` finds no net in the cache and an entry that has a builder: then the entry is
what the reference denotes, and its net is taken in progress. -/
theorem Building.miss (hst : Building reg config frames done st)
    (noPlaceholder : reg.net placeholder.type = none) (distinct : NamesDistinct reg config)
    {pre : List String} {here : Origin} {ref : NetRef} {st₁ : Context} {name : String}
    {entry : Entry} {builder : Builder}
    (hoccurs : Occurs reg config (denote (initDefaultNet config.net) pre here ref))
    (hready : Ready reg config frames done pre here ref st)
    (hname : st.nameOf pre ref = .ok (name, st₁)) (hmiss : st₁.netCache name = none)
    (hgiven : st₁.config name = some entry) (hbuilder : reg.net entry.type = some builder) :
    (denote (initDefaultNet config.net) pre here ref).entry = some entry ∧
      Building reg config (⟨denote (initDefaultNet config.net) pre here ref, 0⟩ :: frames)
        done (st₁.hide name) := by
  obtain ⟨hst₁, hcache₁, hstarted, hentry⟩ := hst.nameOf distinct hoccurs hready hname
  obtain rfl := Context.nameOf_eq hname
  -- from here on it does not matter how the reference was written
  rw [← denote_name (initDefaultNet config.net) pre here ref] at hentry hmiss hgiven ⊢
  generalize denote (initDefaultNet config.net) pre here ref = d at *
  -- a net in progress would have been met with the placeholder, which has no builder
  have hopen : ∀ frame ∈ frames, frame.net.name ≠ d.name := by
    intro frame hmem heq
    have hplaceholder := (hst₁.inProgress frame hmem).2.2.1
    rw [heq, hgiven] at hplaceholder
    rw [Option.some.inj hplaceholder, noPlaceholder] at hbuilder
    cases hbuilder
  rw [← hcache₁] at hstarted
  exact ⟨(hentry hmiss hopen).symm.trans hgiven, hst₁.hide hoccurs hstarted hmiss hopen⟩

/-- **`get_net` resolves references to what they denote.** -/
theorem getNet_resolves (noPlaceholder : reg.net placeholder.type = none)
    (distinct : NamesDistinct reg config) (fuel : ℕ) :
    ∀ pre, Resolves reg config pre (getNet reg fuel pre) := by
  induction fuel with
  | zero =>
      intro pre frames done here ref st out st' _ _ _ h
      cases h
  | succ fuel ih =>
      intro pre frames done here ref st out st' hst hoccurs hready h
      obtain ⟨name, st₁, hname, hout, h⟩ := getNet_ok.mp h
      obtain ⟨hst₁, hcache₁, _, _⟩ := hst.nameOf distinct hoccurs hready hname
      rcases h with ⟨hhit, rfl⟩ | ⟨hmiss, net, st₂, hnet, hgiven, hbuild, _, hlast, rfl⟩
      · obtain rfl := Context.nameOf_eq hname
        exact ⟨hst₁, hcache₁ ▸ .refl _, hout, hhit⟩
      · obtain ⟨builder, options, outs, hbuilder, hitem⟩ := Registry.buildNet_ok.mp hbuild
        obtain ⟨hd, hhidden⟩ := hst.miss noPlaceholder distinct hoccurs hready hname hmiss
          hgiven hbuilder
        obtain rfl := Context.nameOf_eq hname
        rw [← denote_name (initDefaultNet config.net) pre here ref] at hnet hout hhidden hitem ⊢
        have hoptions : reg.netOptions net.given = some options :=
          Registry.netOptions_eq_some.mpr ⟨builder, hbuilder, hitem.read⟩
        obtain ⟨hst₂, hextends, hresolved⟩ :=
          (ih _).net distinct hhidden hoccurs hd hoptions hitem.resolve
        obtain ⟨hstored, hextends'⟩ := hst₂.store ⟨hnet, hd, builder, options, outs, hbuilder,
          hitem.read, hitem.write, hitem.build, hitem.type, hitem.refs, hresolved⟩
        refine ⟨hstored, ?_, hout, ?_⟩
        · rw [← hcache₁]
          exact hextends.trans hextends'
        · rw [hlast, ← hnet]
          exact Function.update_self _ _ _

/-- A property of the nets and the cache that is kept when a net in progress is stored. -/
structure Stable (reg : Registry) (config : Config) (P : Context → Prop) : Prop where
  frame : ∀ st st' : Context, st'.netCache = st.netCache → st'.nets = st.nets → P st → P st'
  store : ∀ d k frames done st net, Building reg config (⟨d, k⟩ :: frames) done st →
    net.name = d.name → P st → P (st.store net)

/-- What is stable is kept by `get_net`. -/
theorem getNet_keeps {P : Context → Prop} (stable : Stable reg config P)
    (noPlaceholder : reg.net placeholder.type = none) (distinct : NamesDistinct reg config)
    (fuel : ℕ) :
    ∀ pre frames done here ref st out st', Building reg config frames done st →
      Occurs reg config (denote (initDefaultNet config.net) pre here ref) →
      Ready reg config frames done pre here ref st → P st →
      getNet reg fuel pre ref st = .ok (out, st') → P st' := by
  induction fuel with
  | zero =>
      intro pre frames done here ref st out st' _ _ _ _ h
      cases h
  | succ fuel ih =>
      intro pre frames done here ref st out st' hst hoccurs hready hP h
      obtain ⟨name, st₁, hname, _, h⟩ := getNet_ok.mp h
      obtain ⟨hcache, hnets⟩ := Context.nameOf_frame hname
      have hP₁ := stable.frame st st₁ hcache hnets hP
      rcases h with ⟨_, rfl⟩ | ⟨hmiss, net, st₂, hnet, hgiven, hbuild, _, _, rfl⟩
      · exact hP₁
      · obtain ⟨builder, options, outs, hbuilder, hitem⟩ := Registry.buildNet_ok.mp hbuild
        obtain ⟨hd, hhidden⟩ := hst.miss noPlaceholder distinct hoccurs hready hname hmiss
          hgiven hbuilder
        obtain rfl := Context.nameOf_eq hname
        rw [← denote_name (initDefaultNet config.net) pre here ref] at hnet hhidden hitem
        generalize denote (initDefaultNet config.net) pre here ref = d at *
        have hoptions : reg.netOptions net.given = some options :=
          Registry.netOptions_eq_some.mpr ⟨builder, hbuilder, hitem.read⟩
        obtain ⟨⟨hst₂, hP₂⟩, _, _⟩ := resolveNet_rule
          (fun k st => Building reg config (⟨d, k⟩ :: frames) done st ∧ P st)
          (fun _ _ => True) (fun _ _ _ => True) (fun _ => trivial) (fun _ _ _ _ _ => trivial)
          (fun _ _ _ _ _ _ => trivial) options.refs
          (by
            rintro k ref href st out st' ⟨hst, hP⟩ h
            have hchild := Occurs.net hoccurs hd hoptions href
            obtain ⟨hnext, hready⟩ := hst.ready_net distinct hchild
            exact ⟨⟨(getNet_resolves noPlaceholder distinct fuel _ _ _ _ ref st out st' hnext
              hchild hready h).1, ih _ _ _ _ ref st out st' hnext hchild hready hP h⟩,
              trivial, trivial⟩)
          ⟨hhidden, stable.frame st₁ _ rfl rfl hP₁⟩ hitem.resolve
        exact stable.store d _ frames done st₂ net hst₂ hnet hP₂

theorem getElem?_of_drop_eq_cons {α : Type} {as rest : List α} {k : ℕ} {a : α}
    (h : as.drop k = a :: rest) : as[k]? = some a ∧ as.drop (k + 1) = rest := by
  constructor
  · have hhead : (as.drop k)[0]? = some a := by
      rw [h]
      rfl
    simpa using hhead
  · rw [← List.drop_drop, h]
    rfl

/-- The loop over the servers, from server `k` on. -/
theorem loadServers_builds (noPlaceholder : reg.net placeholder.type = none)
    (distinct : NamesDistinct reg config) {fuel : ℕ} (rest : List (String × Entry)) :
    ∀ k st servers st', config.server.drop k = rest →
      Building reg config [] (before k 0) st →
      loadServers reg fuel rest st = .ok (servers, st') →
      (∃ done, Building reg config [] done st') ∧ Extends st.netCache st'.netCache ∧
        ∀ server ∈ servers, ∃ builder options outs,
          reg.server server.given.type = some builder ∧
          Wiring builder ["server", server.name] st'.netCache server options outs := by
  induction rest with
  | nil =>
      intro k st servers st' _ hst h
      cases h
      exact ⟨⟨_, hst⟩, .refl _, by simp⟩
  | cons first rest ih =>
      intro k st servers st' hdrop hst h
      obtain ⟨server, tail, st₁, rfl, hname, hgiven, hbuild, hrest⟩ :=
        loadServers_cons_ok.mp h
      obtain ⟨builder, options, outs, hbuilder, hitem⟩ := Registry.buildServer_ok.mp hbuild
      obtain ⟨hk, hnext⟩ := getElem?_of_drop_eq_cons hdrop
      have hoptions : reg.serverOptions first.2 = some options :=
        Registry.serverOptions_eq_some.mpr ⟨builder, hbuilder, hitem.read⟩
      obtain ⟨hst₁, hextends, hresolved⟩ :=
        (getNet_resolves noPlaceholder distinct fuel ["server", first.1]).server distinct hst
          hk hoptions hitem.resolve
      have hwiring : Wiring builder ["server", server.name] st₁.netCache server options outs := by
        rw [hname]
        exact ⟨hgiven ▸ hitem.read, hitem.write, hitem.build, hgiven ▸ hitem.type, hitem.refs,
          hresolved⟩
      obtain ⟨hst', hextends', hservers⟩ := ih (k + 1) st₁ tail st' hnext hst₁ hrest
      refine ⟨hst', hextends.trans hextends', ?_⟩
      intro server' hserver'
      rcases List.mem_cons.mp hserver' with rfl | hserver'
      · exact ⟨builder, options, outs, hgiven ▸ hbuilder, hwiring.mono hextends'⟩
      · exact hservers server' hserver'

/-- What is stable is kept by the loop over the servers. -/
theorem loadServers_keeps {P : Context → Prop} (stable : Stable reg config P)
    (noPlaceholder : reg.net placeholder.type = none) (distinct : NamesDistinct reg config)
    {fuel : ℕ} (rest : List (String × Entry)) :
    ∀ k st servers st', config.server.drop k = rest →
      Building reg config [] (before k 0) st → P st →
      loadServers reg fuel rest st = .ok (servers, st') → P st' := by
  induction rest with
  | nil =>
      intro k st servers st' _ _ hP h
      cases h
      exact hP
  | cons first rest ih =>
      intro k st servers st' hdrop hst hP h
      obtain ⟨server, tail, st₁, rfl, _, _, hbuild, hrest⟩ := loadServers_cons_ok.mp h
      obtain ⟨builder, options, outs, hbuilder, hitem⟩ := Registry.buildServer_ok.mp hbuild
      obtain ⟨hk, hnext⟩ := getElem?_of_drop_eq_cons hdrop
      have hoptions : reg.serverOptions first.2 = some options :=
        Registry.serverOptions_eq_some.mpr ⟨builder, hbuilder, hitem.read⟩
      have hresolves := getNet_resolves noPlaceholder distinct fuel ["server", first.1]
      obtain ⟨hst₁, _, _⟩ := hresolves.server distinct hst hk hoptions hitem.resolve
      obtain ⟨⟨_, hP₁⟩, _, _⟩ := resolveNet_rule
        (fun i st => Building reg config [] (before k i) st ∧ P st)
        (fun _ _ => True) (fun _ _ _ => True) (fun _ => trivial) (fun _ _ _ _ _ => trivial)
        (fun _ _ _ _ _ _ => trivial) options.refs
        (by
          rintro i ref href st out st' ⟨hst, hP⟩ h
          have hchild := Occurs.server hk hoptions href
          obtain ⟨hstart, hready⟩ := hst.ready_server distinct hchild
          exact ⟨⟨(hresolves _ _ _ ref st out st' hstart hchild hready h).1,
            getNet_keeps stable noPlaceholder distinct fuel _ _ _ _ ref st out st' hstart hchild
              hready hP h⟩, trivial, trivial⟩)
        ⟨hst, hP⟩ hitem.resolve
      exact ih (k + 1) st₁ tail st' hnext hst₁ hP₁ hrest

/-! ## What has been built in the end -/

/-- What `build_entities` leaves if names are distinct. -/
structure Complete (reg : Registry) (config : Config) (entities : Entities)
    (config' : Config) : Prop where
  given : entities.servers.map (fun server => (server.name, server.given)) = config.server
  rewritten : config'.server =
    entities.servers.map fun server => (server.name, server.cfg)
  servers : ∀ server ∈ entities.servers, ∃ builder options outs,
    reg.server server.given.type = some builder ∧
    Wiring builder ["server", server.name] entities.nets server options outs
  finished : ∀ name x, entities.nets name = some x → ∃ d net, Occurs reg config d ∧
    d.name = name ∧ entities.running[x]? = some net ∧ config'.net name = some net.cfg ∧
    BuiltFrom reg entities.nets d net
  untouched : ∀ name, entities.nets name = none →
    (∀ d, Occurs reg config d → d.name = name → d.origin = .named name) →
    config'.net name = initDefaultNet config.net name
  keys : ∀ name, (initDefaultNet config.net name).isSome → (config'.net name).isSome

variable {entities : Entities} {config' : Config} {fuel : ℕ}

theorem Building.initial : Building reg config [] (before 0 0) (Context.initial config.net) where
  inProgress := by simp
  nodup := List.nodup_nil
  finished := by
    intro name x hx
    cases hx
  given := fun _ _ _ _ => rfl
  keys := fun _ h => h

theorem buildEntities_complete (noPlaceholder : reg.net placeholder.type = none)
    (distinct : NamesDistinct reg config)
    (h : buildEntities reg fuel config = .ok (entities, config')) :
    Complete reg config entities config' := by
  obtain ⟨st, hload, hnets, hrunning, hnet, hserver⟩ := buildEntities_ok.mp h
  obtain ⟨⟨done, hst⟩, _, hservers⟩ := loadServers_builds noPlaceholder distinct config.server 0
    _ _ st List.drop_zero Building.initial hload
  refine ⟨loadServers_given hload, hserver, ?_, ?_, ?_, ?_⟩
  · rw [hnets]
    exact hservers
  · rw [hnets, hrunning, hnet]
    intro name x hx
    obtain ⟨d, net, hd, hname, _, hrest⟩ := hst.finished name x hx
    exact ⟨d, net, hd, hname, hrest⟩
  · rw [hnets, hnet]
    intro name hnone hnamed
    exact hst.given name hnone (by simp) hnamed
  · rw [hnet]
    exact hst.keys

namespace Complete

/-- A net that is known by the name of what occurs was built from it. -/
theorem builtFrom (h : Complete reg config entities config')
    (distinct : NamesDistinct reg config) (hd : Occurs reg config d) {x : ℕ}
    (hx : entities.nets d.name = some x) :
    ∃ net, entities.running[x]? = some net ∧ config'.net d.name = some net.cfg ∧
      BuiltFrom reg entities.nets d net := by
  obtain ⟨d', net, hd', hname, hrest⟩ := h.finished d.name x hx
  obtain rfl := distinct.eq hd' hd hname
  exact ⟨net, hrest⟩

/-- A reference of a server was resolved to the net of its name. -/
theorem server_ref (h : Complete reg config entities config') {k i : ℕ} {name : String}
    {entry : Entry} {options : Options} {ref : NetRef}
    (hk : config.server[k]? = some (name, entry))
    (hoptions : reg.serverOptions entry = some options) (href : options.refs[i]? = some ref) :
    ∃ server x, entities.servers[k]? = some server ∧ server.refs[i]? = some x ∧
      entities.nets (refName ["server", name] ref) = some x := by
  rw [← h.given, List.getElem?_map, Option.map_eq_some_iff] at hk
  obtain ⟨server, hserver, heq⟩ := hk
  cases heq
  obtain ⟨builder, options', outs, hbuilder, hwiring⟩ :=
    h.servers server (List.mem_of_getElem? hserver)
  have hoptions' := Registry.serverOptions_eq_some.mpr ⟨builder, hbuilder, hwiring.read⟩
  rw [hoptions] at hoptions'
  cases hoptions'
  obtain ⟨x, hx, hnets⟩ := hwiring.of_ref href
  exact ⟨server, x, hserver, hx, hnets⟩

/-- A reference of a net was resolved to the net of its name. -/
theorem net_ref (h : Complete reg config entities config')
    (distinct : NamesDistinct reg config) (hd : Occurs reg config d) {x i : ℕ}
    (hx : entities.nets d.name = some x) {entry : Entry} {options : Options} {ref : NetRef}
    (hentry : d.entry = some entry) (hoptions : reg.netOptions entry = some options)
    (href : options.refs[i]? = some ref) :
    ∃ net y, entities.running[x]? = some net ∧ net.refs[i]? = some y ∧
      entities.nets (refName ["net", d.name] ref) = some y := by
  obtain ⟨net, hnet, _, hbuilt⟩ := h.builtFrom distinct hd hx
  obtain ⟨builder, options', outs, hbuilder, hwiring⟩ := hbuilt.wiring
  have hgiven := hbuilt.entry
  rw [hentry] at hgiven
  cases hgiven
  have hoptions' := Registry.netOptions_eq_some.mpr ⟨builder, hbuilder, hwiring.read⟩
  rw [hoptions] at hoptions'
  cases hoptions'
  obtain ⟨y, hy, hnets⟩ := hwiring.of_ref href
  exact ⟨net, y, hnet, hy, hnets⟩

/-- What occurs has been built. -/
theorem of_occurs (h : Complete reg config entities config')
    (distinct : NamesDistinct reg config) (hd : Occurs reg config d) :
    ∃ x, entities.nets d.name = some x := by
  induction hd with
  | server hk hoptions href =>
      obtain ⟨_, x, _, _, hx⟩ := h.server_ref hk hoptions href
      exact ⟨x, by rw [denote_name, hx]⟩
  | net hd hentry hoptions href ih =>
      obtain ⟨x, hx⟩ := ih
      obtain ⟨_, y, _, _, hy⟩ := h.net_ref distinct hd hx hentry hoptions href
      exact ⟨y, by rw [denote_name, hy]⟩

/-- What is read is known by its name. -/
theorem of_reads (h : Complete reg config entities config')
    (distinct : NamesDistinct reg config) {x : ℕ} (hreads : Reads reg config entities d x) :
    entities.nets d.name = some x := by
  induction hreads with
  | server hk hserver hoptions href hx =>
      obtain ⟨server', x', hserver', hx', hnets⟩ := h.server_ref hk hoptions href
      rw [hserver] at hserver'
      cases hserver'
      rw [hx] at hx'
      cases hx'
      rw [denote_name, hnets]
  | net hreads hnet hentry hoptions href hy ih =>
      obtain ⟨net', y', hnet', hy', hnets⟩ :=
        h.net_ref distinct hreads.occurs ih hentry hoptions href
      rw [hnet] at hnet'
      cases hnet'
      rw [hy] at hy'
      cases hy'
      rw [denote_name, hnets]

/-- The net known by a name has that name. -/
theorem nameOf_eq (h : Complete reg config entities config') {name : String} {x : ℕ}
    (hx : entities.nets name = some x) : entities.nameOf x = name := by
  obtain ⟨d, net, _, hname, hnet, _, hbuilt⟩ := h.finished name x hx
  unfold Entities.nameOf
  rw [hnet]
  exact hbuilt.name.trans hname

end Complete

end RabbitDigger.Build
