import RabbitDigger.Manager.Named
import RabbitDigger.Manager.Termination

/-!
# Building the entities of a config comes to an end

`build_entities` builds one server after the other, and each of them asks `get_net` for the nets
that it refers to.  A server may refer to nets by inline configurations of any size, and what one
server leaves behind — nets that are cached, entries for its inline nets — is what the next one
finds.

`get_net` never adds to the load of the names (`Context.Lighter`), so the load that the config
begins with, together with the heaviest reference of a server, bounds the depth of the recursion
for all servers (`loadServers_ends`).  Hence `start` gets an answer for every config, and no net of
the config is lost (`build_entities_terminates`).
-/

namespace RabbitDigger.Build

open Tally

variable {reg : Registry}

/-! ## The references of a server -/

/-- What the references of a server weigh. -/
noncomputable def Registry.serverWeight (reg : Registry) (i : Entry) : ℕ :=
  ((reg.serverOptions i).map fun options => tally NetRef.weight options.refs).getD 0

theorem weight_le_serverWeight {i : Entry} {options : Options}
    (hoptions : reg.serverOptions i = some options) {ref : NetRef} (href : ref ∈ options.refs) :
    ref.weight ≤ reg.serverWeight i := by
  unfold Registry.serverWeight
  rw [hoptions]
  exact le_tally NetRef.weight href

/-! ## More fuel -/

/-- Where building a server with the first getter does not run out of fuel, the second one does
the same. -/
theorem Registry.buildServer_agrees (reg : Registry) {σ : Type} {getter getter' : Getter σ}
    (h : Agrees getter getter') (name : String) (i : Entry) (st : σ)
    (hfuel : reg.buildServer name i getter st ≠ .error .outOfFuel) :
    reg.buildServer name i getter' st = reg.buildServer name i getter st := by
  unfold Registry.buildServer at hfuel ⊢
  cases hget : reg.getServer i.type with
  | error e => rfl
  | ok builder => exact buildItem_agrees h "server" name builder i st (by rwa [hget] at hfuel)

theorem getServerNet_agrees (fuel more : ℕ) (server : String) :
    Agrees (getServerNet reg fuel server) (getServerNet reg (fuel + more) server) :=
  fun _ _ hfuel => getNet_add hfuel more

theorem loadServers_add {fuel : ℕ} {servers : List (String × Entry)} {st : Context}
    (hfuel : loadServers reg fuel servers st ≠ .error .outOfFuel) (more : ℕ) :
    loadServers reg (fuel + more) servers st = loadServers reg fuel servers st := by
  induction servers generalizing st with
  | nil => rfl
  | cons server rest ih =>
      obtain ⟨name, i⟩ := server
      unfold loadServers at hfuel ⊢
      have hfirst : reg.buildServer name i (getServerNet reg fuel name) st
          ≠ .error .outOfFuel := by
        intro hout
        rw [hout] at hfuel
        exact hfuel rfl
      rw [reg.buildServer_agrees (getServerNet_agrees fuel more name) name i st hfirst]
      cases hserver : reg.buildServer name i (getServerNet reg fuel name) st with
      | error e => rfl
      | ok r =>
          obtain ⟨⟨cfg, refs⟩, st₁⟩ := r
          rw [hserver] at hfuel
          dsimp only [Except.mapError, bind, Except.bind] at hfuel ⊢
          rw [ih]
          intro hout
          rw [hout] at hfuel
          exact hfuel rfl

/-! ## One server after the other -/

/-- **A server is built or refused**, if the getter ends for its references. -/
theorem Registry.buildServer_ends {σ : Type} {Good : σ → Prop} {getter : Getter σ} {name : String}
    {i : Entry} (h : ∀ options, reg.serverOptions i = some options →
      ∀ ref ∈ options.refs, ∀ st, Good st → Ends Good (getter ref st))
    {st : σ} (hst : Good st) : Ends Good (reg.buildServer name i getter st) := by
  unfold Registry.buildServer Registry.getServer
  cases hserver : reg.server i.type with
  | none => exact trivial
  | some builder =>
      exact buildItem_ends (fun options hread =>
        h options (Registry.serverOptions_eq_some.mpr ⟨builder, hserver, hread⟩)) hst

/-- **The loop over the servers ends**, for a depth beyond the load of the nets and the weight of
every server, and leaves the context lighter. -/
theorem loadServers_ends (hrefs : RefsFromValue reg) (hcircular : reg.net placeholder.type = none)
    {fuel total : ℕ} (servers : List (String × Entry))
    (hfuel : ∀ server ∈ servers, total + reg.serverWeight server.2 < fuel) (st : Context)
    (hst : Weighs (st.load reg) total) :
    Ends (st.Lighter reg) (loadServers reg fuel servers st) := by
  induction servers generalizing st with
  | nil => exact .refl st
  | cons server rest ih =>
      obtain ⟨name, i⟩ := server
      have hserver : Ends (st.Lighter reg)
          (reg.buildServer name i (getServerNet reg fuel name) st) := by
        refine Registry.buildServer_ends ?_ (.refl st)
        intro options hoptions ref href st₁ hst₁
        have hweight := weight_le_serverWeight hoptions href
        have hfirst := hfuel (name, i) List.mem_cons_self
        have hends := getNet_ends hrefs hcircular fuel ["server", name] ref st₁
          (hst.mono hst₁.load) (by simp only at hfirst; omega)
        exact hends.imp fun _ hst₂ => hst₁.trans hst₂
      refine (hserver.context _).bind ?_
      rintro ⟨cfg, refs⟩ st₁ - hst₁
      have hrest := ih (fun server hmem => hfuel server (List.mem_cons_of_mem _ hmem)) st₁
        (hst.mono hst₁.load)
      exact hrest.bind fun _ st₂ _ hst₂ => hst₁.trans hst₂

/-! ## The entities -/

/-- **`build_entities` terminates.**  For every config — with inline nets nested to any depth,
references to missing nets, cycles, and names that coincide with generated ones — the recursion
ends from some depth on, always with the same result: the entities, or an error.  No `expect`
fails.  Every name of the config still has an entry in the config that comes with the entities,
although an inline net may have taken it over.

The assumptions are those of `get_net`. -/
theorem build_entities_terminates (hrefs : RefsFromValue reg)
    (hcircular : reg.net placeholder.type = none) (config : Config)
    (hfinite : {name | (config.net name).isSome}.Finite) :
    ∃ depth result, (∀ fuel ≥ depth, buildEntities reg fuel config = result) ∧
      ((∃ entities config', result = .ok (entities, config') ∧
          ∀ name, (config.net name).isSome → (config'.net name).isSome) ∨
        ∃ e, result = .error (.error e)) := by
  obtain ⟨total, hst⟩ := Context.exists_weighs reg
    (show {name | ((Context.initial config.net).config name).isSome}.Finite from
      finite_initDefaultNet hfinite)
  -- a depth beyond the weights of all servers
  obtain ⟨depth, hdepth⟩ : ∃ depth, ∀ server ∈ config.server,
      total + reg.serverWeight server.2 < depth := by
    refine ⟨total + tally (fun server => reg.serverWeight server.2) config.server + 1, ?_⟩
    intro server hmem
    have hweight := le_tally (fun server : String × Entry => reg.serverWeight server.2) hmem
    omega
  have hends := loadServers_ends hrefs hcircular config.server hdepth _ hst
  refine ⟨depth, buildEntities reg depth config, fun fuel hfuel => ?_, ?_⟩
  · obtain ⟨more, rfl⟩ := Nat.exists_eq_add_of_le hfuel
    unfold buildEntities
    rw [loadServers_add hends.not_outOfFuel more]
  · unfold buildEntities
    rcases hload : loadServers reg depth config.server (Context.initial config.net) with
      (e | _ | _) | ⟨servers, st⟩
    · exact .inr ⟨e, rfl⟩
    · rw [hload] at hends
      exact hends.elim
    · rw [hload] at hends
      exact hends.elim
    · rw [hload] at hends
      refine .inl ⟨_, _, rfl, fun name hname => ?_⟩
      exact hends.entry name (foldl_insertMissing_isSome defaultNets hname)

/-- Two nets that refer to each other, and a server that refers to one of them. -/
def circle : Config where
  net name :=
    if name = "a" then some ⟨"alias", .object [("net", .string "b")]⟩
    else if name = "b" then some ⟨"alias", .object [("net", .string "a")]⟩
    else none
  server := [("s", ⟨"echo", .object [("bind", .string "127.0.0.1:0"), ("listen", .string "a")]⟩)]

/-- Building them ends, and it is an error: the second net finds the placeholder of the first
one. -/
theorem build_entities_terminates_circle :
    ∃ depth e, (∀ fuel ≥ depth, buildEntities stdRegistry fuel circle = .error (.error e)) ∧
      buildEntities stdRegistry 3 circle = .error (.error e) := by
  have hfinite : {name | (circle.net name).isSome}.Finite := by
    refine Set.Finite.subset (Set.toFinite {"a", "b"}) fun name hname => ?_
    by_contra hother
    simp only [Set.mem_insert_iff, Set.mem_singleton_iff, not_or] at hother
    simp [circle, hother.1, hother.2] at hname
  obtain ⟨depth, result, hresult, -⟩ :=
    build_entities_terminates refsFromValue_stdRegistry (by decide) circle hfinite
  have hthree : ∃ e, loadServers stdRegistry 3 circle.server (Context.initial circle.net)
      = .error (.error e) := ⟨_, rfl⟩
  obtain ⟨e, hthree⟩ := hthree
  have hbuild : buildEntities stdRegistry 3 circle = .error (.error e) := by
    unfold buildEntities
    rw [hthree]
    rfl
  -- the result is the one that three levels of recursion give
  have hsame : buildEntities stdRegistry (3 + depth) circle = .error (.error e) := by
    unfold buildEntities
    rw [loadServers_add (by rw [hthree]; nofun), hthree]
    rfl
  have heq : result = .error (.error e) := (hresult _ (Nat.le_add_left depth 3)).symm.trans hsame
  exact ⟨depth, e, heq ▸ hresult, hbuild⟩

end RabbitDigger.Build
