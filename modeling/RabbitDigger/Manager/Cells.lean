import RabbitDigger.Foundation.RefCell
import RabbitDigger.Manager.Build

/-!
# The cells of `BuildContext`

`src/rabbit_digger.rs`: `BuildContext` keeps the nets of the config and the cache in `RefCell`s,
for `get_net` only has a shared reference to it: the getter that `get_net` hands to `build_net`
calls `get_net` again, on the same context.  `Build.getNet` passes the state along and has no
guards.  Here every statement of `get_net` **takes its guard**, and there are three ways to
panic: a borrow that conflicts, `expect("Impossible")` and `expect("It must exist")`.

The guards are temporaries of single statements, and the call of `build_net` is not in one of
these statements.  That is why the two agree from any state without guards
(`Cells.getNet_cells`).
-/

namespace RabbitDigger.Build

open RefCells

/-- `BuildContext`, and the `RunningNet`s made. -/
structure Cells where
  config : RefCell ConfigNet
  netCache : RefCell (String → Option ℕ)
  nets : List Built

namespace Cells

/-- `self.config`. -/
def configField : CellField Cells ConfigNet where
  get := config
  set cell st := { st with config := cell }
  get_set _ _ := rfl
  set_set _ _ _ := rfl
  set_get _ := rfl

/-- `self.net_cache`. -/
def cacheField : CellField Cells (String → Option ℕ) where
  get := netCache
  set cell st := { st with netCache := cell }
  get_set _ _ := rfl
  set_set _ _ _ := rfl
  set_get _ := rfl

/-- `self.config.borrow_mut()`, and what the statement does with the nets of the config. -/
def withConfig {β : Type} (body : ConfigNet → Except Failure (β × ConfigNet)) (st : Cells) :
    Except Failure (β × Cells) :=
  configField.writing .panicked (fun config st => (body config).map (·, st)) st

/-- The name a reference is resolved under.  The guard is held while the inline net is read. -/
def nameOf (pre : List String) (ref : NetRef) (st : Cells) : Except Failure (String × Cells) :=
  match ref.represent with
  | .string name => .ok (name, st)
  | netCfg => do
      let generated := generatedName pre ref.path
      let ((), st) ← st.withConfig fun config => do
        let entry ← (Entry.fromValue netCfg).mapError .error
        pure ((), Function.update config generated (some entry))
      let represent := Value.string generated
      match represent.asStr with
      -- `expect("Impossible")`
      | none => .error .panicked
      | some name => pure (name, st)

/-- `self.net_cache.borrow().get(name)`. -/
def cached (name : String) (st : Cells) : Except Failure (Option ℕ × Cells) :=
  cacheField.reading .panicked (fun cache st => .ok (cache name, st)) st

/-- `get_mut(name).map(|i| replace(i, placeholder)).ok_or(..)`. -/
def take (name : String) (st : Cells) : Except Failure (Entry × Cells) :=
  st.withConfig fun config =>
    match config name with
    | none => .error (.error (.notFound ("Failed to find net in config file: " ++ name)))
    | some cfg => .ok (cfg, Function.update config name (some placeholder))

/-- `*get_mut(name).expect("It must exist") = cfg`. -/
def putBack (name : String) (cfg : Entry) (st : Cells) : Except Failure (Unit × Cells) :=
  st.withConfig fun config =>
    match config name with
    | none => .error .panicked
    | some _ => .ok ((), Function.update config name (some cfg))

/-- `self.net_cache.borrow_mut().insert(..)`. -/
def cache (name : String) (net : ℕ) (st : Cells) : Except Failure (Unit × Cells) :=
  cacheField.writing .panicked
    (fun cache st => .ok (((), Function.update cache name (some net)), st)) st

/-- `RunningNet::new`, and what follows it. -/
def store (net : Built) (st : Cells) : Except Failure (ℕ × Cells) := do
  let made := { st with nets := st.nets ++ [net] }
  let ((), back) ← made.putBack net.name net.cfg
  let ((), done) ← back.cache net.name st.nets.length
  pure (st.nets.length, done)

/-- `BuildContext::get_net`. -/
def getNet (reg : Registry) : ℕ → List String → Getter Cells
  | 0, _ => fun _ _ => .error .outOfFuel
  | fuel + 1, pre => fun ref st => do
      let (name, st) ← st.nameOf pre ref
      let (hit, st) ← st.cached name
      match hit with
      | some net => pure ((.string name, net), st)
      | none => do
          let (cfg, st) ← st.take name
          let ((cfg', refs), st) ← reg.buildNet name cfg (getNet reg fuel ["net", name]) st
          let (net, st) ← st.store ⟨name, cfg, cfg', refs⟩
          pure ((.string name, net), st)

end Cells

/-- The cells of a context, without guards. -/
def Context.cells (st : Context) : Cells := ⟨.new st.config, .new st.netCache, st.nets⟩

/-! ## The same calls -/

section Embedding

variable {σ τ : Type} (embed : σ → τ)

/-- What a call leaves, seen in the other state. -/
def mapState {β : Type} (x : Except Failure (β × σ)) : Except Failure (β × τ) :=
  x.map fun r => (r.1, embed r.2)

variable {embed} {getter : Getter σ} {getter' : Getter τ}

theorem resolveNet_mapState
    (h : ∀ ref st, getter' ref (embed st) = mapState embed (getter ref st))
    (refs : List NetRef) (st : σ) :
    resolveNet getter' refs (embed st) = mapState embed (resolveNet getter refs st) := by
  induction refs generalizing st with
  | nil => rfl
  | cons ref refs ih =>
      unfold resolveNet
      rw [h ref st]
      cases getter ref st with
      | error e => rfl
      | ok r =>
          show (resolveNet getter' refs (embed r.2) >>= _) = _
          rw [ih r.2]
          show _ = mapState embed (resolveNet getter refs r.2 >>= _)
          cases resolveNet getter refs r.2 <;> rfl

/-- **A getter that works alike in another state builds alike there.** -/
theorem Registry.buildNet_mapState (reg : Registry)
    (h : ∀ ref st, getter' ref (embed st) = mapState embed (getter ref st))
    (name : String) (i : Entry) (st : σ) :
    reg.buildNet name i getter' (embed st) = mapState embed (reg.buildNet name i getter st) := by
  unfold Registry.buildNet
  cases reg.getNet i.type with
  | error e => rfl
  | ok builder =>
      show buildItem _ _ _ _ _ _ = mapState embed (buildItem _ _ _ _ _ _)
      unfold buildItem buildDyn
      cases builder.fromValue i.opt with
      | error e => rfl
      | ok config =>
          dsimp only [Except.mapError, bind, Except.bind]
          rw [resolveNet_mapState h]
          cases resolveNet getter config.refs st with
          | error e => rfl
          | ok r =>
              dsimp only [mapState, Except.map, Except.bind]
              cases builder.toValue (config.resolved r.1) with
              | error e => rfl
              | ok cfg => cases builder.build (config.resolved r.1) <;> rfl

end Embedding

section Cells

variable (st : Context) (name : String)

theorem Cells.withConfig_cells {β : Type}
    (body : ConfigNet → Except Failure (β × ConfigNet)) :
    st.cells.withConfig body =
      (body st.config).map fun r => (r.1, ({ st with config := r.2 } : Context).cells) :=
  Cells.configField.writing_of_free rfl body

theorem Cells.nameOf_cells (pre : List String) (ref : NetRef) :
    st.cells.nameOf pre ref = mapState Context.cells (st.nameOf pre ref) := by
  unfold Cells.nameOf Context.nameOf
  cases ref.represent with
  | string name => rfl
  | _ =>
      dsimp only
      rw [Cells.withConfig_cells]
      cases Entry.fromValue _ <;> rfl

theorem Cells.cached_cells :
    st.cells.cached name = .ok (st.netCache name, st.cells) :=
  Cells.cacheField.reading_of_free rfl fun cache => .ok (cache name)

theorem Cells.take_cells {cfg : Entry} (h : st.config name = some cfg) :
    st.cells.take name = .ok (cfg, (st.hide name).cells) := by
  unfold Cells.take
  rw [Cells.withConfig_cells, h]
  rfl

theorem Cells.take_cells_none (h : st.config name = none) :
    st.cells.take name =
      .error (.error (.notFound ("Failed to find net in config file: " ++ name))) := by
  unfold Cells.take
  rw [Cells.withConfig_cells, h]
  rfl

theorem Cells.store_cells (net : Built) {old : Entry} (h : st.config net.name = some old) :
    st.cells.store net = .ok (st.nets.length, (st.store net).cells) := by
  have hback : Cells.putBack net.name net.cfg
      ({ st with nets := st.nets ++ [net] } : Context).cells =
      .ok ((), Context.cells
        { config := Function.update st.config net.name (some net.cfg)
          netCache := st.netCache
          nets := st.nets ++ [net] }) := by
    unfold Cells.putBack
    rw [Cells.withConfig_cells, h]
    rfl
  exact bind_ok.mpr ⟨_, hback, rfl⟩

theorem Cells.store_cells_none (net : Built) (h : st.config net.name = none) :
    st.cells.store net = .error .panicked := by
  have hback : Cells.putBack net.name net.cfg
      ({ st with nets := st.nets ++ [net] } : Context).cells = .error .panicked := by
    unfold Cells.putBack
    rw [Cells.withConfig_cells, h]
    rfl
  exact congrArg (· >>= _) hback

end Cells

/-- **The guards never conflict**: from a state without guards `get_net` does what it does
without cells, and leaves no guard behind. -/
theorem Cells.getNet_cells (reg : Registry) (fuel : ℕ) (pre : List String) (ref : NetRef)
    (st : Context) :
    Cells.getNet reg fuel pre ref st.cells =
      mapState Context.cells (Build.getNet reg fuel pre ref st) := by
  induction fuel generalizing pre ref st with
  | zero => rfl
  | succ fuel ih =>
      unfold Cells.getNet Build.getNet
      rw [Cells.nameOf_cells]
      cases st.nameOf pre ref with
      | error e => rfl
      | ok r =>
          obtain ⟨name, st₁⟩ := r
          dsimp only [mapState, Except.map, bind, Except.bind]
          rw [Cells.cached_cells]
          dsimp only
          cases st₁.netCache name with
          | some net => rfl
          | none =>
              dsimp only
              cases hcfg : st₁.config name with
              | none => rw [Cells.take_cells_none st₁ name hcfg]
              | some cfg =>
                  rw [Cells.take_cells st₁ name hcfg]
                  dsimp only
                  rw [reg.buildNet_mapState (ih ["net", name])]
                  cases reg.buildNet name cfg (Build.getNet reg fuel ["net", name])
                    (st₁.hide name) with
                  | error e => rfl
                  | ok built =>
                      obtain ⟨⟨cfg', refs⟩, st₂⟩ := built
                      show Except.bind (st₂.cells.store ⟨name, cfg, cfg', refs⟩) _ = _
                      dsimp only
                      cases hstill : st₂.config name with
                      | none =>
                          rw [Cells.store_cells_none st₂ _ hstill]
                          rfl
                      | some old =>
                          rw [Cells.store_cells st₂ _ hstill]
                          rfl

end RabbitDigger.Build
