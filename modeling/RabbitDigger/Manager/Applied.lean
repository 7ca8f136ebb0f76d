import RabbitDigger.Manager.Updates

/-!
# Updates that are applied, and updates that are ignored

`RabbitDigger::update_net` returns `Ok` without having done anything **unless it finds the net in
two places**: in the stored config, which has all nets that were defined, and among the running
nets, which are those that a server needs.  So a caller who gets an `Ok` cannot tell an update of
a net that no server uses, or of a name that does not exist, from one that was carried out.

`update_applied_iff` says that there is one more way to lose an update, in the text of the config:
the options of an entry are flattened into it, and **an option with a key that the entry itself
uses is not read back as an option**; nor is a floating point number that printing and parsing
changes, and nothing is that is nested too deep for the parser.  Otherwise an `Ok` means what it
says (`Applied`): the stored entry is the new configuration as the builder has left it, and the
`RunningNet` that is asked for connections holds the net that was built from it.
-/

namespace RabbitDigger.Build

open Transition

variable {Text : Type}

/-! ## What serde reads back -/

mutual

/-- A value with other floating point numbers. -/
def mapFloat (float : UInt64 → UInt64) : Value → Value
  | .float bits => .float (float bits)
  | .array items => .array (mapItems float items)
  | .object fields => .object (mapFields float fields)
  | .null => .null
  | .bool b => .bool b
  | .int n => .int n
  | .string s => .string s

def mapItems (float : UInt64 → UInt64) : List Value → List Value
  | [] => []
  | item :: items => mapFloat float item :: mapItems float items

def mapFields (float : UInt64 → UInt64) : List (String × Value) → List (String × Value)
  | [] => []
  | (key, value) :: fields => (key, mapFloat float value) :: mapFields float fields

end

mutual

/-- How deep arrays and objects are nested. -/
def depth : Value → ℕ
  | .array items => depthItems items + 1
  | .object fields => depthFields fields + 1
  | .float _ | .null | .bool _ | .int _ | .string _ => 0

def depthItems : List Value → ℕ
  | [] => 0
  | item :: items => max (depth item) (depthItems items)

def depthFields : List (String × Value) → ℕ
  | [] => 0
  | (_, value) :: fields => max (depth value) (depthFields fields)

end

mutual

theorem mapFloat_id : ∀ value : Value, mapFloat id value = value
  | .float _ | .null | .bool _ | .int _ | .string _ => rfl
  | .array items => congrArg Value.array (mapItems_id items)
  | .object fields => congrArg Value.object (mapFields_id fields)

theorem mapItems_id : ∀ items : List Value, mapItems id items = items
  | [] => rfl
  | item :: items => congrArg₂ List.cons (mapFloat_id item) (mapItems_id items)

theorem mapFields_id : ∀ fields : List (String × Value), mapFields id fields = fields
  | [] => rfl
  | (key, value) :: fields =>
      congrArg₂ List.cons (congrArg (Prod.mk key) (mapFloat_id value)) (mapFields_id fields)

end

/-- Options that can be read: a map without the keys of the entry itself that is not nested too
deep. -/
def Entry.Readable (limit : Option ℕ) (entry : Entry) : Prop :=
  entry.Plain ∧ ∀ n, limit = some n → depth entry.opt ≤ n

/-- **What is asked of a serialization**, where `float` is what printing and parsing makes of a
floating point number and `limit` is how deep the parser goes, if it does not go on for ever: only
such options are read, and entries that have them are read as they were written. -/
structure Json.Serde (json : Json Text) (float : UInt64 → UInt64) (limit : Option ℕ) : Prop where
  readable : ∀ {str config}, json.fromStr str = .ok config → config.All (Entry.Readable limit)
  reads : ∀ {config str}, config.All (Entry.Readable limit) → json.toStr config = .ok str →
    ∃ config', json.fromStr str = .ok config' ∧
      ∀ name, config'.net name =
        (config.net name).map fun entry => { entry with opt := mapFloat float entry.opt }

theorem Json.ideal_serde : Json.ideal.Serde id none where
  readable := by
    rintro str config ⟨⟩
    have hplain := str.reread_plain
    exact ⟨fun name entry h => ⟨hplain.net name entry h, nofun⟩,
      fun server hmem => ⟨hplain.server server hmem, nofun⟩⟩
  reads := by
    rintro config str hread ⟨⟩
    have hplain : config.All Entry.Plain :=
      ⟨fun name entry h => (hread.net name entry h).1,
        fun server hmem => (hread.server server hmem).1⟩
    refine ⟨config, congrArg Except.ok (Config.reread_of_plain hplain), fun name => ?_⟩
    cases config.net name with
    | none => rfl
    | some entry => rw [Option.map_some, mapFloat_id]

section Applied

variable (reg : Registry) (json : Json Text) (float : UInt64 → UInt64) (limit : Option ℕ)

/-- **An update that was carried out**: the name was defined, its new configuration was built,
the stored entry is that configuration as the builder has left it, and the `RunningNet` of the name
holds the net that was built. -/
def Applied (before : Running Text) (call : Call) (after : Running Text) : Prop :=
  ∃ config cfg newCfg refs config' x net,
    json.fromStr before.str = .ok config ∧ config.net call.netName = some cfg ∧
    reg.buildNet call.netName (call.update cfg) (updateGetter before.entities.nets) () =
      .ok ((newCfg, refs), ()) ∧
    json.fromStr after.str = .ok config' ∧ config'.net call.netName = some newCfg ∧
    after.entities.nets call.netName = some x ∧ after.entities.running[x]? = some net ∧
    net.given = call.update cfg ∧ net.cfg = newCfg ∧ net.refs = refs

/-- **When an update is carried out**: the net is defined and running, and the options that its
builder leaves are a map without the keys of the entry that is not nested too deep and whose
floating point numbers can be printed and parsed. -/
def Appliable (before : Running Text) (call : Call) : Prop :=
  ∃ config cfg x, json.fromStr before.str = .ok config ∧ config.net call.netName = some cfg ∧
    before.entities.nets call.netName = some x ∧
    ∀ newCfg refs,
      reg.buildNet call.netName (call.update cfg) (updateGetter before.entities.nets) () =
        .ok ((newCfg, refs), ()) →
      newCfg.Readable limit ∧ mapFloat float newCfg.opt = newCfg.opt

end Applied

section Calls

variable {reg : Registry} {json : Json Text} {state : Option (Running Text)}

/-- What is running in a reachable state is valid. -/
theorem reachable_valid (reach : (digger reg json).Reachable state) :
    ∀ running, state = some running → running.entities.Valid := by
  refine System.Reachable.invariant
    (P := fun state => ∀ running, state = some running → running.entities.Valid) ?_ ?_ reach
  · intro running h
    cases h
  · rintro s action s' hs hstep running rfl
    exact act_valid hs hstep

end Calls

/-- The new entry is read back from the text if and only if it can be read and its floating point
numbers can be printed and parsed. -/
theorem Json.Serde.read_iff {json : Json Text} {float : UInt64 → UInt64} {limit : Option ℕ}
    (laws : json.Serde float limit) {config : Config}
    (hreadable : config.All (Entry.Readable limit)) {name : String} {newCfg : Entry} {str : Text}
    (hwrite : json.toStr { config with net := Function.update config.net name (some newCfg) }
      = .ok str) :
    (∃ config', json.fromStr str = .ok config' ∧ config'.net name = some newCfg) ↔
      newCfg.Readable limit ∧ mapFloat float newCfg.opt = newCfg.opt := by
  have hback : newCfg.Readable limit → ∃ config', json.fromStr str = .ok config' ∧
      config'.net name = some { newCfg with opt := mapFloat float newCfg.opt } := by
    intro hnew
    obtain ⟨config', hread, hentries⟩ := laws.reads (hreadable.update name hnew) hwrite
    refine ⟨config', hread, (hentries name).trans ?_⟩
    dsimp only
    rw [Function.update_self]
    rfl
  constructor
  · rintro ⟨config', hread, hentry⟩
    have hnew : newCfg.Readable limit := (laws.readable hread).net name newCfg hentry
    obtain ⟨config'', hread', hentry'⟩ := hback hnew
    cases hread.symm.trans hread'
    have hsame := Option.some.inj (hentry'.symm.trans hentry)
    exact ⟨hnew, congrArg Entry.opt hsame⟩
  · rintro ⟨hnew, hfloat⟩
    obtain ⟨config', hread, hentry⟩ := hback hnew
    refine ⟨config', hread, hentry.trans ?_⟩
    rw [hfloat]

/-- **When an `Ok` means that the update was applied.**  For every registry and every serialization
of configs, in every running state that can be reached, and for every update that returns `Ok`: it
was carried out if and only if the name is defined in the stored config, has a running net, and the
options that the builder leaves can be flattened into an entry without loss. -/
theorem update_applied_iff (reg : Registry) (json : Json Text) (float : UInt64 → UInt64)
    (limit : Option ℕ) (laws : json.Serde float limit) {before after : Running Text}
    (reach : (digger reg json).Reachable (some before)) (call : Call)
    (hok : updateNet reg json (some before) call.netName call.update = (some after, .ok ())) :
    Applied reg json before call after ↔ Appliable reg json float limit before call := by
  have hdone := updateDone reg json before call.netName call.update
  rw [hok] at hdone
  cases hdone with
  | missing hread hmissing =>
      -- nothing has been done, and the net is missing
      refine iff_of_false ?_ ?_
      · rintro ⟨config', cfg, _, _, _, x, _, hread', hcfg, _, _, _, hx, _⟩
        rw [hread] at hread'
        cases hread'
        exact hmissing cfg x hcfg hx
      · rintro ⟨config', cfg, x, hread', hcfg, hx, _⟩
        rw [hread] at hread'
        cases hread'
        exact hmissing cfg x hcfg hx
  | @written config cfg newCfg x refs str hread hcfg hx hbuild hwrite =>
      have hiff := laws.read_iff (laws.readable hread) hwrite
      constructor
      · rintro ⟨config', cfg', newCfg', refs', back, _, _, hread', hcfg', hbuild', hback, hentry,
          _⟩
        refine ⟨config, cfg, x, hread, hcfg, hx, fun newCfg'' refs'' hbuild'' => ?_⟩
        rw [hread] at hread'
        cases hread'
        rw [hcfg] at hcfg'
        cases hcfg'
        rw [hbuild] at hbuild' hbuild''
        cases hbuild'
        cases hbuild''
        exact hiff.mp ⟨back, hback, hentry⟩
      · rintro ⟨config', cfg', x', hread', hcfg', hx', hleft⟩
        rw [hread] at hread'
        cases hread'
        rw [hcfg] at hcfg'
        cases hcfg'
        obtain ⟨back, hback, hentry⟩ := hiff.mpr (hleft newCfg refs hbuild)
        have hlt := (reachable_valid reach before rfl).table _ x hx
        refine ⟨config, cfg, newCfg, refs, back, x,
          { before.entities.running[x] with given := call.update cfg, cfg := newCfg, refs },
          hread, hcfg, hbuild, hback, hentry, hx, ?_, rfl, rfl, rfl⟩
        show (before.replace x _ newCfg refs).entities.running[x]? = _
        rw [Running.replace_getElem?, if_pos rfl, List.getElem?_eq_getElem hlt]
        rfl

/-! ## A net that no server uses -/

/-- `aliasConfig` with one more net, which no server uses. -/
def spareConfig : Config where
  net name :=
    if name = "spare" then some ⟨"alias", .object [("net", .string "local")]⟩
    else aliasConfig.net name
  server := aliasConfig.server

/-- An update that makes a net an alias of "noop". -/
def aliasNoop (netName : String) : Call := ⟨netName, aliasTo "noop"⟩

/-- The net of the server is updated. -/
theorem update_applied_iff_proxy : ∃ before after : Running Config,
    (digger stdRegistry Json.ideal).Reachable (some before) ∧
      updateNet stdRegistry Json.ideal (some before) "proxy" (aliasTo "noop") =
        (some after, .ok ()) ∧
      Applied stdRegistry Json.ideal before (aliasNoop "proxy") after := by
  obtain ⟨before, after, config, cfg, hrun, hok, hread, hcfg, hx, hbuild⟩ :
      ∃ before after : Running Config, ∃ config cfg,
        (digger stdRegistry Json.ideal).run [.start 3 aliasConfig] = some (some before) ∧
        updateNet stdRegistry Json.ideal (some before) "proxy" (aliasTo "noop") =
          (some after, .ok ()) ∧
        Json.ideal.fromStr before.str = .ok config ∧ config.net "proxy" = some cfg ∧
        before.entities.nets "proxy" = some 1 ∧
        stdRegistry.buildNet "proxy" (aliasTo "noop" cfg) (updateGetter before.entities.nets) () =
          .ok ((⟨"alias", .object [("net", .string "noop")]⟩, [0]), ()) :=
    ⟨_, _, _, _, rfl, rfl, rfl, rfl, rfl, rfl⟩
  have reach := System.reachable_of_run _ _ hrun
  refine ⟨before, after, reach, hok,
    (update_applied_iff _ _ id none Json.ideal_serde reach (aliasNoop "proxy") hok).mpr ?_⟩
  refine ⟨config, cfg, 1, hread, hcfg, hx, fun newCfg refs hbuilt => ?_⟩
  cases hbuild.symm.trans hbuilt
  exact ⟨⟨⟨_, rfl, by decide⟩, nofun⟩, rfl⟩

/-- **Updates that are ignored.**  Both a net that no server uses and a name that is not defined
can be "updated": the call returns `Ok`, and everything is as before. -/
theorem ignored_updates_return_ok : ∃ running : Running Config,
    (digger stdRegistry Json.ideal).run [.start 3 spareConfig] = some (some running) ∧
      running.str.net "spare" = some ⟨"alias", .object [("net", .string "local")]⟩ ∧
      aliasTo "noop" ⟨"alias", .object [("net", .string "local")]⟩
        = ⟨"alias", .object [("net", .string "noop")]⟩ ∧
      updateNet stdRegistry Json.ideal (some running) "spare" (aliasTo "noop")
        = (some running, .ok ()) ∧
      running.str.net "missing" = none ∧
      updateNet stdRegistry Json.ideal (some running) "missing" (aliasTo "noop")
        = (some running, .ok ()) :=
  ⟨_, rfl, rfl, rfl, rfl, rfl, rfl⟩

end RabbitDigger.Build
