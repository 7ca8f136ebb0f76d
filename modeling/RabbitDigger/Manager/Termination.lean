import Mathlib.Data.Set.Finite.Basic
import RabbitDigger.Foundation.Tally
import RabbitDigger.Manager.Cells

/-!
# `get_net` comes to an end

`get_net` calls itself through `build_net`, `resolve_net` and the getter, for every reference of
the net that it builds.  Nothing in it counts, and the map that it works through **grows while it
does**: an inline net is inserted under a generated name, which may be a name of the config, a net
that is cached, or a net that is being built at this moment, whose placeholder is then gone.

What falls is a sum.  A name has a **load** as long as it is not cached and has an entry that can
be built: one more than the size of its options.  A reference has a **weight**: nothing for a
name, the size of the configuration for an inline net.

* An inline net takes its load from the weight of the reference, for its options are smaller than
  the configuration they were read from.
* Taking an entry out of the config takes its load: the placeholder has none, if no net type is
  called "circular reference".
* The references of a net weigh no more than its options, if a reference is a part of the value it
  was read from or the name of a net.
* A call that succeeds leaves a load nowhere that was not there before (`Context.Lighter`): the
  names that it has inserted are cached by then.

So the loads of all names and the weight of the reference bound the depth of the recursion
(`getNet_ends`), and the entry that `get_net` has taken out is still there when it is put back.
-/

namespace RabbitDigger

/-- A value is another one or stands somewhere inside of it. -/
inductive Value.Within (v : Value) : Value → Prop where
  | here : Within v v
  | item {item : Value} {items : List Value} (mem : item ∈ items) (within : Within v item) :
      Within v (.array items)
  | field {field : String × Value} {fields : List (String × Value)} (mem : field ∈ fields)
      (within : Within v field.2) : Within v (.object fields)

theorem Value.Within.sizeOf_le {v w : Value} (h : v.Within w) : sizeOf v ≤ sizeOf w := by
  induction h with
  | here => exact le_rfl
  | item mem _ ih =>
      have hmem := List.sizeOf_lt_of_mem mem
      rw [Value.array.sizeOf_spec]
      omega
  | @field field fields mem _ ih =>
      have hmem := List.sizeOf_lt_of_mem mem
      have hfield : sizeOf field = 1 + sizeOf field.1 + sizeOf field.2 :=
        Prod.mk.sizeOf_spec field.1 field.2
      rw [Value.object.sizeOf_spec]
      omega

namespace Build

open Tally

/-! ## Deeper recursion -/

section Fuel

variable {σ : Type} {getter getter' : Getter σ}

/-- Where the first getter does not run out of fuel, the second one does the same. -/
def Agrees (getter getter' : Getter σ) : Prop :=
  ∀ ref st, getter ref st ≠ .error .outOfFuel → getter' ref st = getter ref st

theorem resolveNet_agrees (h : Agrees getter getter') (refs : List NetRef) (st : σ)
    (hfuel : resolveNet getter refs st ≠ .error .outOfFuel) :
    resolveNet getter' refs st = resolveNet getter refs st := by
  induction refs generalizing st with
  | nil => rfl
  | cons ref refs ih =>
      unfold resolveNet at hfuel ⊢
      have hfirst : getter ref st ≠ .error .outOfFuel := by
        intro hout
        rw [hout] at hfuel
        exact hfuel rfl
      rw [h ref st hfirst]
      cases hr : getter ref st with
      | error e => rfl
      | ok r =>
          have hrest : resolveNet getter refs r.2 ≠ .error .outOfFuel := by
            intro hout
            refine hfuel ?_
            rw [hr]
            show (resolveNet getter refs r.2 >>= _) = _
            rw [hout]
            rfl
          show (resolveNet getter' refs r.2 >>= _) = (resolveNet getter refs r.2 >>= _)
          rw [ih r.2 hrest]

theorem buildItem_agrees (h : Agrees getter getter') (kind name : String) (builder : Builder)
    (i : Entry) (st : σ) (hfuel : buildItem kind name builder i getter st ≠ .error .outOfFuel) :
    buildItem kind name builder i getter' st = buildItem kind name builder i getter st := by
  unfold buildItem buildDyn at hfuel ⊢
  dsimp only [bind, Except.bind] at hfuel ⊢
  cases hread : builder.fromValue i.opt with
  | error e => rfl
  | ok config =>
      rw [hread] at hfuel
      dsimp only [Except.mapError] at hfuel ⊢
      rw [resolveNet_agrees h]
      intro hout
      rw [hout] at hfuel
      exact hfuel rfl

theorem Registry.buildNet_agrees (reg : Registry) (h : Agrees getter getter') (name : String)
    (i : Entry) (st : σ) (hfuel : reg.buildNet name i getter st ≠ .error .outOfFuel) :
    reg.buildNet name i getter' st = reg.buildNet name i getter st := by
  unfold Registry.buildNet at hfuel ⊢
  cases hget : reg.getNet i.type with
  | error e => rfl
  | ok builder => exact buildItem_agrees h "net" name builder i st (by rwa [hget] at hfuel)

end Fuel

theorem getNet_agrees (reg : Registry) (fuel : ℕ) (pre : List String) :
    Agrees (getNet reg fuel pre) (getNet reg (fuel + 1) pre) := by
  induction fuel generalizing pre with
  | zero =>
      intro ref st hfuel
      exact absurd rfl hfuel
  | succ fuel ih =>
      intro ref st hfuel
      rw [getNet] at hfuel ⊢
      rw [getNet]
      beta_reduce at hfuel ⊢
      cases hname : st.nameOf pre ref with
      | error e => rfl
      | ok r =>
          obtain ⟨name, st₁⟩ := r
          rw [hname] at hfuel
          dsimp only [bind, Except.bind] at hfuel ⊢
          cases hcache : st₁.netCache name with
          | some net => rfl
          | none =>
              rw [hcache] at hfuel
              cases hcfg : st₁.config name with
              | none => rfl
              | some cfg =>
                  rw [hcfg] at hfuel
                  dsimp only at hfuel ⊢
                  rw [reg.buildNet_agrees (ih ["net", name])]
                  intro hout
                  rw [hout] at hfuel
                  exact hfuel rfl

/-- **More fuel does not change what a call ends with.** -/
theorem getNet_add {reg : Registry} {fuel : ℕ} {pre : List String} {ref : NetRef} {st : Context}
    (hfuel : getNet reg fuel pre ref st ≠ .error .outOfFuel) (more : ℕ) :
    getNet reg (fuel + more) pre ref st = getNet reg fuel pre ref st := by
  induction more with
  | zero => rfl
  | succ more ih =>
      rw [← Nat.add_assoc, getNet_agrees reg (fuel + more) pre ref st (ih ▸ hfuel), ih]

/-! ## Calls that end -/

section Ends

variable {σ β : Type} {Good : σ → Prop}

/-- The call returns, with an error or in a good state. -/
def Ends (Good : σ → Prop) : Except Failure (β × σ) → Prop
  | .ok r => Good r.2
  | .error (.error _) => True
  | .error _ => False

theorem Ends.not_outOfFuel {x : Except Failure (β × σ)} (h : Ends Good x) :
    x ≠ .error .outOfFuel := by
  rintro rfl
  exact h

theorem Ends.ok_or_error {x : Except Failure (β × σ)} (h : Ends Good x) :
    (∃ r, x = .ok r) ∨ ∃ e, x = .error (.error e) := by
  rcases x with (e | _ | _) | r
  · exact .inr ⟨e, rfl⟩
  · exact absurd h id
  · exact absurd h id
  · exact .inl ⟨r, rfl⟩

theorem Ends.imp {Good' : σ → Prop} {x : Except Failure (β × σ)} (h : Ends Good x)
    (himp : ∀ st, Good st → Good' st) : Ends Good' x := by
  rcases x with (_ | _ | _) | r
  · exact trivial
  · exact h
  · exact h
  · exact himp r.2 h

theorem Ends.context {x : Except Failure (β × σ)} (h : Ends Good x) (text : String) :
    Ends Good (x.mapError (Failure.context text)) := by
  rcases x with (_ | _ | _) | r
  · exact trivial
  · exact h
  · exact h
  · exact h

/-- One call after the other. -/
theorem Ends.bind {γ : Type} {Good' : σ → Prop} {x : Except Failure (β × σ)}
    {f : β × σ → Except Failure (γ × σ)} (h : Ends Good x)
    (hf : ∀ b st, x = .ok (b, st) → Good st → Ends Good' (f (b, st))) : Ends Good' (x >>= f) := by
  rcases x with (_ | _ | _) | ⟨b, st⟩
  · exact trivial
  · exact h
  · exact h
  · exact hf b st rfl h

/-- A step that leaves the state alone. -/
theorem Ends.mapError_bind {α : Type} {x : Except Error α} {f : α → Except Failure (β × σ)}
    (hf : ∀ a, x = .ok a → Ends Good (f a)) : Ends Good (x.mapError .error >>= f) := by
  rcases x with e | a
  · exact trivial
  · exact hf a rfl

variable {getter : Getter σ}

theorem resolveNet_ends {refs : List NetRef}
    (h : ∀ ref ∈ refs, ∀ st, Good st → Ends Good (getter ref st)) {st : σ} (hst : Good st) :
    Ends Good (resolveNet getter refs st) := by
  induction refs generalizing st with
  | nil => exact hst
  | cons ref refs ih =>
      refine (h ref (by simp) st hst).bind fun out st₁ _ hst₁ => ?_
      refine (ih (fun ref href => h ref (by simp [href])) hst₁).bind fun outs st₂ _ hst₂ => ?_
      exact hst₂

/-- **A build ends if the getter does**, for the references of the configuration. -/
theorem buildItem_ends {kind name : String} {builder : Builder} {i : Entry}
    (h : ∀ options, builder.fromValue i.opt = .ok options →
      ∀ ref ∈ options.refs, ∀ st, Good st → Ends Good (getter ref st))
    {st : σ} (hst : Good st) : Ends Good (buildItem kind name builder i getter st) := by
  have hdyn : Ends Good (buildDyn builder getter i.opt st) := by
    refine Ends.mapError_bind fun options hread => ?_
    refine (resolveNet_ends (h options hread) hst).bind fun outs st₁ _ hst₁ => ?_
    refine Ends.mapError_bind fun cfg _ => ?_
    exact Ends.mapError_bind fun _ _ => hst₁
  exact ((hdyn.context _).context _).bind fun _ st₁ _ hst₁ => hst₁

theorem Registry.buildNet_ends (reg : Registry) {name : String} {i : Entry}
    (h : ∀ options, reg.netOptions i = some options →
      ∀ ref ∈ options.refs, ∀ st, Good st → Ends Good (getter ref st))
    {st : σ} (hst : Good st) : Ends Good (reg.buildNet name i getter st) := by
  unfold Registry.buildNet Registry.getNet
  cases hnet : reg.net i.type with
  | none => exact trivial
  | some builder =>
      exact buildItem_ends (fun options hread =>
        h options (Registry.netOptions_eq_some.mpr ⟨builder, hnet, hread⟩)) hst

end Ends

/-! ## Loads and weights -/

theorem sizeOf_filter_le {α : Type} [SizeOf α] (p : α → Bool) (l : List α) :
    sizeOf (l.filter p) ≤ sizeOf l := by
  induction l with
  | nil => exact le_rfl
  | cons a l ih =>
      cases hp : p a with
      | true =>
          rw [List.filter_cons_of_pos hp, List.cons.sizeOf_spec, List.cons.sizeOf_spec]
          omega
      | false =>
          rw [List.filter_cons_of_neg (by simp [hp]), List.cons.sizeOf_spec]
          omega

theorem sizeOf_filter_lt {α : Type} [SizeOf α] {p : α → Bool} {l : List α} {a : α} (ha : a ∈ l)
    (hp : p a = false) : sizeOf (l.filter p) < sizeOf l := by
  induction l with
  | nil => cases ha
  | cons b l ih =>
      have hle := sizeOf_filter_le p l
      cases hb : p b with
      | true =>
          rw [List.filter_cons_of_pos hb, List.cons.sizeOf_spec, List.cons.sizeOf_spec]
          rcases List.mem_cons.mp ha with rfl | ha
          · rw [hp] at hb
            cases hb
          · have hlt := ih ha
            omega
      | false =>
          rw [List.filter_cons_of_neg (by simp [hb]), List.cons.sizeOf_spec]
          omega

/-- **The options are smaller than the configuration**: they lack at least its type. -/
theorem Entry.sizeOf_opt_lt {v : Value} {entry : Entry} (h : Entry.fromValue v = .ok entry) :
    sizeOf entry.opt < sizeOf v := by
  cases v with
  | object fields =>
      rw [Entry.fromValue] at h
      split at h
      · split at h
        · rename_i type htype
          cases h
          have hmem : ("type", Value.string type) ∈ fields := by
            obtain ⟨_, _, rfl, _⟩ := List.lookup_eq_some_iff.mp htype
            simp
          rw [Value.object.sizeOf_spec, Value.object.sizeOf_spec]
          have hlt := sizeOf_filter_lt hmem (p := fun field : String × Value =>
            !(field.1 == "type" || field.1 == "metadata" || reservedKeys.contains field.1)) rfl
          omega
        · cases h
        · cases h
      · cases h
  | _ => cases h

/-- **The references of a net are parts of its options, or names.** -/
def RefsFromValue (reg : Registry) : Prop :=
  ∀ entry options, reg.netOptions entry = some options → ∀ ref ∈ options.refs,
    (∃ name, ref.represent = .string name) ∨ ref.represent.Within entry.opt

/-- What there is to build under a reference itself. -/
noncomputable def NetRef.weight (ref : NetRef) : ℕ :=
  match ref.represent with
  | .string _ => 0
  | netCfg => sizeOf netCfg

theorem NetRef.weight_of_string {ref : NetRef} {name : String} (h : ref.represent = .string name) :
    ref.weight = 0 := by
  unfold NetRef.weight
  rw [h]

theorem NetRef.weight_of_inline {ref : NetRef} (h : ref.represent.asStr = none) :
    ref.weight = sizeOf ref.represent := by
  unfold NetRef.weight
  cases hrep : ref.represent with
  | string name =>
      rw [hrep] at h
      cases h
  | _ => rfl

theorem NetRef.weight_le (ref : NetRef) : ref.weight ≤ sizeOf ref.represent := by
  unfold NetRef.weight
  cases ref.represent with
  | string name => exact Nat.zero_le _
  | _ => exact le_rfl

theorem RefsFromValue.weight_le {reg : Registry} (hrefs : RefsFromValue reg) {entry : Entry}
    {options : Options} (hoptions : reg.netOptions entry = some options) {ref : NetRef}
    (href : ref ∈ options.refs) : ref.weight ≤ sizeOf entry.opt := by
  rcases hrefs entry options hoptions ref href with ⟨name, hname⟩ | hwithin
  · rw [NetRef.weight_of_string hname]
    exact Nat.zero_le _
  · exact ref.weight_le.trans hwithin.sizeOf_le

/-- What there is to build under an entry: nothing, if its type is not known. -/
noncomputable def Entry.load (reg : Registry) (entry : Entry) : ℕ :=
  if (reg.net entry.type).isSome then 1 + sizeOf entry.opt else 0

/-- What there is to build under a name. -/
noncomputable def Context.load (reg : Registry) (st : Context) (name : String) : ℕ :=
  if (st.netCache name).isSome then 0 else ((st.config name).map (Entry.load reg)).getD 0

section Load

variable {reg : Registry} {st st₁ st₂ : Context} {name : String}

theorem Context.load_of_cached (h : (st.netCache name).isSome) : st.load reg name = 0 := by
  unfold Context.load
  rw [if_pos h]

theorem Context.load_of_entry {entry : Entry} (hcache : st.netCache name = none)
    (hcfg : st.config name = some entry) : st.load reg name = entry.load reg := by
  unfold Context.load
  rw [hcache, hcfg]
  rfl

theorem Context.load_congr (hcache : st.netCache name = st₁.netCache name)
    (hcfg : st.config name = st₁.config name) : st.load reg name = st₁.load reg name := by
  unfold Context.load
  rw [hcache, hcfg]

/-- There is nowhere more to build than before, and all entries are still there. -/
structure Context.Lighter (reg : Registry) (st st' : Context) : Prop where
  load : ∀ name, st'.load reg name ≤ st.load reg name
  entry : ∀ name, (st.config name).isSome → (st'.config name).isSome

theorem Context.Lighter.refl (st : Context) : st.Lighter reg st :=
  ⟨fun _ => le_rfl, fun _ => id⟩

theorem Context.Lighter.trans (h : st.Lighter reg st₁) (h' : st₁.Lighter reg st₂) :
    st.Lighter reg st₂ :=
  ⟨fun name => (h'.load name).trans (h.load name), fun name => h'.entry name ∘ h.entry name⟩

/-- **Setting one entry** makes the context lighter if there is then nothing to build under
its name. -/
theorem Context.lighter_of_update {entry : Entry}
    (hconfig : st₁.config = Function.update st.config name (some entry))
    (hcache : ∀ other, other ≠ name → st₁.netCache other = st.netCache other)
    (hload : st₁.load reg name = 0) : st.Lighter reg st₁ := by
  constructor
  · intro other
    by_cases hother : other = name
    · subst hother
      rw [hload]
      exact Nat.zero_le _
    · refine le_of_eq (Context.load_congr (hcache other hother) ?_)
      rw [hconfig, Function.update_of_ne hother]
  · intro other hsome
    rw [hconfig]
    by_cases hother : other = name
    · subst hother
      rw [Function.update_self]
      rfl
    · rw [Function.update_of_ne hother]
      exact hsome

theorem Context.load_hide (hcircular : reg.net placeholder.type = none) (st : Context)
    (name : String) : (st.hide name).load reg name = 0 := by
  cases hcache : st.netCache name with
  | some net =>
      refine Context.load_of_cached ?_
      show (st.netCache name).isSome
      rw [hcache]
      rfl
  | none =>
      have hmiss : (st.hide name).netCache name = none := hcache
      have hentry : (st.hide name).config name = some placeholder := Function.update_self _ _ _
      rw [Context.load_of_entry hmiss hentry]
      unfold Entry.load
      rw [hcircular]
      rfl

theorem Context.load_store (st : Context) (net : Built) :
    (st.store net).load reg net.name = 0 := by
  refine Context.load_of_cached ?_
  show (Function.update st.netCache net.name (some st.nets.length) net.name).isSome
  rw [Function.update_self]
  rfl

/-- Finding the name of a reference that is cached. -/
theorem Context.lighter_nameOf {pre : List String} {ref : NetRef}
    (h : st.nameOf pre ref = .ok (name, st₁)) (hhit : (st₁.netCache name).isSome) :
    st.Lighter reg st₁ := by
  rcases Context.nameOf_ok.mp h with ⟨_, rfl⟩ | ⟨_, _, entry, _, rfl⟩
  · exact .refl _
  · exact Context.lighter_of_update rfl (fun _ _ => rfl) (Context.load_of_cached hhit)

/-- Finding the name of a reference and taking the entry out. -/
theorem Context.lighter_hide (hcircular : reg.net placeholder.type = none) {pre : List String}
    {ref : NetRef} (h : st.nameOf pre ref = .ok (name, st₁)) :
    st.Lighter reg (st₁.hide name) := by
  have hconfig : (st₁.hide name).config = Function.update st.config name (some placeholder) := by
    rcases Context.nameOf_ok.mp h with ⟨_, rfl⟩ | ⟨_, _, entry, _, rfl⟩
    · rfl
    · exact Function.update_idem _ _ _
  refine Context.lighter_of_update hconfig ?_ (Context.load_hide hcircular _ _)
  intro other _
  exact congrFun (Context.nameOf_frame h).1 other

theorem Context.lighter_store (st : Context) (net : Built) : st.Lighter reg (st.store net) :=
  Context.lighter_of_update rfl (fun _ hother => Function.update_of_ne hother _ _)
    (Context.load_store st net)

/-- **An entry that is taken out has been paid for**, by its own load or by the reference. -/
theorem Context.exists_weighs_hide (hcircular : reg.net placeholder.type = none)
    {pre : List String} {ref : NetRef} {cfg : Entry} {total : ℕ}
    (hst : Weighs (st.load reg) total) (h : st.nameOf pre ref = .ok (name, st₁))
    (hcache : st₁.netCache name = none) (hcfg : st₁.config name = some cfg)
    (hknown : (reg.net cfg.type).isSome) :
    ∃ rest, Weighs ((st₁.hide name).load reg) rest ∧
      rest + sizeOf cfg.opt < total + ref.weight := by
  have hlight := (Context.lighter_hide hcircular h).load
  rcases Context.nameOf_ok.mp h with ⟨_, rfl⟩ | ⟨hinline, _, entry, hentry, rfl⟩
  · obtain ⟨rest, hrest, hsum⟩ := hst.drop hlight (Context.load_hide hcircular _ name)
    have hload : st₁.load reg name = 1 + sizeOf cfg.opt := by
      rw [Context.load_of_entry hcache hcfg]
      exact if_pos hknown
    exact ⟨rest, hrest, by omega⟩
  · have heq : entry = cfg := by
      simpa using hcfg
    subst heq
    have hsmall := Entry.sizeOf_opt_lt hentry
    rw [NetRef.weight_of_inline hinline]
    exact ⟨total, hst.mono hlight, by omega⟩

end Load

/-! ## The end -/

theorem Context.nameOf_ends (pre : List String) (ref : NetRef) (st : Context) :
    Ends (fun _ => True) (st.nameOf pre ref) := by
  unfold Context.nameOf
  cases ref.represent with
  | string name => exact trivial
  | _ => exact Ends.mapError_bind fun _ _ => trivial

/-- **`get_net` ends**, for a depth beyond the loads of all names and the weight of the
reference, and leaves the context lighter. -/
theorem getNet_ends {reg : Registry} (hrefs : RefsFromValue reg)
    (hcircular : reg.net placeholder.type = none) (fuel : ℕ) (pre : List String) (ref : NetRef)
    (st : Context) {total : ℕ} (hst : Weighs (st.load reg) total)
    (hfuel : total + ref.weight < fuel) :
    Ends (st.Lighter reg) (getNet reg fuel pre ref st) := by
  induction fuel generalizing pre ref st total with
  | zero => exact absurd hfuel (Nat.not_lt_zero _)
  | succ fuel ih =>
      rw [getNet]
      refine (st.nameOf_ends pre ref).bind ?_
      intro name st₁ hname _
      dsimp only
      cases hcache : st₁.netCache name with
      | some net =>
          exact Context.lighter_nameOf hname (by simp [hcache])
      | none =>
          cases hcfg : st₁.config name with
          | none => exact trivial
          | some cfg =>
              have hhide := Context.lighter_hide hcircular hname
              have hbuild : Ends ((st₁.hide name).Lighter reg)
                  (reg.buildNet name cfg (getNet reg fuel ["net", name]) (st₁.hide name)) := by
                refine reg.buildNet_ends ?_ (.refl _)
                intro options hoptions child hchild st₂ hst₂
                obtain ⟨builder, hbuilder, _⟩ := Registry.netOptions_eq_some.mp hoptions
                obtain ⟨rest, hrest, hless⟩ := Context.exists_weighs_hide hcircular hst hname
                  hcache hcfg (by simp [hbuilder])
                have hweight := hrefs.weight_le hoptions hchild
                have hends := ih ["net", name] child st₂ (hrest.mono hst₂.load) (by omega)
                exact hends.imp fun _ hst₃ => hst₂.trans hst₃
              refine hbuild.bind ?_
              rintro ⟨cfg', refs⟩ st₂ _ hst₂
              have hstill : (st₂.config name).isSome := hst₂.entry name (by simp [Context.hide])
              obtain ⟨old, hold⟩ := Option.isSome_iff_exists.mp hstill
              dsimp only
              rw [hold]
              exact (hhide.trans hst₂).trans (Context.lighter_store st₂ _)

/-- The loads of a config are finite. -/
theorem Context.exists_weighs (reg : Registry) {st : Context}
    (hfinite : {name | (st.config name).isSome}.Finite) : ∃ total, Weighs (st.load reg) total := by
  refine ⟨_, hfinite.toFinset.toList, ?_, le_rfl⟩
  intro name hname
  have hnone : st.config name = none := by
    simpa using hname
  unfold Context.load
  rw [hnone]
  exact ite_self 0

/-- **`get_net` terminates.**  Whatever the nets of the config and the cache are, and whatever
the reference: from some depth on the recursion ends, always with the same result, and this is a
net or an error.  No `expect` fails and no guards conflict.

The nets of a config are finitely many, and the two assumptions are about the registry: that its
builders find their references in the value they are given, and that it has no net type
"circular reference". -/
theorem getNet_terminates {reg : Registry} (hrefs : RefsFromValue reg)
    (hcircular : reg.net placeholder.type = none) (pre : List String) (ref : NetRef)
    {st : Context} (hfinite : {name | (st.config name).isSome}.Finite) :
    ∃ depth result, (∀ fuel ≥ depth, Cells.getNet reg fuel pre ref st.cells = result) ∧
      ((∃ out st', result = .ok (out, Context.cells st')) ∨ ∃ e, result = .error (.error e)) := by
  obtain ⟨total, hst⟩ := Context.exists_weighs reg hfinite
  have hends := getNet_ends hrefs hcircular (total + ref.weight + 1) pre ref st hst (by omega)
  refine ⟨total + ref.weight + 1, Cells.getNet reg (total + ref.weight + 1) pre ref st.cells,
    ?_, ?_⟩
  · intro fuel hfuel
    obtain ⟨more, rfl⟩ := Nat.exists_eq_add_of_le hfuel
    rw [Cells.getNet_cells, Cells.getNet_cells, getNet_add hends.not_outOfFuel more]
  · rw [Cells.getNet_cells]
    rcases hends.ok_or_error with ⟨⟨out, st'⟩, hok⟩ | ⟨e, herror⟩
    · rw [hok]
      exact .inl ⟨out, st', rfl⟩
    · rw [herror]
      exact .inr ⟨e, rfl⟩

/-- The standard builders find their references in their configurations. -/
theorem refsFromValue_stdRegistry : RefsFromValue stdRegistry := by
  intro entry options hoptions ref href
  obtain ⟨builder, hbuilder, hread⟩ := Registry.netOptions_eq_some.mp hoptions
  unfold stdRegistry at hbuilder
  dsimp only at hbuilder
  split at hbuilder
  · cases hbuilder
    unfold aliasNet at hread
    dsimp only at hread
    split at hread
    · rename_i fields hopt
      split at hread
      · rename_i net hnet
        cases hread
        obtain rfl := List.mem_singleton.mp href
        obtain ⟨before, after, hfields, _⟩ := List.lookup_eq_some_iff.mp hnet
        have hmem : ("net", net) ∈ fields := by
          rw [hfields]
          simp
        refine .inr ?_
        rw [hopt]
        exact .field hmem .here
      · cases hread
    · cases hread
  · split at hbuilder
    · cases hbuilder
      cases hread
      cases href
    · cases hbuilder

/-- An alias whose target has an inline net.  The name generated for the inline net is that of
the alias. -/
def revived : Context where
  config name :=
    if name = "net/x/net" then some ⟨"alias", .object [("net", .string "x")]⟩
    else if name = "x" then
      some ⟨"alias", .object [("net", .object [("type", .string "noop")])]⟩
    else none
  netCache _ := none
  nets := []

/-- While the alias is being built, the inline net takes the place of its placeholder. -/
theorem getNet_terminates_revived :
    ∃ depth result, (∀ fuel ≥ depth, Cells.getNet stdRegistry fuel ["server", "s"]
        ⟨["net"], .string "net/x/net"⟩ revived.cells = result) ∧
      ((∃ out st', result = .ok (out, Context.cells st')) ∨ ∃ e, result = .error (.error e)) := by
  refine getNet_terminates refsFromValue_stdRegistry (by decide) _ _ ?_
  refine Set.Finite.subset (Set.toFinite {"net/x/net", "x"}) ?_
  intro name hname
  by_contra hother
  simp only [Set.mem_insert_iff, Set.mem_singleton_iff, not_or] at hother
  simp [revived, hother.1, hother.2] at hname

-- The inline net is made first, then "x", and then the alias, under the name of the inline net.
example : (getNet stdRegistry 3 ["server", "s"] ⟨["net"], .string "net/x/net"⟩ revived).toOption.map
    (fun r => (r.1.2, r.2.nets.map Built.name)) = some (2, ["net/x/net", "x", "net/x/net"]) := by
  decide

end Build

end RabbitDigger
