import Mathlib.Data.List.Nodup
import Mathlib.Data.List.Perm.Basic
import RabbitDigger.Interface.Basic

/-!
# Visiting a configuration

`resolve_net` (`rd-interface/src/registry.rs`) walks through the value of a configuration type
and hands every `NetRef` to a getter, together with **the path** that leads to it.  The walk is
`Config::visit`, spread over the derive macro (`rd-derive`), the macros for containers
(`rd-interface/src/config.rs`) and single implementations; each of them has to recurse, and to
push and pop its own part of the path.  Generated net names are made of these paths.

Two implementations differ from the rest:

* a pair `(T1, T2)` is **not visited**: a `NetRef` inside of it stays without a value;
* `SingleOrVec::Vec` recurses but **pushes nothing**, so its items share one path.

`resolve_net_complete_iff` says that nothing else is wrong: a successful `resolve_net` calls the
getter once for every `NetRef`, with different paths, and leaves the path empty, if and only if
no `NetRef` stands in a pair (`Config.hidden`) and no two items of a `SingleOrVec::Vec` have a
`NetRef` at the same path below them (`Config.Apart`).

The types of a value are not kept here, only its shape: a container may hold values of different
shapes.
-/

namespace RabbitDigger.ConfigVisit

/-- `Resolvable<NetSchema>`: how the net is written, and the net itself once it is resolved. -/
structure NetRef (ν : Type) where
  represent : Value
  value : Option ν

mutual

/-- A value of a configuration type. -/
inductive Config (ν : Type) where
  /-- `NetRef`. -/
  | netRef (ref : NetRef ν)
  /-- A type of `impl_empty_config!`. -/
  | empty
  /-- A derived struct, or a variant of a derived enum (`i0`, `i1`, … if it has no names). -/
  | derived (fields : Fields ν)
  /-- `Vec`, `Option`, `VecDeque`, `Result`, `LinkedList`. -/
  | container (items : Items ν)
  /-- `HashMap`, `BTreeMap`, by the strings of their keys. -/
  | keyed (entries : Fields ν)
  /-- `SingleOrVec::Single`. -/
  | single (item : Config ν)
  /-- `SingleOrVec::Vec`. -/
  | vec (items : Items ν)
  /-- `(T1, T2)`. -/
  | pair (first second : Config ν)

/-- Values with names. -/
inductive Fields (ν : Type) where
  | nil
  | cons (name : String) (value : Config ν) (rest : Fields ν)

/-- Values without names. -/
inductive Items (ν : Type) where
  | nil
  | cons (value : Config ν) (rest : Items ν)

end

/-! ## The visit -/

/-- The path of the `VisitorContext`, what the getter works on, and the books: the calls of the
getter. -/
structure Visiting (ν σ : Type) where
  path : List String
  calls : List (List String × NetRef ν)
  state : σ

namespace Visiting

variable {ν σ : Type}

/-- `VisitorContext::push`. -/
def push (st : Visiting ν σ) (field : String) : Visiting ν σ :=
  { st with path := st.path ++ [field] }

/-- `VisitorContext::pop`. -/
def pop (st : Visiting ν σ) : Visiting ν σ := { st with path := st.path.dropLast }

end Visiting

/-- `NetGetter`: it may write the reference anew, and returns the net. -/
abbrev Getter (ν σ : Type) :=
  NetRef ν → List String → σ → Except Error ((Value × ν) × σ)

variable {ν σ : Type} (getter : Getter ν σ)

/-- `ResolveNetVisitor::visit_net_ref`. -/
def visitNetRef (ref : NetRef ν) (st : Visiting ν σ) : Except Error (NetRef ν × Visiting ν σ) := do
  let ((represent, net), state) ← getter ref st.path st.state
  return (⟨represent, some net⟩, { st with calls := st.calls ++ [(st.path, ref)], state })

mutual

/-- `Config::visit`. -/
def Config.visit : Config ν → Visiting ν σ → Except Error (Config ν × Visiting ν σ)
  | .netRef ref, st => do
      let (ref, st) ← visitNetRef getter ref st
      return (.netRef ref, st)
  | .empty, st => return (.empty, st)
  | .derived fields, st => do
      let (fields, st) ← fields.visit st
      return (.derived fields, st)
  | .container items, st => do
      let (items, st) ← items.visitEnumerated 0 st
      return (.container items, st)
  | .keyed entries, st => do
      let (entries, st) ← entries.visit st
      return (.keyed entries, st)
  | .single item, st => do
      let (item, st) ← item.visit st
      return (.single item, st)
  | .vec items, st => do
      let (items, st) ← items.visitFlat st
      return (.vec items, st)
  | .pair first second, st => return (.pair first second, st)

/-- `ctx.push(name); visit; ctx.pop()`, for every field or entry. -/
def Fields.visit : Fields ν → Visiting ν σ → Except Error (Fields ν × Visiting ν σ)
  | .nil, st => return (.nil, st)
  | .cons name value rest, st => do
      let (value, st) ← value.visit (st.push name)
      let (rest, st) ← rest.visit st.pop
      return (.cons name value rest, st)

/-- `ctx.push(key.to_string()); visit; ctx.pop()`, for every item, with its number. -/
def Items.visitEnumerated : Items ν → ℕ → Visiting ν σ → Except Error (Items ν × Visiting ν σ)
  | .nil, _, st => return (.nil, st)
  | .cons value rest, key, st => do
      let (value, st) ← value.visit (st.push key.repr)
      let (rest, st) ← rest.visitEnumerated (key + 1) st.pop
      return (.cons value rest, st)

/-- `visit`, for every item. -/
def Items.visitFlat : Items ν → Visiting ν σ → Except Error (Items ν × Visiting ν σ)
  | .nil, st => return (.nil, st)
  | .cons value rest, st => do
      let (value, st) ← value.visit st
      let (rest, st) ← rest.visitFlat st
      return (.cons value rest, st)

end

/-- `resolve_net`. -/
def resolveNet (config : Config ν) (state : σ) : Except Error (Config ν × Visiting ν σ) :=
  config.visit getter ⟨[], [], state⟩

/-! ## What a value contains -/

mutual

/-- All `NetRef`s. -/
def Config.netRefs : Config ν → List (NetRef ν)
  | .netRef ref => [ref]
  | .empty => []
  | .derived fields | .keyed fields => fields.netRefs
  | .container items | .vec items => items.netRefs
  | .single item => item.netRefs
  | .pair first second => first.netRefs ++ second.netRefs

def Fields.netRefs : Fields ν → List (NetRef ν)
  | .nil => []
  | .cons _ value rest => value.netRefs ++ rest.netRefs

def Items.netRefs : Items ν → List (NetRef ν)
  | .nil => []
  | .cons value rest => value.netRefs ++ rest.netRefs

end

mutual

/-- The `NetRef`s that stand **inside of a pair**. -/
def Config.hidden : Config ν → List (NetRef ν)
  | .netRef _ | .empty => []
  | .derived fields | .keyed fields => fields.hidden
  | .container items | .vec items => items.hidden
  | .single item => item.hidden
  | .pair first second => first.netRefs ++ second.netRefs

def Fields.hidden : Fields ν → List (NetRef ν)
  | .nil => []
  | .cons _ value rest => value.hidden ++ rest.hidden

def Items.hidden : Items ν → List (NetRef ν)
  | .nil => []
  | .cons value rest => value.hidden ++ rest.hidden

end

/-- The same with one more part in front of each path. -/
def under (field : String) (visited : List (List String × NetRef ν)) :
    List (List String × NetRef ν) :=
  visited.map fun v => (field :: v.1, v.2)

mutual

/-- The other `NetRef`s, with their paths. -/
def Config.visited : Config ν → List (List String × NetRef ν)
  | .netRef ref => [([], ref)]
  | .empty => []
  | .derived fields | .keyed fields => fields.visited
  | .container items => items.visitedFrom 0
  | .single item => item.visited
  | .vec items => items.visitedFlat
  | .pair _ _ => []

def Fields.visited : Fields ν → List (List String × NetRef ν)
  | .nil => []
  | .cons name value rest => under name value.visited ++ rest.visited

def Items.visitedFrom : Items ν → ℕ → List (List String × NetRef ν)
  | .nil, _ => []
  | .cons value rest, key => under key.repr value.visited ++ rest.visitedFrom (key + 1)

def Items.visitedFlat : Items ν → List (List String × NetRef ν)
  | .nil => []
  | .cons value rest => value.visited ++ rest.visitedFlat

end

/-- The names of fields. -/
def Fields.names : Fields ν → List String
  | .nil => []
  | .cons name _ rest => name :: rest.names

mutual

/-- **Fields and keys have different names.** -/
def Config.Valid : Config ν → Prop
  | .netRef _ | .empty => True
  | .derived fields | .keyed fields => fields.names.Nodup ∧ fields.Valid
  | .container items | .vec items => items.Valid
  | .single item => item.Valid
  | .pair first second => first.Valid ∧ second.Valid

def Fields.Valid : Fields ν → Prop
  | .nil => True
  | .cons _ value rest => value.Valid ∧ rest.Valid

def Items.Valid : Items ν → Prop
  | .nil => True
  | .cons value rest => value.Valid ∧ rest.Valid

end

/-- No two of the items have a `NetRef` at the same path below them. -/
def Items.Separate : Items ν → Prop
  | .nil => True
  | .cons value rest =>
      (∀ v ∈ value.visited, ∀ w ∈ rest.visitedFlat, v.1 ≠ w.1) ∧ rest.Separate

mutual

/-- **Items of a `SingleOrVec::Vec` are separate**, wherever one is visited. -/
def Config.Apart : Config ν → Prop
  | .netRef _ | .empty | .pair _ _ => True
  | .derived fields | .keyed fields => fields.Apart
  | .container items => items.Apart
  | .vec items => items.Apart ∧ items.Separate
  | .single item => item.Apart

def Fields.Apart : Fields ν → Prop
  | .nil => True
  | .cons _ value rest => value.Apart ∧ rest.Apart

def Items.Apart : Items ν → Prop
  | .nil => True
  | .cons value rest => value.Apart ∧ rest.Apart

end

/-! ## What a visit does -/

/-- **The effect of a visit**: the path is as before, the getter has been called for what is
visited, which has its values now, and what stands in pairs has not been touched. -/
structure Effect (st st' : Visiting ν σ) (before after : List (List String × NetRef ν))
    (hidden hidden' : List (NetRef ν)) : Prop where
  path : st'.path = st.path
  calls : st'.calls = st.calls ++ before.map fun v => (st.path ++ v.1, v.2)
  resolved : ∀ v ∈ after, v.2.value.isSome
  hidden : hidden' = hidden

namespace Effect

variable {st st₁ st₂ : Visiting ν σ} {a a' b b' : List (List String × NetRef ν)}
variable {h h' k k' : List (NetRef ν)}

/-- Nothing is visited. -/
theorem nothing (st : Visiting ν σ) (hidden : List (NetRef ν)) :
    Effect st st [] [] hidden hidden where
  path := rfl
  calls := (List.append_nil _).symm
  resolved := nofun
  hidden := rfl

/-- One visit after the other. -/
theorem append (first : Effect st st₁ a a' h h') (second : Effect st₁ st₂ b b' k k') :
    Effect st st₂ (a ++ b) (a' ++ b') (h ++ k) (h' ++ k') where
  path := second.path.trans first.path
  calls := by rw [second.calls, first.calls, first.path, List.map_append, List.append_assoc]
  resolved v hv := by
    rcases List.mem_append.mp hv with hv | hv
    · exact first.resolved v hv
    · exact second.resolved v hv
  hidden := by rw [first.hidden, second.hidden]

/-- A visit between a push and a pop. -/
theorem under {field : String} (inner : Effect (st.push field) st₁ a a' h h') :
    Effect st st₁.pop (ConfigVisit.under field a) (ConfigVisit.under field a') h h' where
  path := by
    show st₁.path.dropLast = st.path
    rw [inner.path]
    exact List.dropLast_concat
  calls := by
    show st₁.calls = _
    rw [inner.calls, ConfigVisit.under, List.map_map]
    simp [Visiting.push, Function.comp_def]
  resolved v hv := by
    obtain ⟨w, hw, rfl⟩ := List.mem_map.mp hv
    exact inner.resolved w hw
  hidden := inner.hidden

end Effect

variable {getter}

theorem visitNetRef_effect {ref ref' : NetRef ν} {st st' : Visiting ν σ}
    (h : visitNetRef getter ref st = .ok (ref', st')) :
    Effect st st' [([], ref)] [([], ref')] [] [] := by
  obtain ⟨⟨⟨represent, net⟩, state⟩, -, h⟩ := bind_ok.mp h
  cases h
  refine ⟨rfl, ?_, ?_, rfl⟩
  · simp
  · intro v hv
    obtain rfl := List.mem_singleton.mp hv
    rfl

mutual

/-- **The visit of a value**, by its shape. -/
theorem Config.visit_effect : ∀ (c : Config ν) {c' : Config ν} {st st' : Visiting ν σ},
    c.visit getter st = .ok (c', st') → Effect st st' c.visited c'.visited c.hidden c'.hidden
  | .netRef ref, c', st, st', h => by
      obtain ⟨⟨ref', st₁⟩, href, h⟩ := bind_ok.mp h
      cases h
      exact visitNetRef_effect href
  | .empty, c', st, st', h => by
      cases h
      exact .nothing st []
  | .derived fields, c', st, st', h => by
      obtain ⟨⟨fields', st₁⟩, hfields, h⟩ := bind_ok.mp h
      cases h
      exact fields.visit_effect hfields
  | .container items, c', st, st', h => by
      obtain ⟨⟨items', st₁⟩, hitems, h⟩ := bind_ok.mp h
      cases h
      exact items.visitEnumerated_effect 0 hitems
  | .keyed entries, c', st, st', h => by
      obtain ⟨⟨entries', st₁⟩, hentries, h⟩ := bind_ok.mp h
      cases h
      exact entries.visit_effect hentries
  | .single item, c', st, st', h => by
      obtain ⟨⟨item', st₁⟩, hitem, h⟩ := bind_ok.mp h
      cases h
      have heffect := item.visit_effect hitem
      exact heffect
  | .vec items, c', st, st', h => by
      obtain ⟨⟨items', st₁⟩, hitems, h⟩ := bind_ok.mp h
      cases h
      exact items.visitFlat_effect hitems
  | .pair first second, c', st, st', h => by
      cases h
      exact .nothing st _

theorem Fields.visit_effect : ∀ (fields : Fields ν) {fields' : Fields ν} {st st' : Visiting ν σ},
    fields.visit getter st = .ok (fields', st') →
      Effect st st' fields.visited fields'.visited fields.hidden fields'.hidden
  | .nil, fields', st, st', h => by
      cases h
      exact .nothing st []
  | .cons name value rest, fields', st, st', h => by
      obtain ⟨⟨value', st₁⟩, hvalue, h⟩ := bind_ok.mp h
      obtain ⟨⟨rest', st₂⟩, hrest, h⟩ := bind_ok.mp h
      cases h
      exact (value.visit_effect hvalue).under.append (rest.visit_effect hrest)

theorem Items.visitEnumerated_effect : ∀ (items : Items ν) (key : ℕ) {items' : Items ν}
    {st st' : Visiting ν σ}, items.visitEnumerated getter key st = .ok (items', st') →
      Effect st st' (items.visitedFrom key) (items'.visitedFrom key) items.hidden items'.hidden
  | .nil, key, items', st, st', h => by
      cases h
      exact .nothing st []
  | .cons value rest, key, items', st, st', h => by
      obtain ⟨⟨value', st₁⟩, hvalue, h⟩ := bind_ok.mp h
      obtain ⟨⟨rest', st₂⟩, hrest, h⟩ := bind_ok.mp h
      cases h
      exact (value.visit_effect hvalue).under.append (rest.visitEnumerated_effect (key + 1) hrest)

theorem Items.visitFlat_effect : ∀ (items : Items ν) {items' : Items ν} {st st' : Visiting ν σ},
    items.visitFlat getter st = .ok (items', st') →
      Effect st st' items.visitedFlat items'.visitedFlat items.hidden items'.hidden
  | .nil, items', st, st', h => by
      cases h
      exact .nothing st []
  | .cons value rest, items', st, st', h => by
      obtain ⟨⟨value', st₁⟩, hvalue, h⟩ := bind_ok.mp h
      obtain ⟨⟨rest', st₂⟩, hrest, h⟩ := bind_ok.mp h
      cases h
      exact (value.visit_effect hvalue).append (rest.visitFlat_effect hrest)

end

/-! ## Every reference, once -/

/-- Of two lists one after the other, the first parts and the second parts. -/
theorem perm_append_append {α : Type} (a b h k : List α) :
    ((a ++ b) ++ (h ++ k)).Perm ((a ++ h) ++ (b ++ k)) := by
  rw [List.append_assoc, List.append_assoc]
  exact (List.perm_append_comm_assoc b h k).append_left a

/-- The references do not depend on the path. -/
theorem map_snd_under (field : String) (visited : List (List String × NetRef ν)) :
    (under field visited).map Prod.snd = visited.map Prod.snd := by
  rw [under, List.map_map]
  rfl

mutual

/-- **What is visited and what stands in pairs is all there is.** -/
theorem Config.perm : ∀ c : Config ν, (c.visited.map Prod.snd ++ c.hidden).Perm c.netRefs
  | .netRef _ => .refl _
  | .empty => .refl _
  | .derived fields => fields.perm
  | .container items => items.permFrom 0
  | .keyed entries => entries.perm
  | .single item => item.perm
  | .vec items => items.permFlat
  | .pair _ _ => .refl _

theorem Fields.perm : ∀ fields : Fields ν,
    (fields.visited.map Prod.snd ++ fields.hidden).Perm fields.netRefs
  | .nil => .refl _
  | .cons name value rest => by
      simp only [Fields.visited, Fields.hidden, List.map_append, map_snd_under]
      exact (perm_append_append _ _ _ _).trans (value.perm.append rest.perm)

theorem Items.permFrom : ∀ (items : Items ν) (key : ℕ),
    ((items.visitedFrom key).map Prod.snd ++ items.hidden).Perm items.netRefs
  | .nil, _ => .refl _
  | .cons value rest, key => by
      simp only [Items.visitedFrom, Items.hidden, List.map_append, map_snd_under]
      exact (perm_append_append _ _ _ _).trans (value.perm.append (rest.permFrom (key + 1)))

theorem Items.permFlat : ∀ items : Items ν,
    (items.visitedFlat.map Prod.snd ++ items.hidden).Perm items.netRefs
  | .nil => .refl _
  | .cons value rest => by
      simp only [Items.visitedFlat, Items.hidden, List.map_append]
      exact (perm_append_append _ _ _ _).trans (value.perm.append rest.permFlat)

end

/-- All references are visited exactly if none stands in a pair. -/
theorem Config.visited_perm_iff (c : Config ν) :
    (c.visited.map Prod.snd).Perm c.netRefs ↔ c.hidden = [] := by
  have hperm := c.perm
  constructor
  · intro h
    have hlength := hperm.length_eq
    rw [List.length_append, h.length_eq] at hlength
    exact List.length_eq_zero_iff.mp (by omega)
  · intro h
    rwa [h, List.append_nil] at hperm

/-! ## Different paths -/

/-- All paths are different. -/
def PathsDistinct (visited : List (List String × NetRef ν)) : Prop :=
  (visited.map Prod.fst).Nodup

theorem pathsDistinct_append {a b : List (List String × NetRef ν)} :
    PathsDistinct (a ++ b) ↔
      PathsDistinct a ∧ PathsDistinct b ∧ ∀ v ∈ a, ∀ w ∈ b, v.1 ≠ w.1 := by
  simp only [PathsDistinct, List.map_append, List.nodup_append, List.forall_mem_map]

theorem pathsDistinct_under {field : String} {a : List (List String × NetRef ν)} :
    PathsDistinct (under field a) ↔ PathsDistinct a := by
  have hmap : (under field a).map Prod.fst = (a.map Prod.fst).map (field :: ·) := by
    rw [under, List.map_map, List.map_map]
    rfl
  rw [PathsDistinct, hmap]
  exact List.nodup_map_iff (fun x y h => (List.cons.inj h).2)

/-- Paths below a field that none of the others begins with. -/
theorem pathsDistinct_under_append {field : String} {a b : List (List String × NetRef ν)}
    (h : ∀ w ∈ b, w.1.head? ≠ some field) :
    PathsDistinct (under field a ++ b) ↔ PathsDistinct a ∧ PathsDistinct b := by
  rw [pathsDistinct_append, pathsDistinct_under]
  refine and_congr_right fun _ => and_iff_left ?_
  intro v hv w hw heq
  obtain ⟨u, -, rfl⟩ := List.mem_map.mp hv
  exact h w hw (heq ▸ rfl)

/-- A path into fields begins with the name of one. -/
theorem Fields.head_visited : ∀ (fields : Fields ν), ∀ v ∈ fields.visited,
    ∃ name ∈ fields.names, v.1.head? = some name
  | .nil, _, h => by cases h
  | .cons name value rest, v, h => by
      rcases List.mem_append.mp h with h | h
      · obtain ⟨u, -, rfl⟩ := List.mem_map.mp h
        exact ⟨name, List.mem_cons_self .., rfl⟩
      · obtain ⟨other, hother, hhead⟩ := rest.head_visited v h
        exact ⟨other, List.mem_cons_of_mem _ hother, hhead⟩

/-- A path into items begins with the number of one. -/
theorem Items.head_visitedFrom : ∀ (items : Items ν) (key : ℕ), ∀ v ∈ items.visitedFrom key,
    ∃ i, key ≤ i ∧ v.1.head? = some i.repr
  | .nil, _, _, h => by cases h
  | .cons value rest, key, v, h => by
      rcases List.mem_append.mp h with h | h
      · obtain ⟨u, -, rfl⟩ := List.mem_map.mp h
        exact ⟨key, Nat.le_refl key, rfl⟩
      · obtain ⟨i, hi, hhead⟩ := rest.head_visitedFrom (key + 1) v h
        exact ⟨i, Nat.le_of_succ_le hi, hhead⟩

/-- The numbers of items are written differently. -/
theorem repr_injective {i j : ℕ} (h : i.repr = j.repr) : i = j := by
  have hdigits : Nat.toDigits 10 i = Nat.toDigits 10 j := by
    rw [← Nat.toList_repr, ← Nat.toList_repr, h]
  rw [← Nat.ofDigitChars_ten_toDigits (n := i), hdigits, Nat.ofDigitChars_ten_toDigits]

mutual

/-- **Paths are different exactly if the items of each `SingleOrVec::Vec` are separate.** -/
theorem Config.pathsDistinct_iff : ∀ c : Config ν, c.Valid →
    (PathsDistinct c.visited ↔ c.Apart)
  | .netRef _, _ => iff_of_true (List.nodup_singleton _) trivial
  | .empty, _ => iff_of_true List.nodup_nil trivial
  | .derived fields, h => fields.pathsDistinct_iff h.1 h.2
  | .container items, h => items.pathsDistinctFrom_iff 0 h
  | .keyed entries, h => entries.pathsDistinct_iff h.1 h.2
  | .single item, h => item.pathsDistinct_iff h
  | .vec items, h => items.pathsDistinctFlat_iff h
  | .pair _ _, _ => iff_of_true List.nodup_nil trivial

theorem Fields.pathsDistinct_iff : ∀ fields : Fields ν, fields.names.Nodup → fields.Valid →
    (PathsDistinct fields.visited ↔ fields.Apart)
  | .nil, _, _ => iff_of_true List.nodup_nil trivial
  | .cons name value rest, hnames, h => by
      obtain ⟨hname, hrest⟩ := List.nodup_cons.mp hnames
      have hhead : ∀ w ∈ rest.visited, w.1.head? ≠ some name := by
        intro w hw heq
        obtain ⟨other, hother, hw⟩ := rest.head_visited w hw
        obtain rfl := Option.some.inj (hw.symm.trans heq)
        exact hname hother
      exact (pathsDistinct_under_append hhead).trans
        (and_congr (value.pathsDistinct_iff h.1) (rest.pathsDistinct_iff hrest h.2))

theorem Items.pathsDistinctFrom_iff : ∀ (items : Items ν) (key : ℕ), items.Valid →
    (PathsDistinct (items.visitedFrom key) ↔ items.Apart)
  | .nil, _, _ => iff_of_true List.nodup_nil trivial
  | .cons value rest, key, h => by
      have hhead : ∀ w ∈ rest.visitedFrom (key + 1), w.1.head? ≠ some key.repr := by
        intro w hw heq
        obtain ⟨i, hi, hw⟩ := rest.head_visitedFrom (key + 1) w hw
        have hkey := repr_injective (Option.some.inj (hw.symm.trans heq))
        omega
      exact (pathsDistinct_under_append hhead).trans
        (and_congr (value.pathsDistinct_iff h.1) (rest.pathsDistinctFrom_iff (key + 1) h.2))

theorem Items.pathsDistinctFlat_iff : ∀ items : Items ν, items.Valid →
    (PathsDistinct items.visitedFlat ↔ items.Apart ∧ items.Separate)
  | .nil, _ => iff_of_true List.nodup_nil ⟨trivial, trivial⟩
  | .cons value rest, h => by
      refine pathsDistinct_append.trans ?_
      rw [value.pathsDistinct_iff h.1, rest.pathsDistinctFlat_iff h.2]
      simp only [Items.Apart, Items.Separate]
      constructor
      · rintro ⟨hvalue, ⟨hrest, hseparate⟩, hcross⟩
        exact ⟨⟨hvalue, hrest⟩, hcross, hseparate⟩
      · rintro ⟨⟨hvalue, hrest⟩, hcross, hseparate⟩
        exact ⟨hvalue, ⟨hrest, hseparate⟩, hcross⟩

end

/-! ## `resolve_net` -/

/-- **What `resolve_net` is for**: the getter is called once on every `NetRef`, each of which has
a value afterwards; the paths it is called with are different; and the path is empty again. -/
structure Complete (config config' : Config ν) (st : Visiting ν σ) : Prop where
  once : (st.calls.map Prod.snd).Perm config.netRefs
  values : ∀ ref ∈ config'.netRefs, ref.value.isSome
  paths : (st.calls.map Prod.fst).Nodup
  path : st.path = []

/-- **A successful `resolve_net` is complete if and only if no `NetRef` stands in a pair and the
items of every `SingleOrVec::Vec` are separate**, for every value in which fields and keys have
different names, and every getter. -/
theorem resolve_net_complete_iff (getter : Getter ν σ) (config config' : Config ν) (state : σ)
    (st : Visiting ν σ) (hvalid : config.Valid)
    (h : resolveNet getter config state = .ok (config', st)) :
    Complete config config' st ↔ config.hidden = [] ∧ config.Apart := by
  have heffect := config.visit_effect h
  have hcalls : st.calls = config.visited := by
    rw [heffect.calls]
    simp
  constructor
  · rintro ⟨honce, -, hpaths, -⟩
    rw [hcalls] at honce hpaths
    exact ⟨config.visited_perm_iff.mp honce, (config.pathsDistinct_iff hvalid).mp hpaths⟩
  · rintro ⟨hhidden, hapart⟩
    refine ⟨?_, ?_, ?_, heffect.path⟩
    · rw [hcalls]
      exact config.visited_perm_iff.mpr hhidden
    · -- nothing is hidden after the visit either, so all references have been visited
      intro ref href
      have hperm := config'.visited_perm_iff.mpr (heffect.hidden.trans hhidden)
      obtain ⟨v, hv, rfl⟩ := List.mem_map.mp (hperm.mem_iff.mpr href)
      exact heffect.resolved v hv
    · rw [hcalls]
      exact (config.pathsDistinct_iff hvalid).mpr hapart

/-- A reference by name, not resolved. -/
def named (name : String) : Config ℕ := .netRef ⟨.string name, none⟩

/-- A getter that finds every net. -/
def finds : Getter ℕ Unit := fun ref _ state => .ok ((ref.represent, 0), state)

/-- `net: Vec<NetRef>` and `udp: SingleOrVec<NetRef>`, with one net in the vector. -/
def twoNets : Config ℕ :=
  .derived (.cons "net" (.container (.cons (named "a") (.cons (named "b") .nil)))
    (.cons "udp" (.vec (.cons (named "c") .nil)) .nil))

theorem resolve_net_complete_twoNets :
    ∃ config st, resolveNet finds twoNets () = .ok (config, st) ∧ Complete twoNets config st ∧
      st.calls.map Prod.fst = [["net", "0"], ["net", "1"], ["udp"]] := by
  refine ⟨_, _, rfl, (resolve_net_complete_iff finds twoNets _ () _ ?_ rfl).mpr ⟨rfl, ?_⟩, rfl⟩
  · exact ⟨by decide, ⟨trivial, trivial, trivial⟩, ⟨trivial, trivial⟩, trivial⟩
  · exact ⟨⟨trivial, trivial, trivial⟩, ⟨⟨trivial, trivial⟩, nofun, trivial⟩, trivial⟩

/-- **A reference in a pair is not resolved, and two references in a `SingleOrVec::Vec` have the
same path.** -/
theorem references_missed_and_confused :
    (∃ config st, resolveNet finds (.pair (named "a") .empty) () = .ok (config, st) ∧
        st.calls = [] ∧ config.netRefs.map NetRef.value = [none] ∧
        ¬ Complete (.pair (named "a") .empty) config st) ∧
      ∃ config st, resolveNet finds (.derived (.cons "net"
          (.vec (.cons (named "a") (.cons (named "b") .nil))) .nil)) () = .ok (config, st) ∧
        st.calls.map Prod.fst = [["net"], ["net"]] ∧
        ¬ Complete (.derived (.cons "net" (.vec (.cons (named "a") (.cons (named "b") .nil)))
          .nil)) config st := by
  refine ⟨⟨_, _, rfl, rfl, rfl, fun complete => ?_⟩, ⟨_, _, rfl, rfl, fun complete => ?_⟩⟩
  · have hlength := complete.once.length_eq
    cases hlength
  · have hpaths : ([["net"], ["net"]] : List (List String)).Nodup := complete.paths
    revert hpaths
    decide

end RabbitDigger.ConfigVisit
