import Mathlib.Data.Finset.Dedup
import RabbitDigger.Foundation.Peeling

/-!
# Sorting by dependencies

`src/util.rs`: `topological_sort` puts the items of a map into an order in which each one comes
after those it depends on.  It hands the dependencies to the crate `topological_sort`, **an item
before its dependencies**, pops one node after the other, and reverses the order by pushing to
the front.  An artificial node `Root` points to all items, or to the given roots.

The crate is a graph from which one node at a time is popped (`TopologicalSort`); which one, if
several have no predecessor left, is up to its hash map, so everything is said for every choice
(`Popper`).  The loop is then a peeling in the sense of `Foundation.Peeling`.

Nothing ever computes what the roots reach.  A node is in the graph because **some edge mentions
it** (`Mentioned`), and that is what decides about the result (`topologicalSort_spec`):

* with `RootType::All` every key is mentioned, and the result is what it should be
  (`sort_all_correct`);
* with `RootType::Key` an item that no root reaches is in the result, or makes it fail by a cycle,
  if it has dependencies; so the result is right exactly if there is no such item, or a root
  reaches a cycle anyway (`sort_roots_correct_iff`).
-/

namespace RabbitDigger.Util

open Acyclicity Relation Peeling

/-! ## The crate -/

/-- `topological_sort::TopologicalSort`: the elements that have not been popped, and the pairs of
an element and one that has to come after it. -/
structure TopologicalSort (α : Type) where
  nodes : List α
  edges : List (α × α)
deriving Repr, DecidableEq

namespace TopologicalSort

variable {α : Type} [DecidableEq α]

/-- `TopologicalSort::new`. -/
def new : TopologicalSort α := ⟨[], []⟩

/-- `add_dependency`; a pair that is there already changes nothing. -/
def addDependency (ts : TopologicalSort α) (prec succ : α) : TopologicalSort α where
  nodes := (ts.nodes.insert prec).insert succ
  edges := ts.edges.insert (prec, succ)

/-- An element has no remaining predecessor. -/
def isFree (ts : TopologicalSort α) (n : α) : Bool := ts.nodes.all fun m => (m, n) ∉ ts.edges

/-- What is left when an element is popped. -/
def remove (ts : TopologicalSort α) (n : α) : TopologicalSort α where
  nodes := ts.nodes.filter fun m => m ≠ n
  edges := ts.edges.filter fun edge => edge.1 ≠ n

end TopologicalSort

/-- `TopologicalSort::pop` picks one of the elements without a remaining predecessor, and none
only if there is none. -/
structure Popper (α : Type) [DecidableEq α] where
  pick : TopologicalSort α → Option α
  pick_some : ∀ ts n, pick ts = some n → n ∈ ts.nodes ∧ ts.isFree n = true
  pick_none : ∀ ts, pick ts = none → ∀ n ∈ ts.nodes, ts.isFree n = false

/-- Popping the first element that can be popped. -/
def Popper.first (α : Type) [DecidableEq α] : Popper α where
  pick ts := ts.nodes.find? ts.isFree
  pick_some ts n h := ⟨List.mem_of_find?_eq_some h, List.find?_some h⟩
  pick_none ts h n hn := by simpa using List.find?_eq_none.mp h n hn

/-! ## `topological_sort` -/

/-- `RootType`. -/
inductive RootType (K : Type) where
  | all
  | key (roots : List K)
deriving Repr

/-- `Node`. -/
inductive Node (T : Type) where
  | item (t : T)
  | root
deriving Repr, DecidableEq

/-- A `HashMap`, in the order in which it is iterated. -/
structure HashMap (K V : Type) where
  entries : List (K × V)
  nodup : (entries.map Prod.fst).Nodup

section Sorting

variable {K V E : Type} [DecidableEq K]

/-- The dependencies of one item, and the edge of `RootType::All`. -/
def addItem (root : RootType K) (ts : TopologicalSort (Node K)) (k : K) (deps : List K) :
    TopologicalSort (Node K) :=
  let ts := deps.foldl (fun ts d => ts.addDependency (.item k) (.item d)) ts
  match root with
  | .all => ts.addDependency .root (.item k)
  | .key _ => ts

/-- The edges of `RootType::Key`. -/
def addRoots (root : RootType K) (ts : TopologicalSort (Node K)) : TopologicalSort (Node K) :=
  match root with
  | .all => ts
  | .key roots => roots.foldl (fun ts k => ts.addDependency .root (.item k)) ts

/-- `for (k, v) in map.iter()`; the first failure of `get_deps` is returned. -/
def addItems (root : RootType K) (getDeps : K → V → Except E (List K)) :
    List (K × V) → TopologicalSort (Node K) → Except E (TopologicalSort (Node K))
  | [], ts => .ok ts
  | (k, v) :: entries, ts => do
      let deps ← getDeps k v
      addItems root getDeps entries (addItem root ts k deps)

/-- `while let Some(k) = ts.pop()`, at most so many times; `none` if the loop goes on. -/
def popAll (popper : Popper (Node K)) :
    ℕ → TopologicalSort (Node K) → List K → Option (TopologicalSort (Node K) × List K)
  | 0, _, _ => none
  | passes + 1, ts, list =>
      match popper.pick ts with
      | none => some (ts, list)
      | some .root => popAll popper passes (ts.remove .root) list
      | some (.item k) => popAll popper passes (ts.remove (.item k)) (k :: list)

/-- The keys with what `map.remove(&k)` returns for them. -/
def takeEach : List K → List (K × V) → List (K × V)
  | [], _ => []
  | k :: keys, map =>
      match map.lookup k with
      | none => takeEach keys map
      | some v => (k, v) :: takeEach keys (map.filter fun entry => entry.1 ≠ k)

/-- `topological_sort`; `none` if the loop has not ended after so many passes. -/
def topologicalSort (popper : Popper (Node K)) (passes : ℕ) (root : RootType K)
    (map : HashMap K V) (getDeps : K → V → Except E (List K)) :
    Option (Except E (Option (List (K × V)))) :=
  match addItems root getDeps map.entries .new with
  | .error e => some (.error e)
  | .ok ts =>
      (popAll popper passes (addRoots root ts) []).map fun (ts, list) =>
        .ok (if ts.nodes = [] then some (takeEach list map.entries) else none)

/-! ## The graph -/

/-- An item depends on a key. -/
def Depends (map : HashMap K V) (getDeps : K → V → Except E (List K)) (k d : K) : Prop :=
  ∃ v deps, (k, v) ∈ map.entries ∧ getDeps k v = .ok deps ∧ d ∈ deps

/-- The keys that `Root` points to. -/
def RootType.keys (root : RootType K) (map : HashMap K V) : List K :=
  match root with
  | .all => map.entries.map Prod.fst
  | .key roots => roots

/-- **A key is in the graph** if it is a root, has a dependency or is one. -/
def Mentioned (root : RootType K) (map : HashMap K V) (getDeps : K → V → Except E (List K))
    (k : K) : Prop :=
  k ∈ root.keys map ∨ (∃ d, Depends map getDeps k d) ∨ ∃ j, Depends map getDeps j k

/-- The edges of the graph. -/
inductive Edge (root : RootType K) (map : HashMap K V) (getDeps : K → V → Except E (List K)) :
    Node K → Node K → Prop where
  | root {k : K} (mem : k ∈ root.keys map) : Edge root map getDeps .root (.item k)
  | item {k d : K} (depends : Depends map getDeps k d) : Edge root map getDeps (.item k) (.item d)

/-- The graph has these edges, and the nodes are those that an edge mentions. -/
structure Describes (ts : TopologicalSort (Node K)) (edge : Node K → Node K → Prop) : Prop where
  edges : ∀ a b, (a, b) ∈ ts.edges ↔ edge a b
  nodes : ∀ a, a ∈ ts.nodes ↔ ∃ b, edge a b ∨ edge b a

namespace Describes

variable {ts : TopologicalSort (Node K)} {edge edge' : Node K → Node K → Prop}

omit [DecidableEq K] in
theorem new : Describes (K := K) .new fun _ _ => False where
  edges a b := by simp [TopologicalSort.new]
  nodes a := by simp [TopologicalSort.new]

omit [DecidableEq K] in
theorem congr (h : Describes ts edge) (heq : ∀ a b, edge a b ↔ edge' a b) :
    Describes ts edge' where
  edges a b := (h.edges a b).trans (heq a b)
  nodes a := (h.nodes a).trans (exists_congr fun b => or_congr (heq a b) (heq b a))

/-- One more edge. -/
theorem addDependency (h : Describes ts edge) (p s : Node K) :
    Describes (ts.addDependency p s) fun a b => edge a b ∨ (a = p ∧ b = s) where
  edges a b := by
    show (a, b) ∈ ts.edges.insert (p, s) ↔ _
    rw [List.mem_insert_iff, h.edges, Prod.mk.injEq, or_comm]
  nodes a := by
    show a ∈ (ts.nodes.insert p).insert s ↔ _
    rw [List.mem_insert_iff, List.mem_insert_iff, h.nodes]
    constructor
    · rintro (rfl | rfl | ⟨b, hb | hb⟩)
      · exact ⟨p, .inr (.inr ⟨rfl, rfl⟩)⟩
      · exact ⟨s, .inl (.inr ⟨rfl, rfl⟩)⟩
      · exact ⟨b, .inl (.inl hb)⟩
      · exact ⟨b, .inr (.inl hb)⟩
    · rintro ⟨b, (hb | ⟨rfl, rfl⟩) | (hb | ⟨rfl, rfl⟩)⟩
      · exact .inr (.inr ⟨b, .inl hb⟩)
      · exact .inr (.inl rfl)
      · exact .inr (.inr ⟨b, .inr hb⟩)
      · exact .inl rfl

/-- Edges from one node to many. -/
theorem foldl (h : Describes ts edge) (p : Node K) (keys : List K) :
    Describes (keys.foldl (fun ts d => ts.addDependency p (.item d)) ts) fun a b =>
      edge a b ∨ (a = p ∧ ∃ d ∈ keys, b = .item d) := by
  induction keys generalizing ts edge with
  | nil => exact h.congr fun a b => by simp
  | cons d keys ih =>
      refine (ih (h.addDependency p (.item d))).congr fun a b => ?_
      simp only [List.mem_cons, exists_eq_or_imp]
      tauto

/-- The edges of one item. -/
theorem addItem (h : Describes ts edge) (root : RootType K) (k : K) (deps : List K) :
    Describes (addItem root ts k deps) fun a b => edge a b ∨
      (a = .item k ∧ ∃ d ∈ deps, b = .item d) ∨ (root = .all ∧ a = .root ∧ b = .item k) := by
  cases root with
  | all =>
      refine ((h.foldl (.item k) deps).addDependency .root (.item k)).congr fun a b => ?_
      simp only [true_and, or_assoc]
  | key roots =>
      refine (h.foldl (.item k) deps).congr fun a b => ?_
      simp only [reduceCtorEq, false_and, or_false]

end Describes

/-- `get_deps` fails for no item. -/
def NeverFails (map : List (K × V)) (getDeps : K → V → Except E (List K)) : Prop :=
  ∀ entry ∈ map, ∃ deps, getDeps entry.1 entry.2 = .ok deps

section Graph

variable {root : RootType K} {getDeps : K → V → Except E (List K)} {map : HashMap K V}

/-- The edges of some items. -/
def ItemEdge (root : RootType K) (getDeps : K → V → Except E (List K)) (entries : List (K × V))
    (a b : Node K) : Prop :=
  ∃ entry ∈ entries, ∃ deps, getDeps entry.1 entry.2 = .ok deps ∧
    ((a = .item entry.1 ∧ ∃ d ∈ deps, b = .item d) ∨
      (root = .all ∧ a = .root ∧ b = .item entry.1))

/-- All items, if `get_deps` does not fail. -/
theorem addItems_ok (root : RootType K) {entries : List (K × V)}
    (hdeps : NeverFails entries getDeps)
    {ts : TopologicalSort (Node K)} {edge : Node K → Node K → Prop} (h : Describes ts edge) :
    ∃ ts', addItems root getDeps entries ts = .ok ts' ∧
      Describes ts' fun a b => edge a b ∨ ItemEdge root getDeps entries a b := by
  induction entries generalizing ts edge with
  | nil => exact ⟨ts, rfl, h.congr fun a b => by simp [ItemEdge]⟩
  | cons entry entries ih =>
      obtain ⟨k, v⟩ := entry
      obtain ⟨deps, hok⟩ := hdeps (k, v) (List.mem_cons_self ..)
      obtain ⟨ts', hts', hdescribes⟩ :=
        ih (fun entry hmem => hdeps entry (List.mem_cons_of_mem _ hmem)) (h.addItem root k deps)
      refine ⟨ts', ?_, hdescribes.congr fun a b => ?_⟩
      · unfold addItems
        rw [hok]
        exact hts'
      · have hfirst : (∃ deps', getDeps k v = .ok deps' ∧
            ((a = .item k ∧ ∃ d ∈ deps', b = .item d) ∨
              (root = .all ∧ a = .root ∧ b = .item k))) ↔
            ((a = .item k ∧ ∃ d ∈ deps, b = .item d) ∨
              (root = .all ∧ a = .root ∧ b = .item k)) := by
          rw [hok]
          simp only [Except.ok.injEq, exists_eq_left']
        unfold ItemEdge
        rw [List.exists_mem_cons_iff, hfirst, or_assoc]

/-- A failure of `get_deps` is returned, whichever item it is about. -/
theorem addItems_error (root : RootType K) {entries : List (K × V)}
    (hfails : ¬ NeverFails entries getDeps) (ts : TopologicalSort (Node K)) :
    ∃ e, addItems root getDeps entries ts = .error e := by
  induction entries generalizing ts with
  | nil => exact absurd (fun _ hmem => by cases hmem) hfails
  | cons entry entries ih =>
      obtain ⟨k, v⟩ := entry
      unfold addItems
      cases hok : getDeps k v with
      | error e => exact ⟨e, rfl⟩
      | ok deps =>
          refine ih (fun hrest => hfails ?_) (addItem root ts k deps)
          intro entry hmem
          rcases List.mem_cons.mp hmem with rfl | hmem
          · exact ⟨deps, hok⟩
          · exact hrest entry hmem

/-- **The graph of `topological_sort`.** -/
theorem graph_ok (root : RootType K) (hdeps : NeverFails map.entries getDeps) :
    ∃ ts, addItems root getDeps map.entries .new = .ok ts ∧
      Describes (addRoots root ts) (Edge root map getDeps) := by
  obtain ⟨ts, hts, hdescribes⟩ := addItems_ok root hdeps Describes.new
  refine ⟨ts, hts, ?_⟩
  have hitem : ∀ k d, (∃ entry ∈ map.entries, ∃ deps, getDeps entry.1 entry.2 = .ok deps ∧
      k = entry.1 ∧ d ∈ deps) ↔ Depends map getDeps k d := by
    intro k d
    constructor
    · rintro ⟨⟨_, v⟩, hmem, deps, hok, rfl, hd⟩
      exact ⟨v, deps, hmem, hok, hd⟩
    · rintro ⟨v, deps, hmem, hok, hd⟩
      exact ⟨(k, v), hmem, deps, hok, rfl, hd⟩
  cases root with
  | all =>
      refine hdescribes.congr fun a b => ?_
      constructor
      · rintro (hfalse | ⟨entry, hmem, deps, hok, ⟨rfl, d, hd, rfl⟩ | ⟨-, rfl, rfl⟩⟩)
        · exact hfalse.elim
        · exact .item ((hitem _ _).mp ⟨entry, hmem, deps, hok, rfl, hd⟩)
        · exact .root (List.mem_map_of_mem hmem)
      · rintro (⟨hk⟩ | ⟨hd⟩)
        · obtain ⟨entry, hmem, rfl⟩ := List.mem_map.mp hk
          obtain ⟨deps, hok⟩ := hdeps entry hmem
          exact .inr ⟨entry, hmem, deps, hok, .inr ⟨rfl, rfl, rfl⟩⟩
        · obtain ⟨entry, hmem, deps, hok, rfl, hdep⟩ := (hitem _ _).mpr hd
          exact .inr ⟨entry, hmem, deps, hok, .inl ⟨rfl, _, hdep, rfl⟩⟩
  | key roots =>
      refine (hdescribes.foldl .root roots).congr fun a b => ?_
      constructor
      · rintro ((hfalse | ⟨entry, hmem, deps, hok, ⟨rfl, d, hd, rfl⟩ | ⟨hall, -⟩⟩) |
          ⟨rfl, k, hk, rfl⟩)
        · exact hfalse.elim
        · exact .item ((hitem _ _).mp ⟨entry, hmem, deps, hok, rfl, hd⟩)
        · cases hall
        · exact .root hk
      · rintro (⟨hk⟩ | ⟨hd⟩)
        · exact .inr ⟨rfl, _, hk, rfl⟩
        · obtain ⟨entry, hmem, deps, hok, rfl, hdep⟩ := (hitem _ _).mpr hd
          exact .inl (.inr ⟨entry, hmem, deps, hok, .inl ⟨rfl, _, hdep, rfl⟩⟩)

omit [DecidableEq K] in
/-- Paths between items are chains of dependencies. -/
theorem transGen_edge {k : K} {b : Node K} (h : TransGen (Edge root map getDeps) (.item k) b) :
    ∃ d, b = .item d ∧ TransGen (Depends map getDeps) k d := by
  induction h with
  | single hstep =>
      obtain ⟨⟩ | ⟨hd⟩ := hstep
      exact ⟨_, rfl, .single hd⟩
  | tail _ hstep ih =>
      obtain ⟨d, rfl, hpath⟩ := ih
      obtain ⟨⟩ | ⟨hd⟩ := hstep
      exact ⟨_, rfl, hpath.tail hd⟩

omit [DecidableEq K] in
/-- The graph has a cycle exactly if the dependencies have one: nothing points to `Root`. -/
theorem acyclic_edge_iff :
    Acyclic (Edge root map getDeps) ↔ Acyclic (Depends map getDeps) := by
  constructor
  · intro hedge k hk
    exact hedge (.item k) (TransGen.lift Node.item (fun _ _ hd => Edge.item hd) k k hk)
  · intro hdep a ha
    obtain ⟨b, hab, hba⟩ := TransGen.tail'_iff.mp ha
    have hitem : ∃ k, a = .item k := by
      obtain ⟨_⟩ | ⟨_⟩ := hba
      · exact ⟨_, rfl⟩
      · exact ⟨_, rfl⟩
    obtain ⟨k, rfl⟩ := hitem
    obtain ⟨d, hd, hpath⟩ := transGen_edge ha
    cases hd
    exact hdep k hpath

omit [DecidableEq K] in
/-- The items in the graph are those that are mentioned. -/
theorem Describes.mem_item_iff {ts : TopologicalSort (Node K)}
    (h : Describes ts (Edge root map getDeps)) (k : K) :
    .item k ∈ ts.nodes ↔ Mentioned root map getDeps k := by
  rw [h.nodes]
  constructor
  · rintro ⟨b, hout | hin⟩
    · cases hout with
      | item hd => exact .inr (.inl ⟨_, hd⟩)
    · cases hin with
      | root hk => exact .inl hk
      | item hd => exact .inr (.inr ⟨_, hd⟩)
  · rintro (hk | ⟨d, hd⟩ | ⟨j, hd⟩)
    · exact ⟨.root, .inr (.root hk)⟩
    · exact ⟨.item d, .inl (.item hd)⟩
    · exact ⟨.item j, .inr (.item hd)⟩

end Graph

/-! ## The loop -/

/-- The key of an item. -/
def Node.key? {T : Type} : Node T → Option T
  | .item t => some t
  | .root => none

/-- What is left of a graph has the edges of the graph between what is left. -/
def Agrees (ts : TopologicalSort (Node K)) (edge : Node K → Node K → Prop) : Prop :=
  ∀ m ∈ ts.nodes, ∀ n, (m, n) ∈ ts.edges ↔ edge m n

section Loop

variable {popper : Popper (Node K)} {edge : Node K → Node K → Prop}
variable {ts ts' : TopologicalSort (Node K)} {list list' : List K}

theorem Agrees.remove (h : Agrees ts edge) (x : Node K) : Agrees (ts.remove x) edge := by
  intro m hm n
  obtain ⟨hmem, hne⟩ := List.mem_filter.mp hm
  have hne : m ≠ x := by simpa using hne
  rw [← h m hmem n]
  simp [TopologicalSort.remove, hne]

theorem Agrees.isFree_iff (h : Agrees ts edge) (n : Node K) :
    ts.isFree n = true ↔ ∀ m ∈ ts.nodes.toFinset, ¬ edge m n := by
  simp only [TopologicalSort.isFree, List.all_eq_true, decide_eq_true_eq, List.mem_toFinset]
  exact forall₂_congr fun m hm => not_congr (h m hm n)

theorem toFinset_remove (ts : TopologicalSort (Node K)) (x : Node K) :
    (ts.remove x).nodes.toFinset = ts.nodes.toFinset.erase x := by
  ext n
  simp [TopologicalSort.remove, and_comm]

/-- **The loop peels the graph**, whatever is popped first. -/
theorem popAll_peels {passes : ℕ} (h : Agrees ts edge)
    (hloop : popAll popper passes ts list = some (ts', list')) :
    ∃ popped, Peels edge ts.nodes.toFinset popped ts'.nodes.toFinset ∧
      Stuck edge ts'.nodes.toFinset ∧ list' = (popped.filterMap Node.key?).reverse ++ list := by
  induction passes generalizing ts list with
  | zero => cases hloop
  | succ passes ih =>
      rw [popAll] at hloop
      -- a node that is popped is the next one to be peeled off
      have step : ∀ x rest, popper.pick ts = some x →
          Peels edge (ts.remove x).nodes.toFinset rest ts'.nodes.toFinset →
          Peels edge ts.nodes.toFinset (x :: rest) ts'.nodes.toFinset := by
        intro x rest hpick hpeels
        obtain ⟨hmem, hfree⟩ := popper.pick_some ts x hpick
        rw [toFinset_remove] at hpeels
        exact .cons (List.mem_toFinset.mpr hmem) ((h.isFree_iff x).mp hfree) hpeels
      rcases hpick : popper.pick ts with _ | k | _
      · rw [hpick] at hloop
        cases hloop
        refine ⟨[], .nil _, fun n hn => ?_, rfl⟩
        have hfree := popper.pick_none _ hpick n (List.mem_toFinset.mp hn)
        by_contra hnone
        have htrue := (h.isFree_iff n).mpr fun m hm hedge => hnone ⟨m, hm, hedge⟩
        rw [htrue] at hfree
        cases hfree
      · rw [hpick] at hloop
        obtain ⟨rest, hpeels, hstuck, hlist⟩ := ih (h.remove _) hloop
        refine ⟨.item k :: rest, step _ _ hpick hpeels, hstuck, ?_⟩
        rw [hlist, List.filterMap_cons_some (show (Node.item k).key? = some k from rfl),
          List.reverse_cons, List.append_assoc]
        rfl
      · rw [hpick] at hloop
        obtain ⟨rest, hpeels, hstuck, hlist⟩ := ih (h.remove _) hloop
        refine ⟨.root :: rest, step _ _ hpick hpeels, hstuck, ?_⟩
        rw [hlist, List.filterMap_cons_none (show (Node.root : Node K).key? = none from rfl)]

/-- **The loop ends**: every pass removes a node. -/
theorem popAll_ends (popper : Popper (Node K)) {passes : ℕ} (list : List K)
    (hpasses : ts.nodes.length < passes) :
    ∃ result, popAll popper passes ts list = some result := by
  induction passes generalizing ts list with
  | zero => exact absurd hpasses (Nat.not_lt_zero _)
  | succ passes ih =>
      have hless : ∀ x, popper.pick ts = some x → (ts.remove x).nodes.length < passes := by
        intro x hpick
        have hlt : (ts.nodes.filter fun m => m ≠ x).length < ts.nodes.length :=
          List.length_filter_lt_length_iff_exists.mpr
            ⟨x, (popper.pick_some ts x hpick).1, by simp⟩
        exact Nat.lt_of_lt_of_le hlt (Nat.le_of_lt_succ hpasses)
      rw [popAll]
      rcases hpick : popper.pick ts with _ | k | _
      · exact ⟨_, rfl⟩
      · exact ih _ (hless _ hpick)
      · exact ih _ (hless _ hpick)

end Loop

/-! ## The result -/

/-- A key has the value that stands beside it. -/
theorem lookup_eq_some_iff {map : List (K × V)} (hmap : (map.map Prod.fst).Nodup) {k : K} {v : V} :
    map.lookup k = some v ↔ (k, v) ∈ map := by
  induction map with
  | nil => simp
  | cons entry map ih =>
      obtain ⟨k', v'⟩ := entry
      obtain ⟨hfirst, hrest⟩ := List.nodup_cons.mp hmap
      rw [List.lookup_cons, List.mem_cons, Prod.mk.injEq]
      by_cases heq : k = k'
      · subst heq
        have hnot : (k, v) ∉ map := fun hmem => hfirst (List.mem_map.mpr ⟨(k, v), hmem, rfl⟩)
        simp [hnot, eq_comm]
      · rw [beq_false_of_ne heq]
        simp [heq, ih hrest]

/-- What is taken out of the map. -/
theorem mem_takeEach {keys : List K} (hkeys : keys.Nodup) {map : List (K × V)}
    (hmap : (map.map Prod.fst).Nodup) (entry : K × V) :
    entry ∈ takeEach keys map ↔ entry.1 ∈ keys ∧ entry ∈ map := by
  induction keys generalizing map with
  | nil => simp [takeEach]
  | cons k keys ih =>
      obtain ⟨hk, hkeys⟩ := List.nodup_cons.mp hkeys
      have hlookup : ∀ v, map.lookup k = some v ↔ (k, v) ∈ map :=
        fun v => lookup_eq_some_iff hmap
      rw [takeEach]
      rcases hfind : map.lookup k with _ | v
      · rw [ih hkeys hmap, List.mem_cons]
        constructor
        · rintro ⟨hmem, hentry⟩
          exact ⟨.inr hmem, hentry⟩
        · rintro ⟨rfl | hmem, hentry⟩
          · rw [(hlookup entry.2).mpr hentry] at hfind
            cases hfind
          · exact ⟨hmem, hentry⟩
      · have hv : (k, v) ∈ map := (hlookup v).mp hfind
        have hrest : ((map.filter fun entry => entry.1 ≠ k).map Prod.fst).Nodup :=
          hmap.sublist (List.filter_sublist.map _)
        rw [List.mem_cons, ih hkeys hrest, List.mem_cons, List.mem_filter]
        constructor
        · rintro (rfl | ⟨hmem, hentry, _⟩)
          · exact ⟨.inl rfl, hv⟩
          · exact ⟨.inr hmem, hentry⟩
        · rintro ⟨heq | hmem, hentry⟩
          · left
            have hsame := (hlookup entry.2).mpr (by rw [← heq]; exact hentry)
            rw [hfind] at hsame
            exact Prod.ext heq (Option.some.inj hsame).symm
          · right
            refine ⟨hmem, hentry, ?_⟩
            have hne : entry.1 ≠ k := by
              rintro rfl
              exact hk hmem
            simpa using hne

/-- The keys are taken in their order. -/
theorem map_fst_takeEach_sublist (keys : List K) (map : List (K × V)) :
    ((takeEach keys map).map Prod.fst).Sublist keys := by
  induction keys generalizing map with
  | nil => exact List.Sublist.refl _
  | cons k keys ih =>
      rw [takeEach]
      rcases map.lookup k with _ | v
      · exact (ih map).cons k
      · exact (ih _).cons_cons k

/-- **An order by dependencies** of the wanted items: each of them once, nothing else, and each
after its dependencies. -/
structure Ordered (map : HashMap K V) (getDeps : K → V → Except E (List K)) (wanted : K → Prop)
    (list : List (K × V)) : Prop where
  mem_iff : ∀ entry, entry ∈ list ↔ entry ∈ map.entries ∧ wanted entry.1
  once : (list.map Prod.fst).Nodup
  after : ∀ before k v rest, list = before ++ (k, v) :: rest → ∀ d, Depends map getDeps k d →
    d ∈ map.entries.map Prod.fst → d ∈ before.map Prod.fst

section Result

variable {popper : Popper (Node K)} {root : RootType K} {map : HashMap K V}
variable {getDeps : K → V → Except E (List K)}

/-- The keys popped from a graph that is peeled off completely, in the order of the result. -/
theorem ordered_of_peels {ts : TopologicalSort (Node K)}
    (hts : Describes ts (Edge root map getDeps)) {popped : List (Node K)}
    (h : Peels (Edge root map getDeps) ts.nodes.toFinset popped ∅)
    (hacyclic : Acyclic (Depends map getDeps)) :
    Ordered map getDeps (Mentioned root map getDeps)
      (takeEach (popped.filterMap Node.key?).reverse map.entries) := by
  have hkey : ∀ (n : Node K) k, n.key? = some k ↔ n = .item k := by
    intro n k
    cases n <;> simp [Node.key?]
  have hnodup : (popped.filterMap Node.key?).reverse.Nodup := by
    refine List.nodup_reverse.mpr (h.nodup.filterMap ?_)
    intro a b k ha hb
    rw [(hkey a k).mp ha, (hkey b k).mp hb]
  have hmem : ∀ k, k ∈ (popped.filterMap Node.key?).reverse ↔ Mentioned root map getDeps k := by
    intro k
    simp only [List.mem_reverse, List.mem_filterMap, hkey, exists_eq_right, h.mem_iff,
      List.mem_toFinset, Finset.notMem_empty, not_false_eq_true, and_true]
    exact hts.mem_item_iff k
  have hpairs : (popped.filterMap Node.key?).reverse.Pairwise fun a b =>
      ¬ Depends map getDeps a b := by
    rw [List.pairwise_reverse, List.pairwise_filterMap]
    refine h.pairwise.imp ?_
    intro a b hnot k hk k' hk' hdep
    rw [(hkey a k).mp hk, (hkey b k').mp hk'] at hnot
    exact hnot (.item hdep)
  have hsub := map_fst_takeEach_sublist (popped.filterMap Node.key?).reverse map.entries
  refine ⟨fun entry => ?_, hnodup.sublist hsub, ?_⟩
  · rw [mem_takeEach hnodup map.nodup, hmem]
    exact and_comm
  · intro before k v rest hsplit d hdep hd
    -- the dependency is in the result, and it is neither the item nor behind it
    obtain ⟨⟨_, w⟩, hentry, rfl⟩ := List.mem_map.mp hd
    have hin : (_, w) ∈ takeEach (popped.filterMap Node.key?).reverse map.entries :=
      (mem_takeEach hnodup map.nodup _).mpr ⟨(hmem _).mpr (.inr (.inr ⟨k, hdep⟩)), hentry⟩
    have hordered := hpairs.sublist hsub
    rw [hsplit] at hin hordered
    rw [List.map_append, List.map_cons, List.pairwise_append, List.pairwise_cons] at hordered
    rcases List.mem_append.mp hin with hbefore | hbehind
    · exact List.mem_map_of_mem hbefore
    · rcases List.mem_cons.mp hbehind with heq | hrest
      · cases heq
        exact absurd (.single hdep) (hacyclic k)
      · exact absurd hdep (hordered.2.1.1 _ (List.mem_map_of_mem hrest))

/-- **What `topological_sort` returns**, for all kinds of roots: nothing exactly if some
dependencies form a cycle, and otherwise the items that some edge mentions, in order. -/
theorem topologicalSort_spec (popper : Popper (Node K)) (root : RootType K)
    (hdeps : NeverFails map.entries getDeps) :
    ∃ bound, ∀ passes, bound ≤ passes → ∃ result,
      topologicalSort popper passes root map getDeps = some (.ok result) ∧
      (result = none ↔ ¬ Acyclic (Depends map getDeps)) ∧
      ∀ list, result = some list → Ordered map getDeps (Mentioned root map getDeps) list := by
  obtain ⟨ts, hts, hdescribes⟩ := graph_ok root hdeps
  refine ⟨(addRoots root ts).nodes.length + 1, fun passes hpasses => ?_⟩
  obtain ⟨⟨ts', list'⟩, hloop⟩ :=
    popAll_ends popper [] (Nat.lt_of_succ_le hpasses)
  have hagrees : Agrees (addRoots root ts) (Edge root map getDeps) :=
    fun m _ n => hdescribes.edges m n
  obtain ⟨popped, hpeels, hstuck, rfl⟩ := popAll_peels hagrees hloop
  have hinside : ∀ a b, Edge root map getDeps a b →
      a ∈ (addRoots root ts).nodes.toFinset ∧ b ∈ (addRoots root ts).nodes.toFinset :=
    fun a b hab => ⟨List.mem_toFinset.mpr ((hdescribes.nodes a).mpr ⟨b, .inl hab⟩),
      List.mem_toFinset.mpr ((hdescribes.nodes b).mpr ⟨a, .inr hab⟩)⟩
  have hleft : ts'.nodes = [] ↔ Acyclic (Depends map getDeps) := by
    rw [← acyclic_edge_iff, ← hpeels.eq_empty_iff hstuck hinside, List.toFinset_eq_empty_iff]
  refine ⟨_, by simp only [topologicalSort, hts, hloop, Option.map_some]; rfl, ?_, ?_⟩
  · rw [← hleft]
    simp
  · intro list hlist
    by_cases hempty : ts'.nodes = []
    · rw [hempty] at hpeels
      simp only [hempty, if_true, Option.some.injEq, List.append_nil] at hlist
      rw [← hlist]
      exact ordered_of_peels hdescribes hpeels (hleft.mp hempty)
    · simp [hempty] at hlist

/-! ## All items -/

omit [DecidableEq K] in
theorem Ordered.congr {wanted wanted' : K → Prop} {list : List (K × V)}
    (h : Ordered map getDeps wanted list)
    (heq : ∀ k ∈ map.entries.map Prod.fst, wanted k ↔ wanted' k) :
    Ordered map getDeps wanted' list where
  mem_iff entry := by
    rw [h.mem_iff]
    exact and_congr_right fun hmem => heq entry.1 (List.mem_map_of_mem hmem)
  once := h.once
  after := h.after

/-- **With `RootType::All` the result is an order of the whole map, or nothing if there is a
cycle**, for every map, every `get_deps` that does not fail, and whatever the crate pops first. -/
theorem sort_all_correct (popper : Popper (Node K)) (map : HashMap K V)
    (getDeps : K → V → Except E (List K)) (hdeps : NeverFails map.entries getDeps) :
    ∃ bound, ∀ passes, bound ≤ passes → ∃ result,
      topologicalSort popper passes .all map getDeps = some (.ok result) ∧
      ((∃ list, result = some list) ↔ Acyclic (Depends map getDeps)) ∧
      ∀ list, result = some list → Ordered map getDeps (fun _ => True) list := by
  obtain ⟨bound, h⟩ := topologicalSort_spec popper .all hdeps
  refine ⟨bound, fun passes hpasses => ?_⟩
  obtain ⟨result, hresult, hnone, hordered⟩ := h passes hpasses
  refine ⟨result, hresult, ?_, fun list hlist => ?_⟩
  · rw [← Option.ne_none_iff_exists', ne_eq, hnone, not_not]
  · exact (hordered list hlist).congr fun k hk => iff_true_intro (.inl hk)

end Result

/-- Three items, of which one has a dependency that is not in the map. -/
def threeItems : HashMap ℕ String := ⟨[(1, "a"), (2, "b"), (3, "c")], by decide⟩

/-- The first depends on the second and the third, and the third on the second. -/
def threeDeps (k : ℕ) (_ : String) : Except String (List ℕ) :=
  .ok (if k = 1 then [3, 2, 0] else if k = 3 then [2, 2] else [])

theorem sort_all_correct_threeItems :
    ∃ bound, ∀ passes, bound ≤ passes → ∃ list,
      topologicalSort (.first _) passes .all threeItems threeDeps = some (.ok (some list)) ∧
        Ordered threeItems threeDeps (fun _ => True) list := by
  have hacyclic : Acyclic (Depends threeItems threeDeps) := by
    refine acyclic_of_rank (fun k => if k = 1 then 2 else if k = 3 then 1 else 0) ?_
    rintro k d ⟨v, deps, hmem, hok, hd⟩
    cases hok
    revert hd
    by_cases h1 : k = 1
    · subst h1
      simp only [reduceIte, List.mem_cons, List.not_mem_nil, or_false]
      rintro (rfl | rfl | rfl) <;> decide
    · by_cases h3 : k = 3
      · subst h3
        rw [if_neg h1, if_pos rfl, List.mem_pair, or_self]
        rintro rfl
        decide
      · simp [h1, h3]
  obtain ⟨bound, h⟩ := sort_all_correct (.first _) threeItems threeDeps fun _ _ => ⟨_, rfl⟩
  refine ⟨bound, fun passes hpasses => ?_⟩
  obtain ⟨result, hresult, hsome, hordered⟩ := h passes hpasses
  obtain ⟨list, rfl⟩ := hsome.mpr hacyclic
  exact ⟨list, hresult, hordered list rfl⟩

example : topologicalSort (.first _) 6 .all threeItems threeDeps
    = some (.ok (some [(2, "b"), (3, "c"), (1, "a")])) := by decide

/-! ## Given roots -/

section Roots

variable (map : HashMap K V) (getDeps : K → V → Except E (List K)) (roots : List K)

/-- A root reaches a key through dependencies. -/
def Reaches (k : K) : Prop := ∃ root ∈ roots, ReflTransGen (Depends map getDeps) root k

/-- A root reaches a cycle. -/
def ReachesCycle : Prop :=
  ∃ k, Reaches map getDeps roots k ∧ TransGen (Depends map getDeps) k k

/-- **What a sort from roots is for**: nothing exactly if the roots reach a cycle, and otherwise
the items they reach, in order. -/
def CorrectFrom (result : Except E (Option (List (K × V)))) : Prop :=
  ∃ answer, result = .ok answer ∧ (answer = none ↔ ReachesCycle map getDeps roots) ∧
    ∀ list, answer = some list → Ordered map getDeps (Reaches map getDeps roots) list

omit [DecidableEq K] in
/-- What the roots reach is mentioned. -/
theorem Reaches.mentioned {k : K} (h : Reaches map getDeps roots k) :
    Mentioned (.key roots) map getDeps k := by
  obtain ⟨root, hroot, hpath⟩ := h
  rcases ReflTransGen.cases_tail hpath with rfl | ⟨j, _, hdep⟩
  · exact .inl hroot
  · exact .inr (.inr ⟨j, hdep⟩)

omit [DecidableEq K] in
/-- If the roots reach every item with dependencies, they reach all that is mentioned. -/
theorem Mentioned.reaches (hall : ∀ k d, Depends map getDeps k d → Reaches map getDeps roots k)
    {k : K} (h : Mentioned (.key roots) map getDeps k) : Reaches map getDeps roots k := by
  rcases h with hroot | ⟨d, hdep⟩ | ⟨j, hdep⟩
  · exact ⟨k, hroot, .refl⟩
  · exact hall k d hdep
  · obtain ⟨root, hroot, hpath⟩ := hall j k hdep
    exact ⟨root, hroot, hpath.tail hdep⟩

/-- **When a sort from roots is right.**  For every map, every `get_deps`, all roots and whatever
the crate pops first: the result is what it is for if and only if `get_deps` fails for no item of
the map, and the roots reach a cycle or else every item that has a dependency. -/
theorem sort_roots_correct_iff (popper : Popper (Node K)) :
    ∃ bound, ∀ passes, bound ≤ passes → ∃ result,
      topologicalSort popper passes (.key roots) map getDeps = some result ∧
      (CorrectFrom map getDeps roots result ↔
        NeverFails map.entries getDeps ∧ (ReachesCycle map getDeps roots ∨
          ∀ k d, Depends map getDeps k d → Reaches map getDeps roots k)) := by
  by_cases hdeps : NeverFails map.entries getDeps
  · obtain ⟨bound, h⟩ := topologicalSort_spec popper (.key roots) hdeps
    refine ⟨bound, fun passes hpasses => ?_⟩
    obtain ⟨answer, hanswer, hnone, hordered⟩ := h passes hpasses
    refine ⟨.ok answer, hanswer, ?_⟩
    constructor
    · rintro ⟨_, ⟨⟩, hcycle, hcorrect⟩
      refine ⟨hdeps, or_iff_not_imp_left.mpr fun hnot k d hdep => ?_⟩
      obtain ⟨list, rfl⟩ := Option.ne_none_iff_exists'.mp (mt hcycle.mp hnot)
      obtain ⟨v, _, hmem, _⟩ := id hdep
      have hlisted := ((hordered list rfl).mem_iff (k, v)).mpr ⟨hmem, .inr (.inl ⟨d, hdep⟩)⟩
      exact (((hcorrect list rfl).mem_iff (k, v)).mp hlisted).2
    · rintro ⟨-, hcycle | hall⟩
      · have hcyclic : ¬ Acyclic (Depends map getDeps) := by
          obtain ⟨k, _, hk⟩ := hcycle
          exact fun hacyclic => hacyclic k hk
        have hanswer := hnone.mpr hcyclic
        refine ⟨answer, rfl, iff_of_true hanswer hcycle, fun list hlist => ?_⟩
        rw [hanswer] at hlist
        cases hlist
      · refine ⟨answer, rfl, hnone.trans ⟨fun hcyclic => ?_, ?_⟩, fun list hlist => ?_⟩
        · -- every item on a cycle has a dependency
          obtain ⟨k, hk⟩ := not_forall_not.mp hcyclic
          obtain ⟨d, hdep, _⟩ := TransGen.head'_iff.mp hk
          exact ⟨k, hall k d hdep, hk⟩
        · rintro ⟨k, _, hk⟩ hacyclic
          exact hacyclic k hk
        · exact (hordered list hlist).congr fun k _ =>
            ⟨Mentioned.reaches map getDeps roots hall, Reaches.mentioned map getDeps roots⟩
  · obtain ⟨e, he⟩ := addItems_error (.key roots) hdeps .new
    refine ⟨0, fun passes _ => ⟨.error e, by simp only [topologicalSort, he], ?_⟩⟩
    refine iff_of_false ?_ fun h => hdeps h.1
    rintro ⟨_, ⟨⟩, _⟩

end Roots

/-- Two items, of which the first depends on the second. -/
def twoItems : HashMap ℕ String := ⟨[(1, "a"), (2, "b")], by decide⟩

def twoDeps (k : ℕ) (_ : String) : Except String (List ℕ) := .ok (if k = 1 then [2] else [])

/-- An item that depends on itself, beside another one. -/
def selfDeps (k : ℕ) (_ : String) : Except String (List ℕ) := .ok (if k = 1 then [1] else [])

/-- **What the roots do not reach is listed, and its cycles are reported.**  The only root is the
second item, which depends on nothing. -/
theorem unreached_listed_and_reported :
    topologicalSort (.first _) 4 (.key [2]) twoItems twoDeps
        = some (.ok (some [(2, "b"), (1, "a")])) ∧
      ¬ CorrectFrom twoItems twoDeps [2] (.ok (some [(2, "b"), (1, "a")])) ∧
      topologicalSort (.first _) 4 (.key [2]) twoItems selfDeps = some (.ok none) ∧
      ¬ CorrectFrom twoItems selfDeps [2] (.ok none) := by
  have hreach : ∀ getDeps : ℕ → String → Except String (List ℕ), (∀ v, getDeps 2 v = .ok []) →
      ∀ k, Reaches twoItems getDeps [2] k → k = 2 := by
    rintro getDeps hnone k ⟨root, hroot, hpath⟩
    obtain rfl := List.mem_singleton.mp hroot
    rcases ReflTransGen.cases_head hpath with rfl | ⟨d, ⟨v, deps, _, hok, hd⟩, _⟩
    · rfl
    · rw [hnone v] at hok
      cases hok
      cases hd
  refine ⟨by decide, ?_, by decide, ?_⟩
  · rintro ⟨_, ⟨⟩, _, hordered⟩
    have hlisted := ((hordered _ rfl).mem_iff (1, "a")).mp (by decide)
    exact absurd (hreach twoDeps (fun _ => rfl) 1 hlisted.2) (by decide)
  · rintro ⟨_, ⟨⟩, hcycle, _⟩
    obtain ⟨k, hk, hcyclic⟩ := hcycle.mp rfl
    obtain rfl := hreach selfDeps (fun _ => rfl) k hk
    obtain ⟨d, ⟨v, deps, _, hok, hd⟩, _⟩ := TransGen.head'_iff.mp hcyclic
    cases hok
    cases hd

end Sorting

end RabbitDigger.Util
