import Mathlib.Data.Finset.Max
import RabbitDigger.Foundation.Acyclic

/-!
# Peeling a finite graph

Take a node that nothing left points to, remove it, and go on with what is left.  `Peels r s l t`
says that from the nodes `s` the nodes `l` can be removed in this order, and that `t` is left.
Which node is taken when several are free is not said; everything below holds for **every
choice**.

* `Peels.pairwise`, `Peels.mem_iff`: what has been removed, each node once and no node after one
  that it points to.
* `Peels.eq_empty_iff`: if nothing can be removed any more, then **nothing is left if and only if
  the graph is acyclic**.
-/

namespace Peeling

open Acyclicity Relation

universe u

variable {α : Type u} [DecidableEq α] {r : α → α → Prop} {s t : Finset α} {l : List α}

/-- From the nodes `s` the nodes `l` are removed, each at a time at which nothing left points to
it; `t` is left. -/
inductive Peels (r : α → α → Prop) : Finset α → List α → Finset α → Prop where
  | nil (s : Finset α) : Peels r s [] s
  | cons {s t : Finset α} {n : α} {l : List α} (mem : n ∈ s) (free : ∀ m ∈ s, ¬ r m n)
      (rest : Peels r (s.erase n) l t) : Peels r s (n :: l) t

/-- Nothing can be removed: everything left is pointed to by something left. -/
def Stuck (r : α → α → Prop) (t : Finset α) : Prop := ∀ n ∈ t, ∃ m ∈ t, r m n

namespace Peels

/-- What is left was there. -/
theorem subset (h : Peels r s l t) : t ⊆ s := by
  induction h with
  | nil s => exact Finset.Subset.refl s
  | cons _ _ _ ih => exact ih.trans (Finset.erase_subset _ _)

/-- What is removed was there, and is not left. -/
theorem mem_iff (h : Peels r s l t) (n : α) : n ∈ l ↔ n ∈ s ∧ n ∉ t := by
  induction h with
  | nil s => simp
  | @cons s t m l mem free rest ih =>
      have hsub : m ∉ t := fun hm => Finset.notMem_erase m s (rest.subset hm)
      rw [List.mem_cons, ih, Finset.mem_erase]
      constructor
      · rintro (rfl | ⟨⟨_, hn⟩, hnt⟩)
        · exact ⟨mem, hsub⟩
        · exact ⟨hn, hnt⟩
      · rintro ⟨hn, hnt⟩
        by_cases heq : n = m
        · exact .inl heq
        · exact .inr ⟨⟨heq, hn⟩, hnt⟩

/-- Each node is removed once. -/
theorem nodup (h : Peels r s l t) : l.Nodup := by
  induction h with
  | nil s => exact List.nodup_nil
  | @cons s t n l mem free rest ih =>
      refine List.nodup_cons.mpr ⟨fun hn => ?_, ih⟩
      exact Finset.notMem_erase n s ((rest.mem_iff n).mp hn).1

/-- **No node is removed after one that it points to.** -/
theorem pairwise (h : Peels r s l t) : l.Pairwise fun a b => ¬ r b a := by
  induction h with
  | nil s => exact .nil
  | @cons s t n l mem free rest ih =>
      refine .cons (fun m hm => ?_) ih
      exact free m (Finset.mem_of_mem_erase ((rest.mem_iff m).mp hm).1)

end Peels

/-- A path between nodes of `s` does not enter a node that nothing in `s` points to. -/
theorem transGen_erase {n : α} (free : ∀ m ∈ s, ¬ r m n) {x y : α} (hx : x ≠ n)
    (h : TransGen (fun a b => a ∈ s ∧ b ∈ s ∧ r a b) x y) :
    TransGen (fun a b => a ∈ s.erase n ∧ b ∈ s.erase n ∧ r a b) x y ∧ y ≠ n := by
  induction h with
  | @single b hstep =>
      obtain ⟨ha, hb, hr⟩ := hstep
      have hne : b ≠ n := by
        rintro rfl
        exact free x ha hr
      exact ⟨.single ⟨Finset.mem_erase.mpr ⟨hx, ha⟩, Finset.mem_erase.mpr ⟨hne, hb⟩, hr⟩, hne⟩
  | @tail b c _ hstep ih =>
      obtain ⟨hpath, hbn⟩ := ih
      obtain ⟨hb, hc, hr⟩ := hstep
      have hne : c ≠ n := by
        rintro rfl
        exact free b hb hr
      exact ⟨hpath.tail ⟨Finset.mem_erase.mpr ⟨hbn, hb⟩, Finset.mem_erase.mpr ⟨hne, hc⟩, hr⟩,
        hne⟩

/-- The relation inside of `s` has no cycle if all of `s` can be removed. -/
theorem Peels.acyclic (h : Peels r s l ∅) : Acyclic fun a b => a ∈ s ∧ b ∈ s ∧ r a b := by
  generalize ht : (∅ : Finset α) = t at h
  induction h with
  | nil s =>
      subst ht
      intro x hx
      obtain ⟨_, ⟨hmem, _⟩, _⟩ := TransGen.head'_iff.mp hx
      exact absurd hmem (Finset.notMem_empty x)
  | @cons s t n l mem free rest ih =>
      intro x hx
      -- a node on a cycle is pointed to, so it is not the one that is removed
      obtain ⟨y, _, hyx⟩ := TransGen.tail'_iff.mp hx
      have hne : x ≠ n := by
        rintro rfl
        exact free y hyx.1 hyx.2.2
      exact ih ht x (transGen_erase free hne hx).1

/-- Something can be removed from nodes that are not empty, if the graph is acyclic. -/
theorem eq_empty_of_stuck (hr : Acyclic r) (nodes : Finset α)
    (hnodes : ∀ x y, r x y → y ∈ nodes) (hstuck : Stuck r t) : t = ∅ := by
  by_contra hne
  obtain ⟨rank, hrank, _⟩ := hr.exists_rank nodes hnodes
  obtain ⟨n, hn, hmax⟩ := Finset.exists_max_image t rank (Finset.nonempty_iff_ne_empty.mpr hne)
  obtain ⟨m, hm, hmn⟩ := hstuck n hn
  exact Nat.not_lt.mpr (hmax m hm) (hrank m n hmn)

/-- **Peeling comes to an end with nothing left if and only if the graph is acyclic.** -/
theorem Peels.eq_empty_iff (h : Peels r s l t) (hstuck : Stuck r t)
    (hedges : ∀ x y, r x y → x ∈ s ∧ y ∈ s) : t = ∅ ↔ Acyclic r := by
  constructor
  · rintro rfl x hx
    have hinside : ∀ a b, r a b → a ∈ s ∧ b ∈ s ∧ r a b :=
      fun a b hab => ⟨(hedges a b hab).1, (hedges a b hab).2, hab⟩
    exact h.acyclic x (TransGen.mono hinside x x hx)
  · intro hr
    exact eq_empty_of_stuck hr s (fun x y hxy => (hedges x y hxy).2) hstuck

end Peeling
