import Mathlib.Data.Finset.Card
import Mathlib.Data.List.Chain
import Mathlib.Data.List.Nodup
import Mathlib.Data.List.Perm.Subperm
import Mathlib.Logic.Relation

/-!
# Acyclic relations and redirected edges

A relation is **acyclic** if no element is related to itself through one or more
steps.  The module answers two questions about graphs that change at run time.

* When does giving one node new successors keep the graph acyclic?  Exactly when
  none of the new successors could already reach the node (`Redirects.acyclic_iff`).
* How long can a walk be?  In an acyclic graph a walk never visits a node twice, so
  it is no longer than the number of nodes it may visit (`Acyclic.length_le`).  Put
  differently, the number of nodes that can be reached is a rank along which every
  edge descends (`Acyclic.exists_rank`).
-/

namespace Acyclicity

open Relation

universe u

variable {α : Type u} {r r' : α → α → Prop}

/-- No element is related to itself through one or more steps. -/
def Acyclic (r : α → α → Prop) : Prop := ∀ x, ¬ TransGen r x x

/-- A relation that descends along a rank is acyclic. -/
theorem acyclic_of_rank (rank : α → ℕ) (h : ∀ x y, r x y → rank y < rank x) :
    Acyclic r := by
  have descend : ∀ x y, TransGen r x y → rank y < rank x := by
    intro x y hxy
    induction hxy with
    | single hstep => exact h _ _ hstep
    | tail _ hstep ih => exact (h _ _ hstep).trans ih
  intro x hx
  exact lt_irrefl _ (descend x x hx)

/-- The edges of an acyclic graph into finitely many nodes descend along a rank, which is
at most the number of these nodes. -/
theorem Acyclic.exists_rank (hr : Acyclic r) (nodes : Finset α)
    (hnodes : ∀ x y, r x y → y ∈ nodes) :
    ∃ rank : α → ℕ, (∀ x y, r x y → rank y < rank x) ∧ ∀ x, rank x ≤ nodes.card := by
  classical
  refine ⟨fun x => (nodes.filter fun y => TransGen r x y).card, ?_,
    fun x => Finset.card_filter_le _ _⟩
  intro x y hxy
  refine Finset.card_lt_card ?_
  rw [Finset.ssubset_iff_of_subset]
  · -- `y` itself is reached from `x`, but not from `y`
    refine ⟨y, ?_, ?_⟩
    · exact Finset.mem_filter.mpr ⟨hnodes x y hxy, .single hxy⟩
    · intro hy
      exact hr y (Finset.mem_filter.mp hy).2
  · intro z hz
    obtain ⟨hmem, hyz⟩ := Finset.mem_filter.mp hz
    exact Finset.mem_filter.mpr ⟨hmem, .head hxy hyz⟩

/-- A walk in an acyclic graph visits no node twice. -/
theorem Acyclic.nodup (hr : Acyclic r) {walk : List α} (hwalk : walk.IsChain r) :
    walk.Nodup := by
  have hpairs : walk.Pairwise (TransGen r) :=
    List.isChain_iff_pairwise.mp (hwalk.imp fun _ _ => TransGen.single)
  refine hpairs.imp ?_
  rintro x _ hxy rfl
  exact hr x hxy

/-- A walk in an acyclic graph is no longer than the list of nodes it may visit. -/
theorem Acyclic.length_le (hr : Acyclic r) {walk : List α} (nodes : List α)
    (hwalk : walk.IsChain r) (hmem : ∀ x ∈ walk, x ∈ nodes) :
    walk.length ≤ nodes.length :=
  (List.subperm_of_subset (hr.nodup hwalk) hmem).length_le

/-- `r'` is `r`, except that the successors of `x` are now those in `new`. -/
structure Redirects (r r' : α → α → Prop) (x : α) (new : α → Prop) : Prop where
  here : ∀ y, r' x y ↔ new y
  elsewhere : ∀ z y, z ≠ x → (r' z y ↔ r z y)

namespace Redirects

variable {x : α} {new : α → Prop}

/-- A new path either uses old edges only, or reaches `x` by old edges and goes on
with a new one. -/
theorem split (h : Redirects r r' x new) {a b : α} (hab : ReflTransGen r' a b) :
    ReflTransGen r a b ∨
      ReflTransGen r a x ∧ ∃ y, new y ∧ ReflTransGen r' y b := by
  induction hab using ReflTransGen.head_induction_on with
  | refl => exact .inl .refl
  | @head a c hstep hrest ih =>
      by_cases hax : a = x
      · subst hax
        exact .inr ⟨.refl, c, (h.here c).mp hstep, hrest⟩
      · have hold : r a c := (h.elsewhere a c hax).mp hstep
        rcases ih with hpath | ⟨hpath, hnew⟩
        · exact .inl (.head hold hpath)
        · exact .inr ⟨.head hold hpath, hnew⟩

/-- What reached `x` by old edges still does: the edges up to the first visit of `x`
have not changed. -/
theorem reaches (h : Redirects r r' x new) {a : α} (hax : ReflTransGen r a x) :
    ReflTransGen r' a x := by
  induction hax using ReflTransGen.head_induction_on with
  | refl => exact .refl
  | @head a c hstep _ ih =>
      by_cases hax : a = x
      · subst hax
        exact .refl
      · exact .head ((h.elsewhere a c hax).mpr hstep) ih

/-- **Redirecting the edges of one node keeps a graph acyclic exactly when no new
successor reaches that node.** -/
theorem acyclic_iff (h : Redirects r r' x new) (hr : Acyclic r) :
    Acyclic r' ↔ ∀ y, new y → ¬ ReflTransGen r y x := by
  constructor
  · intro hr' y hy hpath
    exact hr' x (.head' ((h.here y).mpr hy) (h.reaches hpath))
  · intro hnew
    -- a cycle through `x` leaves it by a new edge, and reaches it by old ones
    have hx : ∀ y, new y → ¬ ReflTransGen r' y x := by
      intro y hy hpath
      rcases h.split hpath with hold | ⟨hold, _⟩
      · exact hnew y hy hold
      · exact hnew y hy hold
    intro z hz
    obtain ⟨c, hstep, hpath⟩ := TransGen.head'_iff.mp hz
    by_cases hzx : z = x
    · subst hzx
      exact hx c ((h.here c).mp hstep) hpath
    · have hold : r z c := (h.elsewhere z c hzx).mp hstep
      rcases h.split hpath with hback | ⟨hcx, y, hy, hyz⟩
      · exact hr z (.head' hold hback)
      · exact hx y hy (hyz.trans (.head hstep (h.reaches hcx)))

end Redirects

end Acyclicity
