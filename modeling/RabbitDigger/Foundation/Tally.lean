import Mathlib.Algebra.BigOperators.Group.List.Basic
import Mathlib.Algebra.GroupWithZero.Nat

/-!
# Weights of the elements of a list

Processes that run beside each other stand in a list, and a step replaces one of them.
Whatever is counted over all of them, how many hold something or how much they have left
to do, is a **sum of weights**, and a step changes it by the weights of the one process
that moves.

The keys of a map have weights as well, all but finitely many of them none.  `Weighs` says
that these sum up to a total at most.
-/

namespace Tally

variable {α : Type}

/-- The sum of a weight over a list. -/
def tally (f : α → ℕ) (l : List α) : ℕ := (l.map f).sum

@[simp] theorem tally_nil (f : α → ℕ) : tally f [] = 0 := rfl

@[simp] theorem tally_cons (f : α → ℕ) (a : α) (l : List α) :
    tally f (a :: l) = f a + tally f l := by
  simp [tally]

@[simp] theorem tally_append (f : α → ℕ) (l l' : List α) :
    tally f (l ++ l') = tally f l + tally f l' := by
  simp [tally]

/-- Replacing an element. -/
theorem tally_set (f : α → ℕ) {l : List α} {i : ℕ} {a : α} (h : l[i]? = some a) (b : α) :
    tally f (l.set i b) + f a = tally f l + f b := by
  induction l generalizing i with
  | nil => cases h
  | cons c l ih =>
      cases i with
      | zero =>
          cases h
          rw [List.set_cons_zero, tally_cons, tally_cons]
          omega
      | succ i =>
          have := ih h
          rw [List.set_cons_succ, tally_cons, tally_cons]
          omega

/-- One weight is part of the sum. -/
theorem le_tally (f : α → ℕ) {l : List α} {a : α} (h : a ∈ l) : f a ≤ tally f l := by
  induction l with
  | nil => cases h
  | cons b l ih =>
      rw [tally_cons]
      rcases List.mem_cons.mp h with rfl | h
      · exact Nat.le_add_right _ _
      · exact Nat.le_trans (ih h) (Nat.le_add_left _ _)

/-- If there is a weight, something has it. -/
theorem exists_of_tally_pos {f : α → ℕ} {l : List α} (h : 0 < tally f l) :
    ∃ (i : ℕ) (a : α), l[i]? = some a ∧ 0 < f a := by
  obtain ⟨n, hn, hpos⟩ := List.exists_mem_ne_zero_of_sum_ne_zero (Nat.ne_of_gt h)
  obtain ⟨a, ha, rfl⟩ := List.mem_map.mp hn
  obtain ⟨i, hi⟩ := List.getElem?_of_mem ha
  exact ⟨i, a, hi, Nat.pos_of_ne_zero hpos⟩

/-! ## Weights that only fall -/

section Falling

variable {f f' : α → ℕ}

theorem tally_mono (h : ∀ a, f' a ≤ f a) (l : List α) : tally f' l ≤ tally f l := by
  induction l with
  | nil => exact Nat.le_refl _
  | cons b l ih =>
      have hb := h b
      rw [tally_cons, tally_cons]
      omega

/-- An element that loses its weight takes it from the sum. -/
theorem tally_add_le (h : ∀ a, f' a ≤ f a) {a : α} (ha : f' a = 0) {l : List α} (hl : a ∈ l) :
    tally f' l + f a ≤ tally f l := by
  induction l with
  | nil => cases hl
  | cons b l ih =>
      rw [tally_cons, tally_cons]
      rcases List.mem_cons.mp hl with rfl | hl
      · have hrest := tally_mono h l
        omega
      · have hb := h b
        have hrest := ih hl
        omega

/-- **The weights are no more than so much in total.** -/
def Weighs (f : α → ℕ) (total : ℕ) : Prop :=
  ∃ keys : List α, (∀ a, a ∉ keys → f a = 0) ∧ tally f keys ≤ total

theorem Weighs.mono {total : ℕ} (hf : Weighs f total) (h : ∀ a, f' a ≤ f a) :
    Weighs f' total := by
  obtain ⟨keys, hkeys, hsum⟩ := hf
  refine ⟨keys, ?_, Nat.le_trans (tally_mono h keys) hsum⟩
  intro a ha
  exact Nat.le_zero.mp (hkeys a ha ▸ h a)

/-- **A key that loses its weight leaves so much less.** -/
theorem Weighs.drop {total : ℕ} (hf : Weighs f total) (h : ∀ a, f' a ≤ f a) {a : α}
    (ha : f' a = 0) : ∃ rest, Weighs f' rest ∧ rest + f a ≤ total := by
  classical
  by_cases hzero : f a = 0
  · exact ⟨total, hf.mono h, by omega⟩
  · obtain ⟨keys, hkeys, hsum⟩ := hf
    have hmem : a ∈ keys := by
      by_contra hmem
      exact hzero (hkeys a hmem)
    refine ⟨tally f' keys, ⟨keys, ?_, Nat.le_refl _⟩,
      Nat.le_trans (tally_add_le h ha hmem) hsum⟩
    intro b hb
    exact Nat.le_zero.mp (hkeys b hb ▸ h b)

end Falling

end Tally
