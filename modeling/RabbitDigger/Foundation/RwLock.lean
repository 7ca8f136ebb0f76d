import Mathlib.Data.List.Basic

/-!
# Guards of a readers-writer lock

The parties that use one lock are numbered, and each of them holds a guard or none (`Guard`).
A read guard can be had if nobody writes, a write guard if nobody holds any guard; who is
served first is left open.  Then **whoever writes is alone** (`Alone`), whatever the order in
which guards are taken and given back.
-/

namespace RwLock

/-- What a party holds. -/
inductive Guard where
  | none
  | read
  | write
deriving Repr, DecidableEq

/-- Nobody writes. -/
def canRead (held : List Guard) : Bool := held.all (· ≠ .write)

/-- Nobody holds a guard. -/
def canWrite (held : List Guard) : Bool := held.all (· = .none)

/-- Whoever writes is alone. -/
def Alone (held : List Guard) : Prop :=
  ∀ (i j : ℕ) (g : Guard), held[i]? = some .write → held[j]? = some g → g ≠ .none → i = j

variable {held : List Guard} {i : ℕ}

theorem alone_nil : Alone [] := by
  intro i j g hi
  cases hi

/-- The others hold nothing while one writes. -/
theorem Alone.others (alone : Alone held) (hi : held[i]? = some .write) {j : ℕ} {g : Guard}
    (hj : held[j]? = some g) (hne : j ≠ i) : g = .none := by
  by_contra hg
  exact hne (alone i j g hi hj hg).symm

theorem eq_none_of_canWrite (h : canWrite held = true) {j : ℕ} {g : Guard}
    (hj : held[j]? = some g) : g = .none := by
  unfold canWrite at h
  rw [List.all_eq_true] at h
  simpa using h g (List.mem_of_getElem? hj)

theorem ne_write_of_canRead (h : canRead held = true) {j : ℕ} {g : Guard}
    (hj : held[j]? = some g) : g ≠ .write := by
  unfold canRead at h
  rw [List.all_eq_true] at h
  simpa using h g (List.mem_of_getElem? hj)

/-- Nobody writes while one reads. -/
theorem Alone.canRead_of_read (alone : Alone held) (hi : held[i]? = some .read) :
    canRead held = true := by
  simp only [canRead, List.all_eq_true, decide_eq_true_eq]
  rintro g hg rfl
  obtain ⟨j, hj⟩ := List.getElem?_of_mem hg
  cases alone j i .read hj hi (by decide)
  cases hi.symm.trans hj

/-- When the one who writes is done, nobody holds a guard. -/
theorem Alone.canWrite_of_write (alone : Alone held) (hi : held[i]? = some .write) :
    canWrite (held.set i .none) = true := by
  simp only [canWrite, List.all_eq_true, decide_eq_true_eq]
  intro g hg
  obtain ⟨j, hj⟩ := List.getElem?_of_mem hg
  rw [List.getElem?_set] at hj
  split at hj
  · split at hj <;> cases hj
    rfl
  · exact alone.others hi hj (by omega)

/-- A party that holds nothing joins. -/
theorem Alone.join (alone : Alone held) : Alone (held ++ [.none]) := by
  have hold : ∀ (j : ℕ) (g : Guard), (held ++ [.none])[j]? = some g → g ≠ .none →
      held[j]? = some g := by
    intro j g hj hg
    rw [List.getElem?_append] at hj
    split at hj
    · exact hj
    · rw [List.getElem?_singleton] at hj
      split at hj
      · cases hj
        exact absurd rfl hg
      · cases hj
  intro i j g hi hj hg
  exact alone i j g (hold i _ hi (by decide)) (hold j g hj hg) hg

/-- A guard that does not write is put in the place of another one, if nobody else writes. -/
theorem Alone.set (alone : Alone held) {g : Guard} (hg : g ≠ .write)
    (hothers : g ≠ .none → ∀ j, j ≠ i → held[j]? ≠ some .write) : Alone (held.set i g) := by
  intro a b h ha hb hh
  rw [List.getElem?_set] at ha hb
  split at ha
  · split at ha
    · cases ha
      exact absurd rfl hg
    · cases ha
  · rename_i hai
    split at hb
    · split at hb
      · cases hb
        exact absurd ha (hothers hh a (Ne.symm hai))
      · cases hb
    · exact alone a b h ha hb hh

/-- A guard is given back. -/
theorem Alone.release (alone : Alone held) : Alone (held.set i .none) :=
  alone.set (by decide) fun h => absurd rfl h

theorem Alone.acquireRead (alone : Alone held) (h : canRead held = true) :
    Alone (held.set i .read) :=
  alone.set (by decide) fun _ _ _ hj => ne_write_of_canRead h hj rfl

/-- One party may hold any guard while all others hold nothing. -/
theorem alone_set (h : ∀ (j : ℕ) (g : Guard), j ≠ i → held[j]? = some g → g = .none) (g : Guard) :
    Alone (held.set i g) := by
  have hi : ∀ (j : ℕ) (g' : Guard), (held.set i g)[j]? = some g' → g' ≠ .none → i = j := by
    intro j g' hj hg
    rw [List.getElem?_set] at hj
    split at hj
    · assumption
    · rename_i hne
      exact absurd (h j g' (Ne.symm hne) hj) hg
  intro a b g' ha hb hg
  rw [← hi a _ ha (by decide), ← hi b g' hb hg]

end RwLock
