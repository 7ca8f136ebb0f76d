import Mathlib.Data.List.Basic

/-!
# Cells with guards

A `std::cell::RefCell` counts its guards while the program runs: any number of readers or one
writer.  A borrow that **conflicts** with a guard panics.

A guard that is a temporary lives as long as its statement, and the cell is a field of a larger
state which the statement may use as well.  So a statement is given here by its body, a function
of the value behind the guard and of **the state while the guard is held** (`CellField.reading`,
`CellField.writing`): if the body borrows the same cell in that state, it finds the guard.
-/

namespace RefCells

/-- Who holds a guard: nobody, a reader and so many others, or a writer. -/
inductive Guards where
  | free
  | shared (others : ℕ)
  | unique
deriving Repr, DecidableEq

/-- One guard less. -/
def Guards.release : Guards → Guards
  | .shared (others + 1) => .shared others
  | _ => .free

/-- `RefCell`. -/
structure RefCell (α : Type) where
  value : α
  guards : Guards

namespace RefCell

variable {α : Type}

/-- `RefCell::new`. -/
def new (value : α) : RefCell α := ⟨value, .free⟩

/-- `borrow`; `none` is the panic. -/
def borrow (cell : RefCell α) : Option (RefCell α) :=
  match cell.guards with
  | .free => some ⟨cell.value, .shared 0⟩
  | .shared others => some ⟨cell.value, .shared (others + 1)⟩
  | .unique => none

/-- `borrow_mut`; `none` is the panic. -/
def borrowMut (cell : RefCell α) : Option (RefCell α) :=
  match cell.guards with
  | .free => some ⟨cell.value, .unique⟩
  | _ => none

/-- A guard is dropped. -/
def drop (cell : RefCell α) : RefCell α := ⟨cell.value, cell.guards.release⟩

end RefCell

/-- A cell that is a field of a state. -/
structure CellField (σ α : Type) where
  get : σ → RefCell α
  set : RefCell α → σ → σ
  get_set : ∀ cell s, get (set cell s) = cell
  set_set : ∀ cell cell' s, set cell (set cell' s) = set cell s
  set_get : ∀ s, set (get s) s = s

namespace CellField

variable {σ α β ε : Type} (field : CellField σ α) (panic : ε)

/-- A statement with a guard from `borrow`. -/
def reading (body : α → σ → Except ε (β × σ)) (s : σ) : Except ε (β × σ) :=
  match (field.get s).borrow with
  | none => .error panic
  | some cell => do
      let (b, s') ← body cell.value (field.set cell s)
      pure (b, field.set (field.get s').drop s')

/-- A statement with a guard from `borrow_mut`, which leaves a value behind. -/
def writing (body : α → σ → Except ε ((β × α) × σ)) (s : σ) : Except ε (β × σ) :=
  match (field.get s).borrowMut with
  | none => .error panic
  | some cell => do
      let ((b, a), s') ← body cell.value (field.set cell s)
      pure (b, field.set ⟨a, (field.get s').guards.release⟩ s')

variable {panic} {s : σ} {a : α}

/-- **A guard on a free cell is had**, and the cell is free again after a statement that uses
nothing but the value. -/
theorem reading_of_free (h : field.get s = .new a) (body : α → Except ε β) :
    field.reading panic (fun a s => (body a).map (·, s)) s = (body a).map (·, s) := by
  unfold reading
  rw [h]
  dsimp only [RefCell.borrow, RefCell.new]
  cases body a with
  | error e => rfl
  | ok b =>
      show Except.ok (b, field.set (field.get (field.set _ s)).drop (field.set _ s)) = _
      rw [field.get_set, field.set_set]
      have hs : field.set (RefCell.new a) s = s := by rw [← h, field.set_get]
      exact congrArg (fun s => Except.ok (b, s)) hs

theorem writing_of_free (h : field.get s = .new a) (body : α → Except ε (β × α)) :
    field.writing panic (fun a s => (body a).map (·, s)) s =
      (body a).map fun r => (r.1, field.set (.new r.2) s) := by
  unfold writing
  rw [h]
  dsimp only [RefCell.borrowMut, RefCell.new]
  cases body a with
  | error e => rfl
  | ok r =>
      obtain ⟨b, a'⟩ := r
      show Except.ok (b, field.set ⟨a', (field.get (field.set _ s)).guards.release⟩
        (field.set _ s)) = _
      rw [field.get_set, field.set_set]
      rfl

end CellField

end RefCells
