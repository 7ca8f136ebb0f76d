import RabbitDigger.Interface.Basic

/-!
# Read buffers

`tokio::io::ReadBuf`: a buffer of fixed capacity whose first bytes are filled.
Sockets and streams append to the filled part and never go beyond the capacity,
so the bound is a field of the structure.

What lies behind the filled part is not modelled: no function of this repository
reads it.
-/

namespace RabbitDigger

/-- `tokio::io::ReadBuf`. -/
structure ReadBuf where
  filled : Bytes
  capacity : ℕ
  bounded : filled.length ≤ capacity
deriving DecidableEq

namespace ReadBuf

/-- `ReadBuf::new`: nothing is filled. -/
def new (capacity : ℕ) : ReadBuf where
  filled := []
  capacity := capacity
  bounded := Nat.zero_le _

/-- `remaining`. -/
def remaining (buf : ReadBuf) : ℕ :=
  buf.capacity - buf.filled.length

/-- What a socket does with a datagram: it appends as much of it as fits. -/
def put (buf : ReadBuf) (datagram : Bytes) : ReadBuf where
  filled := buf.filled ++ datagram.take buf.remaining
  capacity := buf.capacity
  bounded := by
    have hbounded := buf.bounded
    simp only [List.length_append, List.length_take, remaining]
    omega

/-- `filled_mut().copy_within(pos.., 0)`: the bytes from `pos` on are moved to the
front, and those behind them stay as they are. -/
def copyWithin (buf : ReadBuf) (pos : ℕ) : ReadBuf where
  filled := buf.filled.drop pos ++ buf.filled.drop (buf.filled.length - pos)
  capacity := buf.capacity
  bounded := by
    have hbounded := buf.bounded
    simp only [List.length_append, List.length_drop]
    omega

/-- `set_filled` with a length within the filled part. -/
def setFilled (buf : ReadBuf) (n : ℕ) : ReadBuf where
  filled := buf.filled.take n
  capacity := buf.capacity
  bounded := Nat.le_trans (List.length_take_le' _ _) buf.bounded

@[simp] theorem put_nil (buf : ReadBuf) : buf.put [] = buf := by
  unfold put
  simp

/-- A datagram that fits is appended whole. -/
theorem filled_put_of_le {buf : ReadBuf} {datagram : Bytes}
    (h : datagram.length ≤ buf.remaining) :
    (buf.put datagram).filled = buf.filled ++ datagram := by
  show buf.filled ++ datagram.take buf.remaining = buf.filled ++ datagram
  rw [List.take_of_length_le h]

/-- Moving the bytes from `pos` on to the front and cutting the rest off leaves
exactly those bytes. -/
theorem filled_shift {buf : ReadBuf} {pos : ℕ} (h : pos ≤ buf.filled.length) :
    ((buf.copyWithin pos).setFilled ((buf.copyWithin pos).filled.length - pos)).filled
      = buf.filled.drop pos := by
  have hlength : (buf.copyWithin pos).filled.length - pos
      = (buf.filled.drop pos).length := by
    simp only [copyWithin, List.length_append, List.length_drop]
    omega
  show (buf.copyWithin pos).filled.take _ = buf.filled.drop pos
  rw [hlength]
  exact List.take_left

end ReadBuf

end RabbitDigger
