import Mathlib.Data.List.DropRight
import Mathlib.Tactic

/-! # Circular buffers

`boost::circular_buffer`: a list of bounded length, to which an element is appended at the expense
of the oldest one.  Whatever has been appended, the buffer holds the last of it
(`toList_foldl_pushBack`). -/

namespace Norns.Lib

/-- A buffer for `capacity` elements, the oldest first. -/
structure CircularBuffer (α : Type) (capacity : ℕ) where
  toList : List α
  length_le : toList.length ≤ capacity

namespace CircularBuffer

variable {α : Type} {n : ℕ}

/-- A buffer without elements. -/
def empty : CircularBuffer α n := ⟨[], Nat.zero_le n⟩

/-- `circular_buffer::size`. -/
def size (b : CircularBuffer α n) : ℕ := b.toList.length

/-- `circular_buffer::push_back`: a full buffer loses its first element. -/
def pushBack (b : CircularBuffer α n) (x : α) : CircularBuffer α n where
  toList := if b.size < n then b.toList ++ [x] else (b.toList ++ [x]).tail
  length_le := by
    have hle := b.length_le
    unfold size
    split_ifs with h
    · rw [List.length_append, List.length_singleton]
      omega
    · rw [List.length_tail, List.length_append, List.length_singleton]
      omega

theorem toList_pushBack (b : CircularBuffer α n) (x : α) :
    (b.pushBack x).toList = (b.toList ++ [x]).rtake n := by
  have hle := b.length_le
  show (if b.size < n then b.toList ++ [x] else (b.toList ++ [x]).tail) = _
  unfold size List.rtake
  rw [List.length_append, List.length_singleton]
  split_ifs with h
  · rw [show b.toList.length + 1 - n = 0 by omega, List.drop_zero]
  · rw [show b.toList.length + 1 - n = 1 by omega, List.drop_one]

/-- What has left the buffer before does not matter. -/
theorem rtake_rtake_append (l : List α) (x : α) :
    (l.rtake n ++ [x]).rtake n = (l ++ [x]).rtake n := by
  unfold List.rtake
  rw [List.length_append, List.length_append, List.length_singleton, List.length_drop,
    ← List.drop_append_of_le_length (by omega), List.drop_drop]
  congr 1
  omega

/-- The buffer holds the last elements that have been appended. -/
theorem toList_foldl_pushBack (xs : List α) :
    (xs.foldl pushBack (empty : CircularBuffer α n)).toList = xs.rtake n := by
  induction xs using List.reverseRecOn with
  | nil => simp [empty]
  | append_singleton xs x ih =>
      rw [List.foldl_append, List.foldl_cons, List.foldl_nil, toList_pushBack, ih,
        rtake_rtake_append]

end CircularBuffer

end Norns.Lib
