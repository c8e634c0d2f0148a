import Mathlib.Algebra.Group.Nat.Defs
import Mathlib.Data.List.Basic

/-!
# Bounded slices of a buffer

Reading a range of a buffer fails unless the whole range lies inside it, and
overwriting a range changes nothing outside it.
-/

namespace CrashMonitor.Slice

open List

variable {α : Type} {buf patch : List α} {offset o n k : Nat}

/-- `buf.get(offset..offset + n)`. -/
def get (buf : List α) (offset n : Nat) : Option (List α) :=
  if offset + n ≤ buf.length then some ((buf.drop offset).take n) else none

/-- `buf[offset..offset + patch.len()].copy_from_slice(patch)`, for a range
inside the buffer. -/
def overwrite (buf : List α) (offset : Nat) (patch : List α) : List α :=
  buf.take offset ++ (patch ++ buf.drop (offset + patch.length))

theorem get_of_le (h : offset + n ≤ buf.length) :
    get buf offset n = some ((buf.drop offset).take n) :=
  if_pos h

theorem length_overwrite (h : offset + patch.length ≤ buf.length) :
    (overwrite buf offset patch).length = buf.length := by
  simp [overwrite]
  omega

/-- What was written is read back. -/
theorem take_drop_overwrite_self (patch : List α) (h : offset ≤ buf.length) :
    ((overwrite buf offset patch).drop offset).take patch.length = patch := by
  have hlen : (buf.take offset).length = offset := by simp [h]
  rw [overwrite, drop_append_of_le_length (by omega), drop_eq_nil_of_le (by omega)]
  simp

/-- Everything from the end of the written range on is as before. -/
theorem drop_overwrite_after (h : offset + patch.length ≤ k)
    (hk : offset ≤ buf.length) : (overwrite buf offset patch).drop k = buf.drop k := by
  have hlen : (buf.take offset).length = offset := by simp [hk]
  rw [overwrite, ← append_assoc, drop_append, drop_eq_nil_of_le (by simp; omega)]
  simp [hlen, drop_drop]
  congr 1
  omega

/-- Everything before the written range is as before. -/
theorem take_drop_overwrite_before (h : o + n ≤ offset) (hk : offset ≤ buf.length) :
    ((overwrite buf offset patch).drop o).take n = (buf.drop o).take n := by
  have hlen : (buf.take offset).length = offset := by simp [hk]
  rw [overwrite, drop_append_of_le_length (by omega),
    take_append_of_le_length (by simp; omega), drop_take, take_take]
  congr 1
  omega

end CrashMonitor.Slice
