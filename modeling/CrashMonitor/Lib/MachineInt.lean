import Mathlib.Algebra.Group.Nat.Defs
import Mathlib.Data.Nat.Basic

/-!
# Machine integers over `Nat`

Unsigned machine integers are natural numbers below a power of two; the
operations here are the ones whose behaviour at the bound differs from
`Nat`. Saturating subtraction needs no definition: it is `Nat`
subtraction.
-/

namespace CrashMonitor.MachineInt

/-- Largest `u64` (and `usize`: the targets are 64-bit). -/
def u64Max : Nat := 2 ^ 64 - 1

/-- `u64::saturating_add`. -/
def saturatingAdd (a b : Nat) : Nat := min (a + b) u64Max

/-- `u64::try_from(n).unwrap_or(u64::MAX)`. -/
def tryFromOrMax (n : Nat) : Nat := min n u64Max

/-- `n as u64` from a wider unsigned type. -/
def asU64 (n : Nat) : Nat := n % 2 ^ 64

theorem saturatingAdd_le (a b : Nat) : saturatingAdd a b ≤ a + b := Nat.min_le_left _ _

theorem saturatingAdd_of_le {a b} (h : a + b ≤ u64Max) : saturatingAdd a b = a + b :=
  Nat.min_eq_left h

/-- Saturating twice is saturating once: the first cut is invisible. -/
theorem saturatingAdd_min (a b : Nat) : saturatingAdd (min a u64Max) b = min (a + b) u64Max := by
  unfold saturatingAdd
  omega

theorem asU64_le (n : Nat) : asU64 n ≤ n := Nat.mod_le _ _

end CrashMonitor.MachineInt
