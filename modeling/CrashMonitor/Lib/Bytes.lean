import Mathlib.Algebra.Group.Nat.Defs
import Mathlib.Data.List.Basic
import Mathlib.Data.List.GetD

/-!
# Byte memory and little-endian words

A memory is a total function from addresses to bytes. Words of any width
are read and written through the little-endian codec `toLE`/`ofLE`.
Everything below is stated for reads and writes of byte lists, and the
word-level facts are the instances at `toLE`.
-/

namespace CrashMonitor.Bytes

open List

/-! ## Little-endian words -/

/-- The low `width` bytes of `n`, least significant first. -/
def toLE : (width n : Nat) → List UInt8
  | 0, _ => []
  | width + 1, n => UInt8.ofNat n :: toLE width (n / 256)

/-- The number a byte list encodes, least significant byte first. -/
def ofLE : List UInt8 → Nat
  | [] => 0
  | b :: bs => b.toNat + 256 * ofLE bs

@[simp] theorem toLE_length (width n : Nat) : (toLE width n).length = width := by
  induction width generalizing n with
  | zero => rfl
  | succ width ih => simp [toLE, ih]

theorem ofLE_lt (bs : List UInt8) : ofLE bs < 256 ^ bs.length := by
  induction bs with
  | nil => simp [ofLE]
  | cons b bs ih =>
    have hb : b.toNat < 256 := b.toNat_lt
    rw [ofLE, length_cons, Nat.pow_succ]
    omega

theorem ofLE_toLE (width n : Nat) : ofLE (toLE width n) = n % 256 ^ width := by
  induction width generalizing n with
  | zero => simp [toLE, ofLE, Nat.mod_one]
  | succ width ih =>
    have hb : (UInt8.ofNat n).toNat = n % 256 := UInt8.toNat_ofNat'
    rw [toLE, ofLE, ih, hb, Nat.pow_succ, Nat.mul_comm (256 ^ width), Nat.mod_mul]

theorem ofLE_toLE_of_lt {width n} (h : n < 256 ^ width) : ofLE (toLE width n) = n := by
  rw [ofLE_toLE, Nat.mod_eq_of_lt h]

theorem toLE_ofLE (bs : List UInt8) : toLE bs.length (ofLE bs) = bs := by
  induction bs with
  | nil => rfl
  | cons b bs ih =>
    have hb : b.toNat < 256 := b.toNat_lt
    have hmod : .ofNat (b.toNat + 256 * ofLE bs) = b := by
      apply UInt8.toNat_inj.mp
      rw [UInt8.toNat_ofNat']
      omega
    have hdiv : (b.toNat + 256 * ofLE bs) / 256 = ofLE bs := by omega
    rw [length_cons, ofLE, toLE, hmod, hdiv, ih]

/-- Zero bytes encode zero. -/
theorem ofLE_replicate_zero (n : Nat) : ofLE (.replicate n 0) = 0 := by
  induction n with
  | zero => rfl
  | succ n ih => simp [replicate_succ, ofLE, ih]

/-! ## Memory -/

/-- A byte for every address. -/
abbrev Mem := Nat → UInt8

namespace Mem

variable {m m' : Mem} {a n width i b : Nat} {bs : List UInt8}

section

variable (m : Mem) (a width n : Nat)

/-- The `n` bytes from address `a` on. -/
def read : List UInt8 := (List.range n).map fun i => m (a + i)

/-- Overwrite the bytes from address `a` on with `bs`. -/
def write (bs : List UInt8) : Mem := fun i =>
  if a ≤ i then bs.getD (i - a) (m i) else m i

/-- The `width`-byte word at address `a`. -/
def load : Nat := ofLE (m.read a width)

/-- Store the low `width` bytes of `n` at address `a`. -/
def store : Mem := m.write a (toLE width n)

@[simp] theorem read_length : (m.read a n).length = n := by simp [read]

end

theorem read_congr (h : ∀ i, a ≤ i → i < a + n → m i = m' i) : m.read a n = m'.read a n := by
  apply map_congr_left
  intro i hi
  rw [mem_range] at hi
  exact h (a + i) (by omega) (by omega)

theorem load_congr (h : ∀ i, a ≤ i → i < a + width → m i = m' i) :
    m.load a width = m'.load a width := congrArg ofLE (read_congr h)

theorem load_lt (m : Mem) (a width : Nat) : m.load a width < 256 ^ width := by
  have h := ofLE_lt (m.read a width)
  rwa [read_length] at h

theorem write_outside (h : i < a ∨ a + bs.length ≤ i) : m.write a bs i = m i := by
  unfold write
  split
  · rw [getD_eq_default]
    omega
  · rfl

theorem write_inside {k} (h : k < bs.length) : m.write a bs (a + k) = bs[k] := by
  unfold write
  rw [if_pos (Nat.le_add_right a k), Nat.add_sub_cancel_left, getD_eq_getElem _ _ h]

@[simp] theorem write_nil (m : Mem) (a : Nat) : m.write a [] = m := by
  funext i
  exact write_outside (by simp; omega)

/-- Writing a list is writing its head and then the rest. -/
theorem write_cons (m : Mem) (a : Nat) (b : UInt8) (bs : List UInt8) :
    m.write a (b :: bs) = (m.write a [b]).write (a + 1) bs := by
  funext i
  rcases Nat.lt_trichotomy i a with hlt | rfl | hgt
  · rw [write_outside (.inl hlt), write_outside (.inl (by omega)), write_outside (.inl hlt)]
  · rw [write_outside (.inl (Nat.lt_succ_self i))]
    simp [write]
  · have hk : i - a = i - (a + 1) + 1 := by omega
    simp [write, hk, Nat.le_of_lt hgt, Nat.succ_le_of_lt hgt]

theorem write_append (m : Mem) (a : Nat) (bs cs : List UInt8) :
    m.write a (bs ++ cs) = (m.write a bs).write (a + bs.length) cs := by
  induction bs generalizing m a with
  | nil => simp
  | cons b bs ih =>
    rw [cons_append, write_cons, ih, write_cons m a b bs,
      length_cons, Nat.add_assoc, Nat.add_comm 1]

theorem read_write_self (m : Mem) (a : Nat) (bs : List UInt8) :
    (m.write a bs).read a bs.length = bs := by
  apply ext_getElem
  · simp
  intro k h1 h2
  simp only [read, getElem_map, getElem_range]
  exact write_inside h2

theorem read_write_of_length (h : bs.length = n) : (m.write a bs).read a n = bs := by
  rw [← h, read_write_self]

theorem read_write_disjoint (h : b + n ≤ a ∨ a + bs.length ≤ b) :
    (m.write a bs).read b n = m.read b n := read_congr fun i h1 h2 => write_outside (by omega)

theorem load_store_self (m : Mem) (a width n : Nat) :
    (m.store a width n).load a width = n % 256 ^ width := by
  have h := read_write_self m a (toLE width n)
  rw [toLE_length] at h
  rw [load, store, h, ofLE_toLE]

theorem load_write_disjoint (h : b + width ≤ a ∨ a + bs.length ≤ b) :
    (m.write a bs).load b width = m.load b width := congrArg ofLE (read_write_disjoint h)

theorem load_store_disjoint {w} (h : b + width ≤ a ∨ a + w ≤ b) :
    (m.store a w n).load b width = m.load b width := load_write_disjoint (by rwa [toLE_length])

/-- A word of zero bytes is zero. -/
theorem load_eq_zero (h : ∀ i, a ≤ i → i < a + width → m i = 0) : m.load a width = 0 := by
  have hread : m.read a width = .replicate width 0 := by
    refine eq_replicate_of_mem ?_ |>.trans (by rw [read_length])
    intro b hb
    obtain ⟨i, hi, rfl⟩ := mem_map.mp hb
    rw [mem_range] at hi
    exact h (a + i) (by omega) (by omega)
  rw [load, hread, ofLE_replicate_zero]

theorem store_outside (h : i < a ∨ a + width ≤ i) : m.store a width n i = m i :=
  write_outside (by rwa [toLE_length])

/-- A word loaded from one memory and stored into another carries the bytes
over. -/
theorem store_load_inside (h1 : a ≤ i) (h2 : i < a + width) :
    m.store a width (m'.load a width) i = m' i := by
  obtain ⟨k, rfl⟩ := Nat.exists_eq_add_of_le h1
  have hbytes : toLE width (m'.load a width) = m'.read a width := by
    have := toLE_ofLE (m'.read a width)
    rwa [read_length] at this
  rw [store, hbytes, write_inside (by rw [read_length]; omega)]
  simp [read]

end Mem

end CrashMonitor.Bytes
