import CrashMonitor.Lib.Bytes
import CrashMonitor.Lib.Interleave

/-!
# Programs over shared byte memory

The signature of a shared mapping: word loads, stores of a byte list,
compare-and-exchange and add-and-fetch. A load or store is one step at its
own width; `storeBytes` is the byte-by-byte copy that `memcpy` and `memset`
amount to, so that a run can stop between any two bytes.
-/

namespace CrashMonitor.SharedMemory

open Bytes Interleave

inductive MemOp where
  | load (a width : Nat)
  | store (a : Nat) (bs : List UInt8)
  | cas (a width expected desired : Nat)
  | addFetch (a width delta : Nat)
  deriving DecidableEq, Repr

/-- Answers: the loaded word, nothing, success, the new word. -/
@[reducible] def MemOp.Res : MemOp → Type
  | .load _ _ => Nat
  | .store _ _ => Unit
  | .cas _ _ _ _ => Bool
  | .addFetch _ _ _ => Nat

@[reducible] def memSig : Sig := ⟨MemOp, MemOp.Res⟩

abbrev MemProg (α : Type) := Prog memSig α

/-- What a call does to the memory. -/
def memHandle : (o : MemOp) → Mem → o.Res × Mem
  | .load a width, m => (m.load a width, m)
  | .store a bs, m => ((), m.write a bs)
  | .cas a width expected desired, m =>
    if m.load a width = expected
    then (true, m.store a width desired) else (false, m)
  | .addFetch a width delta, m =>
    let word := (m.load a width + delta) % 256 ^ width
    (word, m.store a width word)

/-- Run alone. -/
abbrev run {α : Type} (p : MemProg α) (m : Mem) : α × Mem := Prog.exec (S := memSig) memHandle p m

/-! ## Calls as programs -/

def load (a width : Nat) : MemProg Nat := .op (S := memSig) (.load a width)

def storeWord (a width n : Nat) : MemProg Unit := .op (S := memSig) (.store a (toLE width n))

def cas (a width expected desired : Nat) : MemProg Bool :=
  .op (S := memSig) (.cas a width expected desired)

def addFetch (a width delta : Nat) : MemProg Nat := .op (S := memSig) (.addFetch a width delta)

/-- Store byte by byte, in address order. -/
def storeBytes (a : Nat) : List UInt8 → MemProg Unit
  | [] => .ret ()
  | b :: bs => .call (S := memSig) (.store a [b]) fun _ => storeBytes (a + 1) bs

/-! Equations for runs alone, step by step. -/

section
variable {α β : Type}

theorem run_bind (p : MemProg α) (f : α → MemProg β) (m : Mem) :
    run (p >>= f) m = run (f (run p m).1) (run p m).2 := by
  simp

theorem run_ite (c : Prop) [Decidable c] (p q : MemProg α) (m : Mem) :
    run (if c then p else q) m = if c then run p m else run q m := by
  split <;> rfl

end

@[simp] theorem run_load (a width : Nat) (m : Mem) :
    run (load a width) m = (m.load a width, m) := rfl

@[simp] theorem run_storeWord (a width n : Nat) (m : Mem) :
    run (storeWord a width n) m = ((), m.store a width n) := rfl

@[simp] theorem run_cas (a width expected desired : Nat) (m : Mem) :
    run (cas a width expected desired) m =
      if m.load a width = expected
      then (true, m.store a width desired) else (false, m) := rfl

/-- Alone, a byte-by-byte copy is one write. -/
@[simp] theorem run_storeBytes (a : Nat) (bs : List UInt8) (m : Mem) :
    run (storeBytes a bs) m = ((), m.write a bs) := by
  induction bs generalizing a m with
  | nil => simp [storeBytes]
  | cons b bs ih =>
    rw [Mem.write_cons, ← ih]
    rfl

end CrashMonitor.SharedMemory
