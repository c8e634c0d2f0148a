import Mathlib.Data.List.Basic
import Mathlib.Algebra.Group.Nat.Defs

/-!
# Base64

The standard alphabet with canonical padding: three bytes are four characters,
a last group of one or two bytes is filled up with `=`, and the bits a filler
stands for are zero.
-/

namespace CrashMonitor.Lib.Base64

/-! ## The alphabet -/

def digit (n : Nat) : Char :=
  if n < 26 then Char.ofNat (n + 65)
  else if n < 52 then Char.ofNat (n + 71)
  else if n < 62 then Char.ofNat (n - 4)
  else if n = 62 then '+'
  else '/'

def value (c : Char) : Option Nat :=
  let n := c.toNat
  if 65 ≤ n ∧ n ≤ 90 then some (n - 65)
  else if 97 ≤ n ∧ n ≤ 122 then some (n - 71)
  else if 48 ≤ n ∧ n ≤ 57 then some (n + 4)
  else if c = '+' then some 62
  else if c = '/' then some 63
  else none

/-! ## Writing -/

def encode : List UInt8 → List Char
  | [] => []
  | [a] => [digit (a.toNat / 4), digit (a.toNat % 4 * 16), '=', '=']
  | [a, b] =>
    [digit (a.toNat / 4), digit (a.toNat % 4 * 16 + b.toNat / 16), digit (b.toNat % 16 * 4), '=']
  | a :: b :: c :: rest =>
    digit (a.toNat / 4) :: digit (a.toNat % 4 * 16 + b.toNat / 16) ::
      digit (b.toNat % 16 * 4 + c.toNat / 64) :: digit (c.toNat % 64) :: encode rest

/-! ## Reading -/

def firstByte (p q : Nat) : UInt8 := .ofNat (p * 4 + q / 16)

def secondByte (q r : Nat) : UInt8 := .ofNat (q % 16 * 16 + r / 4)

def thirdByte (r s : Nat) : UInt8 := .ofNat (r % 4 * 64 + s)

/-- A last group with fillers, whose spare bits have to be zero. -/
def decodeLast (p q : Nat) (r : Char) : Option (List UInt8) :=
  if r = '=' then
    if q % 16 = 0 then some [firstByte p q] else none
  else
    (value r).bind fun r =>
      if r % 4 = 0 then some [firstByte p q, secondByte q r] else none

def decode : List Char → Option (List UInt8)
  | [] => some []
  | p :: q :: r :: s :: rest =>
    (value p).bind fun p => (value q).bind fun q =>
      if s = '=' then
        if rest.isEmpty then decodeLast p q r else none
      else
        (value r).bind fun r => (value s).bind fun s => (decode rest).map fun bytes =>
            firstByte p q :: secondByte q r :: thirdByte r s :: bytes
  | _ => none

end CrashMonitor.Lib.Base64
