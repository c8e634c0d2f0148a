import Mathlib.Algebra.Group.Nat.Defs
import Mathlib.Data.List.Basic
import Mathlib.Data.List.TakeWhile

/-!
# Compact structured text

Writers and readers for text without spaces: fixed words, decimal numbers, and
lists closed by a bracket. A reader answers the value and the rest of its
input. Each reader takes back what its writer wrote, whatever follows.
-/

namespace CrashMonitor.Lib.CompactText

open List

abbrev Text := List Char

/-- Read a value from the front of a text. -/
abbrev Reader (α : Type) := Text → Option (α × Text)

/-! ## Words -/

/-- The rest of a text that starts with a word. -/
def expect (word input : Text) : Option Text :=
  if word.isPrefixOf input then some (input.drop word.length) else none

@[simp] theorem expect_append (word rest : Text) : expect word (word ++ rest) = some rest := by
  have hstart : word.isPrefixOf (word ++ rest) = true :=
    isPrefixOf_iff_prefix.mpr (prefix_append word rest)
  rw [expect, if_pos hstart, drop_left]

/-! ## Numbers -/

def writeNat (n : Nat) : Text := Nat.toDigits 10 n

/-- The number at the front, if there is a digit. -/
def readNat : Reader Nat := fun input =>
  match input.takeWhile Char.isDigit with
  | [] => none
  | digits => some (Nat.ofDigitChars 10 digits 0, input.dropWhile Char.isDigit)

/-- A text that does not go on with a digit. -/
def Stops (rest : Text) : Prop := ∀ c, rest.head? = some c → c.isDigit = false

theorem stops_cons {c rest} (h : c.isDigit = false) : Stops (c :: rest) := by
  intro d hd
  cases hd
  exact h

theorem span_digits {digits rest} (h : ∀ c ∈ digits, c.isDigit = true) (hrest : Stops rest) :
    (digits ++ rest).takeWhile Char.isDigit = digits ∧
      (digits ++ rest).dropWhile Char.isDigit = rest := by
  induction digits with
  | nil =>
    cases rest with
    | nil => exact ⟨rfl, rfl⟩
    | cons c rest =>
      have hc : ¬ c.isDigit = true := by simp [hrest c rfl]
      exact ⟨takeWhile_cons_of_neg hc, dropWhile_cons_of_neg hc⟩
  | cons c digits ih =>
    have hc := h c mem_cons_self
    obtain ⟨htake, hdrop⟩ := ih fun d hd => h d (mem_cons_of_mem c hd)
    rw [cons_append, takeWhile_cons_of_pos hc, dropWhile_cons_of_pos hc, htake, hdrop]
    exact ⟨rfl, rfl⟩

theorem isDigit_of_mem_writeNat {n c} (h : c ∈ writeNat n) : c.isDigit = true :=
  Nat.isDigit_of_mem_toDigits (by decide) (by decide) h

theorem readNat_writeNat (n : Nat) {rest} (hrest : Stops rest) :
    readNat (writeNat n ++ rest) = some (n, rest) := by
  obtain ⟨htake, hdrop⟩ := span_digits (fun c => isDigit_of_mem_writeNat (n := n)) hrest
  have hne : writeNat n ≠ [] := Nat.toDigits_ne_nil
  unfold readNat
  rw [htake, hdrop]
  split
  case h_1 hnil => exact absurd hnil hne
  case h_2 => rw [writeNat, Nat.ofDigitChars_ten_toDigits]

theorem writeNat_length_le {n k} (hk : 0 < k) (h : n < 10 ^ k) : (writeNat n).length ≤ k :=
  (Nat.length_toDigits_le_iff (by decide) hk).mpr h

/-! ## Lists -/

section Lists

variable {α : Type}

/-- Items separated by commas and closed by a bracket. -/
def writeItems (item : α → Text) : List α → Text
  | [] => [']']
  | [a] => item a ++ [']']
  | a :: b :: rest => item a ++ ',' :: writeItems item (b :: rest)

/-- At most `fuel` items, up to the closing bracket. -/
def readItems (item : Reader α) : Nat → Reader (List α)
  | 0, _ => none
  | fuel + 1, input =>
    if input.head? = some ']' then some ([], input.tail)
    else
      (item input).bind fun read =>
        if read.2.head? = some ']' then some ([read.1], read.2.tail)
        else if read.2.head? = some ',' then
          (readItems item fuel read.2.tail).map fun tail => (read.1 :: tail.1, tail.2)
        else none

/-- Where an item may end. -/
def Closes (rest : Text) : Prop := ∃ tail, rest = ']' :: tail ∨ rest = ',' :: tail

theorem Closes.stops {rest} (h : Closes rest) : Stops rest := by
  rcases h with ⟨tail, rfl | rfl⟩
  · exact stops_cons (by decide)
  · exact stops_cons (by decide)

theorem readItems_writeItems {write read} {items : List α}
    (hread : ∀ a ∈ items, ∀ rest, Closes rest → read (write a ++ rest) = some (a, rest))
    (hhead : ∀ a ∈ items, ∃ c tail, write a = c :: tail ∧ c ≠ ']') {fuel}
    (hfuel : items.length < fuel) (rest : Text) :
    readItems read fuel (writeItems write items ++ rest) = some (items, rest) := by
  induction items generalizing fuel with
  | nil =>
    obtain ⟨fuel, rfl⟩ := Nat.exists_eq_add_one_of_ne_zero (Nat.ne_of_gt hfuel)
    simp [writeItems, readItems]
  | cons a items ih =>
    obtain ⟨fuel, rfl⟩ := Nat.exists_eq_add_one_of_ne_zero
      (Nat.ne_of_gt (Nat.lt_of_le_of_lt (Nat.zero_le _) hfuel))
    obtain ⟨c, tail, hwrite, hc⟩ := hhead a mem_cons_self
    have ha := hread a mem_cons_self
    cases items with
    | nil =>
      have hitem := ha (']' :: rest) ⟨rest, .inl rfl⟩
      have hopen : ¬ (writeItems write [a] ++ rest).head? = some ']' := by
        simp [writeItems, hwrite, hc]
      rw [readItems, if_neg hopen, writeItems, append_assoc, singleton_append, hitem]
      rfl
    | cons b items =>
      have hitem := ha (',' :: (writeItems write (b :: items) ++ rest)) ⟨_, .inr rfl⟩
      have hopen : ¬ (writeItems write (a :: b :: items) ++ rest).head? = some ']' := by
        simp [writeItems, hwrite, hc]
      have hless : (b :: items).length < fuel := by simpa using hfuel
      have hrest := ih (fun x hx => hread x (mem_cons_of_mem a hx))
        (fun x hx => hhead x (mem_cons_of_mem a hx)) hless
      rw [readItems, if_neg hopen, writeItems, append_assoc, cons_append, hitem]
      simp [hrest]

theorem writeItems_length_le {write} {items : List α} {k} (h : ∀ a ∈ items, (write a).length ≤ k) :
    (writeItems write items).length ≤ items.length * (k + 1) + 1 := by
  induction items with
  | nil => simp [writeItems]
  | cons a items ih =>
    have ha := h a mem_cons_self
    have hrest := ih fun x hx => h x (mem_cons_of_mem a hx)
    cases items with
    | nil =>
      simp only [writeItems, length_append, length_singleton, Nat.one_mul]
      omega
    | cons b items =>
      simp only [writeItems, length_append, length_cons] at hrest ⊢
      have hsplit : (items.length + 1 + 1) * (k + 1) =
        (items.length + 1) * (k + 1) + (k + 1) := Nat.succ_mul _ _
      omega

/-- Every item takes at least its comma or bracket. -/
theorem length_lt_writeItems (write : α → Text) (items : List α) :
    items.length ≤ (writeItems write items).length := by
  induction items with
  | nil => exact Nat.zero_le _
  | cons a items ih =>
    cases items with
    | nil => simp [writeItems]
    | cons b items =>
      simp only [writeItems, length_append, length_cons] at ih ⊢
      omega

end Lists

end CrashMonitor.Lib.CompactText
