import Mathlib.Data.List.DropRight

/-!
# Logs kept in a ring

A log of records, oldest first, kept in `cap` cells: record `k` goes to cell
`k % cap`, so that the newest `cap` records are there. The write index is
kept in `1..cap` once something was written, so that the cell it names is
the next one to write and the cell before it is the newest record.

`cell i x` says that cell `i` holds record `x`; how it holds it is left to
the user.
-/

namespace CrashMonitor.RingLog

open List

variable {α β : Type} {cap : Nat}

section

variable {cell cell' : Nat → α → Prop} {log : List α}

/-- The write index after `n` records. -/
def writeIndex (cap n : Nat) : Nat := if n = 0 then 0 else (n - 1) % cap + 1

theorem writeIndex_succ (cap n : Nat) : writeIndex cap (n + 1) = n % cap + 1 := by simp [writeIndex]

/-- The write index names the cell of the next record. -/
theorem writeIndex_mod (cap n : Nat) : writeIndex cap n % cap = n % cap := by
  cases n with
  | zero => simp [writeIndex]
  | succ n => rw [writeIndex_succ, Nat.mod_add_mod]

/-- Walking `back` cells back from the write index, around the end of the
ring if need be. -/
def cellBack (cap index back : Nat) : Nat :=
  (if index > back then index - back - 1 else cap + index - back - 1) % cap

/-- The cell reached by walking back is that of the record as far behind. -/
theorem cellBack_writeIndex {n back} (hn : back < n) (hcap : back < cap) :
    cellBack cap (writeIndex cap n) back = (n - 1 - back) % cap := by
  obtain ⟨k, rfl⟩ : ∃ k, n = k + 1 := ⟨n - 1, by omega⟩
  have hmod := Nat.div_add_mod k cap
  rw [writeIndex_succ, cellBack, Nat.add_sub_cancel]
  generalize hq : cap * (k / cap) = multiple at hmod
  split
  · next h =>
      have hsub : k - back = k % cap - back + multiple := by omega
      rw [hsub, ← hq, Nat.add_mul_mod_self_left]
      congr 1
      omega
  · next h =>
      -- the walk crosses the start of the ring, so the quotient is positive
      have hpos : 0 < k / cap := by
        rcases Nat.eq_zero_or_pos (k / cap) with h0 | h0
        · rw [h0, Nat.mul_zero] at hq
          omega
        · exact h0
      obtain ⟨q, hq'⟩ : ∃ q, k / cap = q + 1 := ⟨k / cap - 1, by omega⟩
      rw [hq', Nat.mul_succ] at hq
      have hsub : k - back = cap + k % cap - back + cap * q := by omega
      rw [hsub, Nat.add_mul_mod_self_left]
      congr 1
      omega

/-! ## The records in their cells -/

/-- Every record that was not overwritten is in its cell. -/
def Kept (cap : Nat) (cell : Nat → α → Prop) (log : List α) : Prop :=
  ∀ k (hk : k < log.length), log.length ≤ k + cap → cell (k % cap) log[k]

theorem Kept.nil (cell : Nat → α → Prop) : Kept cap cell [] := by
  intro k hk
  exact absurd hk (Nat.not_lt_zero k)

theorem Kept.mono (h : Kept cap cell log) (hcap : 0 < cap)
    (hcell : ∀ i < cap, ∀ x, cell i x → cell' i x) : Kept cap cell' log :=
  fun k hk hle => hcell _ (Nat.mod_lt _ hcap) _ (h k hk hle)

/-- Two records less than a round apart are in different cells. -/
theorem mod_ne_of_lt {k n} (h1 : k < n) (h2 : n < k + cap) : k % cap ≠ n % cap := by
  intro heq
  obtain ⟨d, rfl⟩ := Nat.exists_eq_add_of_lt h1
  have hdiff := Nat.sub_mod_eq_zero_of_mod_eq heq.symm
  rw [show k + d + 1 - k = d + 1 by omega] at hdiff
  have := Nat.le_of_dvd (Nat.succ_pos d) (Nat.dvd_of_mod_eq_zero hdiff)
  omega

/-- Writing the next cell adds a record; the other cells only have to keep
what they hold. -/
theorem Kept.push {x} (h : Kept cap cell log) (hcap : 0 < cap)
    (hold : ∀ i < cap, i ≠ log.length % cap → ∀ y, cell i y → cell' i y)
    (hnew : cell' (log.length % cap) x) : Kept cap cell' (log ++ [x]) := by
  intro k hk hle
  rw [length_append, length_singleton] at hk hle
  rcases Nat.lt_succ_iff_lt_or_eq.mp hk with hlt | rfl
  · rw [getElem_append_left hlt]
    exact hold _ (Nat.mod_lt _ hcap) (mod_ne_of_lt hlt (by omega)) _ (h k hlt (by omega))
  · rw [getElem_concat_length rfl]
    exact hnew

/-- Reading the cells from the write index backwards gives the newest
records, newest first. -/
theorem Kept.filterMap_cellBack (h : Kept cap cell log) {f : Nat → Option β} {g}
    (hf : ∀ i < cap, ∀ x ∈ log, cell i x → f i = g x) {k}
    (hlog : k ≤ log.length) (hcap : k ≤ cap) : ((List.range k).filterMap fun back =>
        f (cellBack cap (writeIndex cap log.length) back)) =
      ((log.rtake k).reverse.filterMap g) := by
  induction k with
  | zero => simp
  | succ k ih =>
    have hk : log.length - 1 - k < log.length := by omega
    have hcell := h _ hk (by omega)
    have hvalue : f (cellBack cap (writeIndex cap log.length) k) = g log[log.length - 1 - k] := by
      rw [cellBack_writeIndex (by omega) (by omega)]
      exact hf _ (Nat.mod_lt _ (by omega)) _ (getElem_mem hk) hcell
    have htake : log.rtake (k + 1) = log[log.length - 1 - k] :: log.rtake k := by
      rw [List.rtake, List.rtake,
        show log.length - (k + 1) = log.length - 1 - k by omega,
        drop_eq_getElem_cons hk,
        show log.length - 1 - k + 1 = log.length - k by omega]
    rw [range_succ, filterMap_append, ih (by omega) (by omega),
      htake, reverse_cons, filterMap_append]
    simp only [filterMap_cons, filterMap_nil, hvalue]

end

end CrashMonitor.RingLog
