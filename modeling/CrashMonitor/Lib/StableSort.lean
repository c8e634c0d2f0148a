import Mathlib.Data.List.Basic

/-!
# Stable sorting by a key

`mergeSort` by a numeric key keeps, for every key, the elements with that
key in their order (`filter_sortByKey`), and a list sorted by key is
determined by those subsequences (`eq_of_filter_eq`). Sorting a reversed
sorted list therefore reverses every group of ties and nothing else. `lastUpTo`
is the lookup in a sorted list by its partition point.
-/

namespace CrashMonitor.StableSort

open List

variable {α : Type} (key : α → Nat)

/-- `sort_by_key`. -/
def sortByKey (l : List α) : List α := l.mergeSort fun a b => key a ≤ key b

/-- The list is in order of its keys. -/
def SortedByKey (l : List α) : Prop := l.Pairwise fun a b => key a ≤ key b

variable {key} {l l' : List α}

theorem sortByKey_perm : (sortByKey key l).Perm l := mergeSort_perm l _

theorem keyLe_trans (a b c : α) (hab : decide (key a ≤ key b) = true)
    (hbc : decide (key b ≤ key c) = true) : decide (key a ≤ key c) = true := by
  simp only [decide_eq_true_eq] at hab hbc ⊢
  omega

theorem keyLe_total (a b : α) : (decide (key a ≤ key b) || decide (key b ≤ key a)) = true := by
  simp only [Bool.or_eq_true, decide_eq_true_eq]
  omega

theorem sortByKey_sorted : SortedByKey key (sortByKey key l) := by
  have h : (sortByKey key l).Pairwise fun a b => decide (key a ≤ key b) = true :=
    pairwise_mergeSort keyLe_trans keyLe_total l
  exact h.imp of_decide_eq_true

theorem sortByKey_of_sorted (h : SortedByKey key l) : sortByKey key l = l :=
  mergeSort_of_pairwise (h.imp decide_eq_true)

/-- Stability. -/
theorem filter_sortByKey (l : List α) (t : Nat) :
    (sortByKey key l).filter (key · = t) = l.filter (key · = t) := by
  have hties : (l.filter (key · = t)).Pairwise fun a b => decide (key a ≤ key b) = true := by
    refine pairwise_of_forall_mem_list fun a ha b hb => ?_
    simp only [mem_filter, decide_eq_true_eq] at ha hb ⊢
    omega
  have hsub : (l.filter (key · = t)).Sublist (sortByKey key l) :=
    sublist_mergeSort keyLe_trans keyLe_total hties filter_sublist
  have hsub' : (l.filter (key · = t)).Sublist ((sortByKey key l).filter (key · = t)) := by
    simpa [filter_filter] using hsub.filter (key · = t)
  refine (hsub'.eq_of_length ?_).symm
  exact (sortByKey_perm.filter _).length_eq.symm

theorem head_key_le {a} (h : SortedByKey key (a :: l)) {b} (hb : b ∈ a :: l) : key a ≤ key b := by
  rcases mem_cons.mp hb with rfl | hmem
  · exact Nat.le_refl _
  · exact (pairwise_cons.mp h).1 b hmem

/-- A sorted list is determined by its groups of ties. -/
theorem eq_of_filter_eq (h : SortedByKey key l) (h' : SortedByKey key l')
    (hties : ∀ t, l.filter (key · = t) = l'.filter (key · = t)) : l = l' := by
  have hmem : ∀ {x : α}, x ∈ l ↔ x ∈ l' := by
    intro x
    have := congrArg (x ∈ ·) (hties (key x))
    simpa using this
  induction l generalizing l' with
  | nil =>
    cases l' with
    | nil => rfl
    | cons b l' => exact absurd (hmem.mpr (by simp)) (not_mem_nil (a := b))
  | cons a l ih =>
    cases l' with
    | nil => exact absurd (hmem.mp (by simp)) (not_mem_nil (a := a))
    | cons b l' =>
      -- both heads carry the least key, so they head the same group
      have hkey : key a = key b := Nat.le_antisymm (head_key_le h (hmem.mpr (by simp)))
        (head_key_le h' (hmem.mp (by simp)))
      have hhead := hties (key a)
      rw [filter_cons_of_pos (by simp),
        filter_cons_of_pos (by simp [hkey]), List.cons.injEq] at hhead
      obtain ⟨rfl, hrest⟩ := hhead
      have hties' : ∀ t, l.filter (key · = t) = l'.filter (key · = t) := by
        intro t
        by_cases ht : key a = t
        · rw [← ht]
          exact hrest
        have := hties t
        rwa [filter_cons_of_neg (by simpa using ht), filter_cons_of_neg (by simpa using ht)] at this
      rw [ih h.of_cons h'.of_cons hties' fun {x} => ?_]
      have := congrArg (x ∈ ·) (hties' (key x))
      simpa using this

/-- Sorting a reversed sorted list gives it back exactly if every group of
ties reads the same in both directions. -/
theorem sortByKey_reverse_eq_iff (h : SortedByKey key l) :
    sortByKey key l.reverse = l ↔ ∀ t, (l.filter (key · = t)).reverse = l.filter (key · = t) := by
  have hfilter : ∀ t, (sortByKey key l.reverse).filter (key · = t) =
      (l.filter (key · = t)).reverse := fun t => by
    rw [filter_sortByKey, filter_reverse]
  constructor
  · intro heq t
    rw [← hfilter, heq]
  intro hpal
  refine eq_of_filter_eq sortByKey_sorted h fun t => ?_
  rw [hfilter, hpal]

/-! ## The last element up to a bound -/

variable (key) in
/-- The element before the `partition_point` of a list that is in order. -/
def lastUpTo (l : List α) (bound : Nat) : Option α :=
  let index := (l.takeWhile (key · ≤ bound)).length
  if index = 0 then none else l[index - 1]?

variable {bound : Nat}

theorem lastUpTo_map {β : Type} (f : β → α) (l : List β) :
    lastUpTo key (l.map f) bound = (lastUpTo (key ∘ f) l bound).map f := by
  have hlength : ((l.map f).takeWhile (key · ≤ bound)).length =
      (l.takeWhile ((key ∘ f) · ≤ bound)).length := by
    rw [takeWhile_map, length_map]
    rfl
  rw [lastUpTo, lastUpTo, hlength]
  split
  · rfl
  · rw [List.getElem?_map]

theorem takeWhile_eq_filter (h : SortedByKey key l) :
    l.takeWhile (key · ≤ bound) = l.filter (key · ≤ bound) := by
  induction l with
  | nil => rfl
  | cons a l ih =>
    by_cases ha : key a ≤ bound
    · rw [takeWhile_cons_of_pos (by simpa using ha),
        filter_cons_of_pos (by simpa using ha), ih h.of_cons]
    rw [takeWhile_cons_of_neg (by simpa using ha), eq_comm, filter_eq_nil_iff]
    intro b hb
    have hle := head_key_le h hb
    simp only [decide_eq_true_eq]
    omega

theorem lastUpTo_eq_find? (h : SortedByKey key l) :
    lastUpTo key l bound = l.reverse.find? (key · ≤ bound) := by
  rw [← List.getLast?_filter, ← takeWhile_eq_filter h, List.getLast?_eq_getElem?, lastUpTo]
  split
  · next hzero => rw [length_eq_zero_iff.mp hzero, List.getElem?_nil]
  obtain ⟨rest, hrest⟩ := takeWhile_prefix (l := l) (key · ≤ bound)
  have hsplit := congrArg (·[(l.takeWhile (key · ≤ bound)).length - 1]?) hrest
  rw [← hsplit]
  exact List.getElem?_append_left (by omega)

/-- An element is found exactly if no key behind it is up to the bound. -/
theorem lastUpTo_eq_some_iff {before after x}
    (h : SortedByKey key (before ++ x :: after)) (hafter : x ∉ after) :
    lastUpTo key (before ++ x :: after) bound = some x ↔
      key x ≤ bound ∧ ∀ y ∈ after, bound < key y := by
  have hreverse : (before ++ x :: after).reverse = after.reverse ++ x :: before.reverse := by simp
  rw [lastUpTo_eq_find? h, hreverse, List.find?_append]
  constructor
  · intro hfound
    have hnone : after.reverse.find? (key · ≤ bound) = none := by
      cases hcase : after.reverse.find? (key · ≤ bound) with
      | none => rfl
      | some y =>
        rw [hcase] at hfound
        cases hfound
        exact absurd (mem_reverse.mp (mem_of_find?_eq_some hcase)) hafter
    constructor
    · have hsome := List.find?_some (hnone ▸ hfound : _ = some x)
      simpa using hsome
    intro y hy
    have := List.find?_eq_none.mp hnone y (mem_reverse.mpr hy)
    simpa using this
  · intro hbounds
    have hnone : after.reverse.find? (key · ≤ bound) = none := by
      rw [List.find?_eq_none]
      intro y hy
      have := hbounds.2 y (mem_reverse.mp hy)
      simpa using this
    rw [hnone, Option.none_or]
    exact List.find?_cons_of_pos (by simpa using hbounds.1)

end CrashMonitor.StableSort
