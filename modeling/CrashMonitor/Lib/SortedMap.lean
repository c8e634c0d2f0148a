import Mathlib.Order.Lattice
import Mathlib.Data.List.Basic

/-!
# Maps kept in key order

A map as the list of its entries in strictly increasing key order. The order
is a field, so two maps with the same keys list them in the same way: a
comparison of key lists is a comparison of key sets.
-/

namespace CrashMonitor.Lib

open List

structure SortedMap (κ ν : Type) [LinearOrder κ] where
  entries : List (κ × ν)
  sorted : entries.Pairwise fun a b => a.1 < b.1

namespace SortedMap

variable {κ ν : Type} [LinearOrder κ]

def empty : SortedMap κ ν := ⟨[], List.Pairwise.nil⟩

variable (m : SortedMap κ ν)

section

variable (k j : κ) (v : ν) (l : List (κ × ν))

def keys : List κ := m.entries.map Prod.fst

/-! ## Insertion -/

/-- Insertion into an ordered list of entries; an entry with the same key is
replaced. -/
def place (k : κ) (v : ν) : List (κ × ν) → List (κ × ν)
  | [] => [(k, v)]
  | e :: rest =>
    if k < e.1 then (k, v) :: e :: rest
    else if k = e.1 then (k, v) :: rest
    else e :: place k v rest

theorem mem_place {k v e} {l : List (κ × ν)} (h : e ∈ place k v l) : e = (k, v) ∨ e ∈ l := by
  induction l with
  | nil => exact .inl (mem_singleton.mp h)
  | cons a rest ih =>
    unfold place at h
    split at h
    · rcases mem_cons.mp h with rfl | h
      · exact .inl rfl
      · exact .inr h
    split at h
    · rcases mem_cons.mp h with rfl | h
      · exact .inl rfl
      · exact .inr (mem_cons_of_mem a h)
    · rcases mem_cons.mp h with rfl | h
      · exact .inr mem_cons_self
      · exact (ih h).imp_right (mem_cons_of_mem a)

theorem place_sorted {l} (h : l.Pairwise fun a b => a.1 < b.1) :
    (place k v l).Pairwise fun a b => a.1 < b.1 := by
  induction l with
  | nil => exact pairwise_singleton _ _
  | cons a rest ih =>
    have ⟨hhead, htail⟩ := pairwise_cons.mp h
    unfold place
    by_cases hlt : k < a.1
    · rw [if_pos hlt]
      apply List.Pairwise.cons _ h
      exact forall_mem_cons.mpr ⟨hlt, fun b hb => hlt.trans (hhead b hb)⟩
    rw [if_neg hlt]
    by_cases heq : k = a.1
    · rw [if_pos heq]
      apply List.Pairwise.cons _ htail
      intro b hb
      exact heq ▸ hhead b hb
    · rw [if_neg heq]
      apply List.Pairwise.cons _ (ih htail)
      intro b hb
      rcases mem_place hb with rfl | hb
      · exact lt_of_le_of_ne (not_lt.mp hlt) (.symm heq)
      · exact hhead b hb

theorem mem_keys_place :
    j ∈ (place k v l).map Prod.fst ↔ j = k ∨ j ∈ l.map Prod.fst := by
  induction l with
  | nil => simp [place]
  | cons a rest ih =>
    unfold place
    split
    · simp
    split
    · next heq => simp [heq]
    · simp only [map_cons, mem_cons, ih]
      tauto

def insert : SortedMap κ ν := ⟨place k v m.entries, place_sorted k v m.sorted⟩

@[simp] theorem mem_keys_insert : j ∈ (m.insert k v).keys ↔ j = k ∨ j ∈ m.keys :=
  mem_keys_place ..

theorem mem_insert_self : (k, v) ∈ (m.insert k v).entries := by
  show (k, v) ∈ place k v m.entries
  induction m.entries with
  | nil => exact mem_singleton.mpr rfl
  | cons a rest ih =>
    unfold place
    split
    · exact mem_cons_self
    split
    · exact mem_cons_self
    · exact mem_cons_of_mem a ih

theorem mem_insert_of_ne {m : SortedMap κ ν} {k v e}
    (he : e ∈ m.entries) (hne : e.1 ≠ k) : e ∈ (m.insert k v).entries := by
  show e ∈ place k v m.entries
  revert he
  induction m.entries with
  | nil => simp
  | cons a rest ih =>
    intro he
    unfold place
    split
    · exact mem_cons_of_mem _ he
    rcases mem_cons.mp he with rfl | he
    · rw [if_neg (Ne.symm hne)]
      exact mem_cons_self
    split
    · exact mem_cons_of_mem _ he
    · exact mem_cons_of_mem a (ih he)

/-! ## Removal -/

def erase : SortedMap κ ν := ⟨m.entries.filter fun e => e.1 ≠ k, m.sorted.filter _⟩

@[simp] theorem mem_keys_erase : j ∈ (m.erase k).keys ↔ j ≠ k ∧ j ∈ m.keys := by
  unfold erase keys
  simp only [mem_map, mem_filter, decide_eq_true_eq, Prod.exists, exists_and_right, exists_eq_right]
  tauto

/-! ## Maps from lists -/

/-- Insertion of every entry in turn. -/
def ofList : SortedMap κ ν := l.foldl (fun m e => m.insert e.1 e.2) empty

end

/-! ## Comparing keys -/

theorem keys_sorted : m.keys.Pairwise (· < ·) := pairwise_map.mpr m.sorted

theorem keys_nodup : m.keys.Nodup := m.keys_sorted.imp ne_of_lt

end SortedMap

end CrashMonitor.Lib
