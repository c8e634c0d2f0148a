import Mathlib.Data.List.Chain
import Mathlib.Data.Fintype.Card
import Mathlib.Data.Set.Finite.List

/-!
# Cycles and greedy orders

`waits a b` reads "`a` has to come after `b`". A relation has a cycle when an
element waits, through others, for itself; `ClosedWalk` is the list form that
a search reports. A list is in `Greedy` order when every element is, among
those from it on, one that waits for none of them, and the least of those.
Such an order is determined by its elements (`Greedy.unique`), and it is
sorted by every measure that the preference and the relation respect
(`Greedy.sorted`).
-/

namespace CrashMonitor.Precedence

open List

variable {α : Type*} (waits : α → α → Prop)

/-! ## Cycles -/

/-- Some element waits for itself. -/
def HasCycle : Prop := ∃ a, Relation.TransGen waits a a

/-- A walk along the relation that ends where it starts. -/
def ClosedWalk (walk : List α) : Prop := ∃ a inner, walk = a :: inner ++ [a] ∧ walk.IsChain waits

variable {waits}

theorem ClosedWalk.hasCycle {walk} (h : ClosedWalk waits walk) : HasCycle waits := by
  obtain ⟨a, inner, rfl, hchain⟩ := h
  refine ⟨a, ?_⟩
  -- the first step leaves `a`, the others lead back to it
  cases inner with
  | nil => exact .single (by simpa using hchain)
  | cons b inner =>
    have hstep : waits a b := by
      simp only [cons_append, isChain_cons_cons] at hchain
      exact hchain.1
    have hrest : Relation.ReflTransGen waits b a := by
      refine relationReflTransGen_of_exists_isChain_cons (inner ++ [a]) ?_ ?_
      · simp only [cons_append, isChain_cons_cons] at hchain
        exact hchain.2
      · simp
    exact .head' hstep hrest

/-- Where every element is accessible, nothing waits for itself. -/
theorem not_hasCycle_of_acc (h : ∀ a b, waits a b → Acc (fun b a => waits a b) a) :
    ¬ HasCycle waits := by
  rintro ⟨a, hcycle⟩
  have hacc : Acc (fun b a => waits a b) a := by
    obtain ⟨b, hab, -⟩ := Relation.TransGen.head'_iff.mp hcycle
    exact h a b hab
  have hswap : Relation.TransGen (fun b a => waits a b) a a := Relation.transGen_swap.mpr hcycle
  -- an accessible element does not come before itself
  have hirrefl : ∀ x, Acc (Relation.TransGen fun b a => waits a b) x →
      ¬ Relation.TransGen (fun b a => waits a b) x x := by
    intro x hx
    induction hx with
    | intro x _ ih =>
      intro hxx
      exact ih x hxx hxx
  exact hirrefl a hacc.transGen hswap

theorem not_hasCycle_of_position (position : α → Nat)
    (h : ∀ a b, waits a b → position b < position a) : ¬ HasCycle waits := by
  have hacc : WellFounded fun b a => waits a b :=
    Subrelation.wf (fun {b a} hba => h a b hba) (measure position).wf
  exact not_hasCycle_of_acc fun a _ _ => hacc.apply a

theorem HasCycle.map {β : Type*} {waits'} (f : α → β)
    (h : ∀ a b, waits a b → waits' (f a) (f b)) (hcycle : HasCycle waits) : HasCycle waits' := by
  obtain ⟨a, ha⟩ := hcycle
  exact ⟨f a, .lift f h a a ha⟩

/-- Among finitely many elements without a cycle, some one waits for none. -/
theorem exists_ready {l} (hne : l ≠ [])
    (h : ¬ HasCycle fun a b => a ∈ l ∧ b ∈ l ∧ waits a b) : ∃ a ∈ l, ∀ b ∈ l, ¬ waits a b := by
  let before (b a : { x // x ∈ l }) : Prop :=
    Relation.TransGen (fun a b => a ∈ l ∧ b ∈ l ∧ waits a b) a.1 b.1
  have : Finite { x // x ∈ l } := finite_toSet l
  have : Std.Irrefl before := ⟨fun a ha => h ⟨a.1, ha⟩⟩
  have hwf : WellFounded before := Finite.wellFounded_of_trans_of_irrefl before
  obtain ⟨first, hfirst⟩ := exists_mem_of_ne_nil l hne
  obtain ⟨a, -, hleast⟩ := hwf.has_min .univ ⟨⟨first, hfirst⟩, trivial⟩
  refine ⟨a.1, a.2, ?_⟩
  intro b hb hwaits
  exact hleast ⟨b, hb⟩ trivial (.single ⟨a.2, hb, hwaits⟩)

/-! ## Greedy orders -/

variable (waits) in
/-- An element that waits for none of a list. -/
def Ready (remaining : List α) (a : α) : Prop := ∀ b ∈ remaining, ¬ waits a b

variable (waits) in
/-- Every element is a least ready one of those from it on. -/
def Greedy (le : α → α → Prop) : List α → Prop
  | [] => True
  | a :: rest =>
    Ready waits (a :: rest) a ∧ (∀ b ∈ rest, Ready waits (a :: rest) b → le a b) ∧ Greedy le rest

theorem Ready.of_perm {l l' a} (h : Ready waits l a) (hperm : l.Perm l') :
    Ready waits l' a := fun b hb => h b (hperm.mem_iff.mpr hb)

section

variable {le : α → α → Prop}

theorem Greedy.of_append {before after} (h : Greedy waits le (before ++ after)) :
    Greedy waits le after := by
  induction before with
  | nil => exact h
  | cons a before ih => exact ih h.2.2

/-- The elements of a greedy order determine it. -/
theorem Greedy.unique {l l'} (h : Greedy waits le l) (h' : Greedy waits le l')
    (hperm : l.Perm l') (hanti : ∀ a ∈ l, ∀ b ∈ l, le a b → le b a → a = b) : l = l' := by
  induction l generalizing l' with
  | nil => exact hperm.nil_eq
  | cons a rest ih =>
    cases l' with
    | nil => exact absurd hperm.length_eq (by simp)
    | cons b rest' =>
      obtain ⟨hready, hleast, hrest⟩ := h
      obtain ⟨hready', hleast', hrest'⟩ := h'
      have hb : b ∈ a :: rest := hperm.mem_iff.mpr mem_cons_self
      have ha : a ∈ b :: rest' := hperm.mem_iff.mp mem_cons_self
      -- each head is ready for the other list, so each is least
      have hab : a = b := by
        by_contra hne
        have hb' : b ∈ rest := (mem_cons.mp hb).resolve_left (Ne.symm hne)
        have ha' : a ∈ rest' := (mem_cons.mp ha).resolve_left hne
        exact hne (hanti a mem_cons_self b hb (hleast b hb' (hready'.of_perm hperm.symm))
          (hleast' a ha' (hready.of_perm hperm)))
      subst hab
      have htail := ih hrest hrest' (perm_cons a |>.mp hperm) fun x hx y hy =>
        hanti x (mem_cons_of_mem a hx) y (mem_cons_of_mem a hy)
      rw [htail]

/-- A measure that the preference respects, and that no element exceeds by
one it waits for, is sorted. -/
theorem Greedy.sorted {l} (h : Greedy waits le l) (measure : α → Nat)
    (hle : ∀ a ∈ l, ∀ b ∈ l, le a b → measure a ≤ measure b)
    (hwaits : ∀ a ∈ l, ∀ b ∈ l, waits a b → measure b ≤ measure a) :
    l.Pairwise fun a b => measure a ≤ measure b := by
  induction l with
  | nil => exact .nil
  | cons a rest ih =>
    obtain ⟨-, hleast, hrest⟩ := h
    have hsorted := ih hrest
      (fun x hx y hy => hle x (mem_cons_of_mem a hx) y (mem_cons_of_mem a hy))
      (fun x hx y hy => hwaits x (mem_cons_of_mem a hx) y (mem_cons_of_mem a hy))
    rw [pairwise_cons]
    refine ⟨?_, hsorted⟩
    cases rest with
    | nil => simp
    | cons b rest =>
      -- the next element either waited for this one or was ready beside it
      have hnext : measure a ≤ measure b := by
        by_cases hba : waits b a
        · exact hwaits b (by simp) a (by simp) hba
        · refine hle a (by simp) b (by simp) (hleast b mem_cons_self ?_)
          exact forall_mem_cons.mpr ⟨hba, hrest.1⟩
      exact forall_mem_cons.mpr ⟨hnext, fun c hc => hnext.trans (rel_of_pairwise_cons hsorted hc)⟩

/-- An element of a greedy order comes after everything it waits for. -/
theorem Greedy.not_waits {before later a}
    (h : Greedy waits le (before ++ a :: later)) : Ready waits (a :: later) a := h.of_append.1

/-- An element of a greedy order is least among those that were ready with it. -/
theorem Greedy.least {before later a b} (h : Greedy waits le (before ++ a :: later))
    (hb : b ∈ later) (hready : Ready waits (a :: later) b) : le a b := h.of_append.2.1 b hb hready

end

end CrashMonitor.Precedence
