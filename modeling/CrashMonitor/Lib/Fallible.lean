import Mathlib.Data.List.Forall2
import Mathlib.Data.List.GetD

/-!
# Runs of fallible stateful computations

A computation in `StateT σ (Except ε)` either returns or fails. `Runs E p
post` says that from every state it returns a value with `post` or fails
with an error of `E`; with `E` empty it is total correctness. The rules
below follow the shape of the program: return, bind, case split, and the two
list loops.
-/

namespace CrashMonitor.Fallible

open List

/-! ## Loops that differ only where it does not matter -/

section Congr

variable {M : Type → Type} [Monad M] {α β : Type}

section

variable {f : α → Option β} {R : β → α → Prop} {l : List α}

theorem foldlM_congr {f g : β → α → M β} {l : List α} (h : ∀ b, ∀ x ∈ l, f b x = g b x) (b : β) :
    l.foldlM f b = l.foldlM g b := by
  induction l generalizing b with
  | nil => rfl
  | cons x xs ih =>
    rw [foldlM_cons, foldlM_cons, h b x (by simp)]
    exact bind_congr fun b' => ih (fun b y hy => h b y (by simp [hy])) b'

theorem mapM_congr [LawfulMonad M] {f g : α → M β} {l : List α}
    (h : ∀ x ∈ l, f x = g x) : l.mapM f = l.mapM g := by
  induction l with
  | nil => rw [mapM_nil, mapM_nil]
  | cons x xs ih => rw [mapM_cons, mapM_cons, h x (by simp), ih fun y hy => h y (by simp [hy])]

/-- A loop over positions is a loop over the elements there. -/
theorem mapM_range_getElem [LawfulMonad M] {l : List α} {f}
    {g : α → M β} (h : ∀ i (hi : i < l.length), f i = g l[i]) :
    (List.range l.length).mapM f = l.mapM g := by
  induction l generalizing f with
  | nil => simp
  | cons x xs ih =>
    rw [length_cons, range_succ_eq_map, mapM_cons, mapM_map, mapM_cons, h 0 (Nat.succ_pos _),
      ih (f := f ∘ .succ) fun i hi => h (i + 1) (Nat.succ_lt_succ hi)]
    rfl

theorem filterMap_range_getElem {f}
    {g : α → Option β} (h : ∀ i (hi : i < l.length), f i = g l[i]) :
    (List.range l.length).filterMap f = l.filterMap g := by
  induction l generalizing f with
  | nil => rfl
  | cons x xs ih =>
    have hhead : f 0 = g x := h 0 (Nat.succ_pos _)
    rw [length_cons, range_succ_eq_map, filterMap_cons, filterMap_map, filterMap_cons, hhead,
      ih (f := f ∘ .succ) fun i hi => h (i + 1) (Nat.succ_lt_succ hi)]

/-- A loop in `Option` succeeds element by element. -/
theorem mapM_eq_some_iff {l'} :
    l.mapM f = some l' ↔ List.Forall₂ (fun x y => f x = some y) l l' := by
  induction l generalizing l' with
  | nil =>
    cases l' with
    | nil => simp
    | cons y ys => simp
  | cons x xs ih =>
    cases l' with
    | nil => simp [Option.bind_eq_some_iff]
    | cons y ys => simp [Option.bind_eq_some_iff, ih, forall₂_cons]

/-- If every value found is as wanted, all are found exactly if none is
missing. -/
theorem forall₂_mapM_iff (h : ∀ x ∈ l, ∀ y, f x = some y → R y x) :
    (∃ l', l.mapM f = some l' ∧ List.Forall₂ R l' l) ↔ ∀ x ∈ l, (f x).isSome := by
  induction l with
  | nil => simp
  | cons x xs ih =>
    rw [forall_mem_cons] at h ⊢
    rw [← ih h.2]
    simp only [mapM_eq_some_iff, Option.isSome_iff_exists]
    constructor
    · rintro ⟨l', hl', hR⟩
      obtain ⟨y, ys, hy, hys, rfl⟩ := forall₂_cons_left_iff.mp hl'
      exact ⟨⟨y, hy⟩, ys, hys, (forall₂_cons.mp hR).2⟩
    · rintro ⟨⟨y, hy⟩, ys, hys, hR⟩
      exact ⟨y :: ys, .cons hy hys, .cons (h.1 y hy) hR⟩

theorem forall₂_filterMap_iff (h : ∀ x ∈ l, ∀ y, f x = some y → R y x) :
    List.Forall₂ R (l.filterMap f) l ↔ ∀ x ∈ l, (f x).isSome := by
  constructor
  · intro hR
    exact filterMap_length_eq_length.mp hR.length_eq
  intro hsome
  induction l with
  | nil => exact .nil
  | cons x xs ih =>
    rw [forall_mem_cons] at h hsome
    obtain ⟨y, hy⟩ := Option.isSome_iff_exists.mp hsome.1
    rw [filterMap_cons_some hy]
    exact .cons (h.1 y hy) (ih h.2 hsome.2)

end

end Congr

/-! ## Runs -/

variable {σ ε α β : Type} {E : ε → Prop}

section

variable {p : StateT σ (Except ε) α} {post : α → Prop} {f : α → StateT σ (Except ε) β}

/-- From every state the computation returns with `post`, or fails in `E`. -/
def Runs (E : ε → Prop) (p : StateT σ (Except ε) α) (post : α → Prop) : Prop :=
  ∀ s, (∃ a s', p s = .ok (a, s') ∧ post a) ∨ (∃ e, p s = .error e ∧ E e)

theorem Runs.pure {a} (h : post a) :
    Runs E (.pure a : StateT σ (Except ε) α) post := fun s => .inl ⟨a, s, rfl, h⟩

theorem Runs.mono {post'} (h : Runs E p post) (himp : ∀ a, post a → post' a) : Runs E p post' := by
  intro s
  rcases h s with ⟨a, s', hp, ha⟩ | hfail
  · exact .inl ⟨a, s', hp, himp a ha⟩
  · exact .inr hfail

theorem Runs.weaken {E'} {p : StateT σ (Except ε) α}
    {post} (h : Runs E p post) (himp : ∀ e, E e → E' e) : Runs E' p post := by
  intro s
  rcases h s with hret | ⟨e, hp, he⟩
  · exact .inl hret
  · exact .inr ⟨e, hp, himp e he⟩

/-- A lifted result of `Except`. -/
theorem Runs.lift {r : Except ε α} {post}
    (hok : ∀ a, r = .ok a → post a) (herr : ∀ e, r = .error e → E e) :
    Runs E (liftM r : StateT σ (Except ε) α) post := by
  intro s
  cases r with
  | ok a => exact .inl ⟨a, s, rfl, hok a rfl⟩
  | error e => exact .inr ⟨e, rfl, herr e rfl⟩

theorem Runs.bind {mid post} (hp : Runs E p mid)
    (hf : ∀ a, mid a → Runs E (f a) post) : Runs E (p >>= f) post := by
  intro s
  have hbind : (p >>= f) s = (p s).bind fun r => f r.1 r.2 := rfl
  rcases hp s with ⟨a, s', hps, ha⟩ | ⟨e, hps, he⟩
  · rcases hf a ha s' with ⟨b, s'', hfs, hb⟩ | ⟨e, hfs, he⟩
    · exact .inl ⟨b, s'', by rw [hbind, hps]; exact hfs, hb⟩
    · exact .inr ⟨e, by rw [hbind, hps]; exact hfs, he⟩
  · exact .inr ⟨e, by rw [hbind, hps]; rfl, he⟩

theorem Runs.ite {c} {inst : Decidable c} {p q : StateT σ (Except ε) α} {post}
    (hp : c → Runs E p post) (hq : ¬c → Runs E q post) : Runs E (if c then p else q) post := by
  by_cases h : c
  · rw [if_pos h]
    exact hp h
  · rw [if_neg h]
    exact hq h

/-- The loop rule: `I done b` relates the accumulator to the elements already
processed, and a step may use where in the list it stands. -/
theorem Runs.foldlM {f : β → α → StateT σ (Except ε) β} {l b}
    (I : List α → β → Prop) (hinit : I [] b)
    (hstep : ∀ done x rest b, l = done ++ x :: rest → I done b → Runs E (f b x) (I (done ++ [x]))) :
    Runs E (l.foldlM f b) (I l) := by
  suffices h : ∀ todo done b, l = done ++ todo → I done b →
      Runs E (todo.foldlM f b) (I l) from h l [] b rfl hinit
  intro todo
  induction todo with
  | nil =>
    intro done b hl hI
    rw [append_nil] at hl
    subst hl
    exact .pure hI
  | cons x rest ih =>
    intro done b hl hI
    refine .bind (hstep done x rest b hl hI) fun b' hI' => ?_
    exact ih (done ++ [x]) b' (by simp [hl]) hI'

theorem Runs.mapM {P l} (h : ∀ x ∈ l, Runs E (f x) (P x)) :
    Runs E (l.mapM f) (List.Forall₂ P l) := by
  induction l with
  | nil => exact .pure .nil
  | cons x xs ih =>
    rw [mapM_cons]
    refine .bind (h x (by simp)) fun y hy => ?_
    refine .bind (ih fun z hz => h z (by simp [hz])) fun ys hys => ?_
    exact .pure (.cons hy hys)

/-- A loop that fills an array, by index. -/
theorem Runs.mapM_range {f : Nat → StateT σ (Except ε) β} {P : Nat → β → Prop}
    {n} (d : β) (h : ∀ i < n, Runs E (f i) (P i)) :
    Runs E ((List.range n).mapM f) fun ys => ∀ i < n, P i (ys.getD i d) := by
  refine (Runs.mapM fun i hi => h i (mem_range.mp hi)).mono ?_
  intro ys hys i hi
  have hlen := hys.length_eq
  rw [length_range] at hlen
  have hget := hys.get (i := i) (by simpa using hi) (hlen ▸ hi)
  rw [getD_eq_getElem _ _ (hlen ▸ hi)]
  simpa using hget

/-- The value of a run, with the final state forgotten. -/
theorem Runs.run'_eq (h : Runs E p post) (s : σ) :
    (∃ a, p.run' s = .ok a ∧ post a) ∨ (∃ e, p.run' s = .error e ∧ E e) := by
  have hrun : p.run' s = (p s).map Prod.fst := rfl
  rcases h s with ⟨a, s', hp, ha⟩ | ⟨e, hp, he⟩
  · exact .inl ⟨a, by rw [hrun, hp]; rfl, ha⟩
  · exact .inr ⟨e, by rw [hrun, hp]; rfl, he⟩

end

/-! ## Failures that keep the state

In `EStateM` a failed computation leaves the state it had reached. -/

section Kept

variable {ε σ α β : Type} {x : EStateM ε σ α} {f : α → EStateM ε σ β} {s s' : σ}

theorem bind_of_ok {a} (h : x s = .ok a s') : (x >>= f) s = f a s' := by
  show EStateM.bind x f s = f a s'
  rw [EStateM.bind, h]

theorem bind_of_error {e} (h : x s = .error e s') : (x >>= f) s = .error e s' := by
  show EStateM.bind x f s = .error e s'
  rw [EStateM.bind, h]

end Kept

end CrashMonitor.Fallible
