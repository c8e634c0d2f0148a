import Mathlib.Logic.Relation
import Mathlib.Logic.Function.Basic

/-!
# Interleaved programs and a logic for them

A `Prog` is a sequence of atomic calls whose continuation depends on the
answers. Run alone against a handler it is a state transformer (`exec`);
run together with others it is a thread of a `Config`, and one step of a
configuration is one atomic call of one thread.

The logic is a frame-preserving one. Every thread has a private resource
`R`; a global invariant `Inv s ρ` relates the shared state to the
resources of ALL threads. A call is allowed when, whatever the other
threads hold, the caller can pay for it by changing its own resource only
(`Update`). `Safe` lifts this to programs, and `Reach.inv` is the one
induction over runs: from safe threads and an invariant that holds at the
start, the invariant holds in every reachable configuration.
-/

namespace CrashMonitor.Interleave

open Function

/-- Atomic calls and the type of their answers. -/
structure Sig where
  Op : Type
  Res : Op → Type

/-- Programs over a signature. -/
inductive Prog (S : Sig) (α : Type) where
  | ret (a : α) : Prog S α
  | call (o : S.Op) (k : S.Res o → Prog S α) : Prog S α

variable {S : Sig} {α β σ : Type}

namespace Prog

def bind : Prog S α → (α → Prog S β) → Prog S β
  | ret a, f => f a
  | call o k, f => call o fun r => (k r).bind f

instance : Monad (Prog S) where
  pure := ret
  bind := bind

/-- A single call. -/
def op (o : S.Op) : Prog S (S.Res o) := call o ret

@[simp] theorem bind_eq (p : Prog S α) (f : α → Prog S β) : p >>= f = p.bind f := rfl

@[simp] theorem pure_eq (a : α) : (pure a : Prog S α) = ret a := rfl

@[simp] theorem ret_bind (a : α) (f : α → Prog S β) : (ret a).bind f = f a :=
  rfl

@[simp] theorem op_bind (o : S.Op) (f : S.Res o → Prog S β) : (op o).bind f = call o f := rfl

/-! ## One program alone -/

/-- Run a program against a handler. -/
def exec (handle : (o : S.Op) → σ → S.Res o × σ) : Prog S α → σ → α × σ
  | ret a, s => (a, s)
  | call o k, s => exec handle (k (handle o s).1) (handle o s).2

variable (handle : (o : S.Op) → σ → S.Res o × σ)

@[simp] theorem exec_ret (a : α) (s : σ) : exec handle (ret a) s = (a, s) := rfl

@[simp] theorem exec_call (o : S.Op) (k : S.Res o → Prog S α) (s : σ) :
    exec handle (call o k) s = exec handle (k (handle o s).1) (handle o s).2 := rfl

@[simp] theorem exec_bind (p : Prog S α) (f : α → Prog S β) (s : σ) :
    exec handle (p.bind f) s = exec handle (f (exec handle p s).1) (exec handle p s).2 := by
  induction p generalizing s with
  | ret a => rfl
  | call o k ih => exact ih _ _

end Prog

/-! ## Many programs at once -/

/-- What one call may answer and do to the shared state. -/
abbrev Steps (S : Sig) (σ : Type) := (o : S.Op) → σ → S.Res o → σ → Prop

/-- Shared state and threads; a thread without a program is idle. -/
structure Config (S : Sig) (σ ι α : Type) where
  shared : σ
  threads : ι → Option (Prog S α)

/-- The rules of a system: its calls, the programs a thread may start, and
what a crash of some threads does to the shared state. -/
structure System (S : Sig) (σ ι α : Type) where
  step : Steps S σ
  start : Prog S α → Prop
  crash : (ι → Prop) → σ → σ → Prop

variable {ι R : Type} [DecidableEq ι]

/-- One step of a configuration. -/
inductive System.Step (sys : System S σ ι α) : Config S σ ι α → Config S σ ι α → Prop where
  | start {s ts} (i : ι) (p : Prog S α) (hidle : ts i = none) (hp : sys.start p) :
      Step sys ⟨s, ts⟩ ⟨s, update ts i (some p)⟩
  | call {s s' ts} (i : ι) (o : S.Op) (k : S.Res o → Prog S α) (r : S.Res o)
      (hi : ts i = some (.call o k)) (hstep : sys.step o s r s') :
      Step sys ⟨s, ts⟩ ⟨s', update ts i (some (k r))⟩
  | finish {s ts} (i : ι) (a : α) (hi : ts i = some (.ret a)) :
      Step sys ⟨s, ts⟩ ⟨s, update ts i none⟩
  | crash {s s' ts ts'} (dead : ι → Prop) (hcrash : sys.crash dead s s')
      (hdead : ∀ i, dead i → ts' i = none) (halive : ∀ i, ¬ dead i → ts' i = ts i) :
      Step sys ⟨s, ts⟩ ⟨s', ts'⟩

/-- Configurations reachable from a shared state with every thread idle. -/
def System.Reach (sys : System S σ ι α) (s₀ : σ) : Config S σ ι α → Prop :=
  Relation.ReflTransGen sys.Step ⟨s₀, fun _ => none⟩

/-! ## The logic -/

section Logic

variable (step : Steps S σ) (Inv : σ → (ι → R) → Prop)

/-- A thread that holds `r` may make the call `o`: whatever the answer, it
can restore the invariant by changing its own resource, and then has
`post`. -/
def Update (r : R) (o : S.Op) (post : S.Res o → R → Prop) : Prop :=
  ∀ s ρ i, ρ i = r → Inv s ρ → ∀ res s', step o s res s' →
    ∃ r', Inv s' (update ρ i r') ∧ post res r'

/-- Every call of the program is allowed, and it ends with `post`. -/
def Safe : R → Prog S α → (α → R → Prop) → Prop
  | r, .ret a, post => post a r
  | r, .call o k, post => Update step Inv r o fun res r' => Safe r' (k res) post

variable {step Inv}

section

variable {r : R} {p : Prog S α} {f : α → Prog S β}

theorem Update.mono {o post post'}
    (h : Update step Inv r o post) (hp : ∀ res r', post res r' → post' res r') :
    Update step Inv r o post' := by
  intro s ρ i hi hinv res s' hstep
  obtain ⟨r', hinv', hpost⟩ := h s ρ i hi hinv res s' hstep
  exact ⟨r', hinv', hp res r' hpost⟩

theorem Safe.mono {post post'} (h : Safe step Inv r p post) (hp : ∀ a r', post a r' → post' a r') :
    Safe step Inv r p post' := by
  induction p generalizing r with
  | ret a => exact hp a r h
  | call o k ih => exact .mono h fun res r' hk => ih res hk

/-- Sequencing. -/
theorem Safe.bind {post} (h : Safe step Inv r p fun a r' => Safe step Inv r' (f a) post) :
    Safe step Inv r (p.bind f) post := by
  induction p generalizing r with
  | ret a => exact h
  | call o k ih => exact Update.mono h fun res r' hk => ih res hk

/-- Sequencing through a stated midpoint. -/
theorem Safe.seq {mid post} (h : Safe step Inv r p mid)
    (hf : ∀ a r', mid a r' → Safe step Inv r' (f a) post) : Safe step Inv r (p.bind f) post :=
  .bind (h.mono hf)

/-- A call with a known allowance, followed by the rest of the program. -/
theorem Safe.call {o k mid} {post : α → R → Prop} (h : Update step Inv r o mid)
    (hk : ∀ res r', mid res r' → Safe step Inv r' (k res) post) :
    Safe step Inv r (.call o k) post := h.mono hk

end

end Logic

/-! ## Every run -/

/-- What a thread owes: an idle one holds nothing, a running one is safe and
ends holding nothing. -/
def Owes (step : Steps S σ) (Inv : σ → (ι → R) → Prop) (emp : R) (r : R) : Option (Prog S α) → Prop
  | none => r = emp
  | some p => Safe step Inv r p fun _ r' => r' = emp

variable {sys : System S σ ι α} {Inv : σ → (ι → R) → Prop} {emp : R}

theorem Owes.update {step ρ ts} (h : ∀ j, Owes step Inv emp (ρ j) (ts j)) {i r}
    {t : Option (Prog S α)} (ht : Owes step Inv emp r t) (j : ι) :
    Owes step Inv emp (update ρ i r j) (update ts i t j) := by
  by_cases hj : j = i
  · subst hj
    rw [update_self, update_self]
    exact ht
  · rw [update_of_ne hj, update_of_ne hj]
    exact h j

/-- One step keeps the invariant and every thread's debt. -/
theorem System.Step.inv {c c'} (h : sys.Step c c')
    (hstart : ∀ p, sys.start p → Safe sys.step Inv emp p fun _ r => r = emp)
    (hcrash : ∀ dead s s' ρ ρ', sys.crash dead s s' → Inv s ρ →
      (∀ i, dead i → ρ' i = emp) → (∀ i, ¬ dead i → ρ' i = ρ i) → Inv s' ρ')
    (hinv : ∃ ρ, Inv c.shared ρ ∧ ∀ i, Owes sys.step Inv emp (ρ i) (c.threads i)) :
    ∃ ρ, Inv c'.shared ρ ∧ ∀ i, Owes sys.step Inv emp (ρ i) (c'.threads i) := by
  obtain ⟨ρ, hI, howes⟩ := hinv
  cases h with
  | @start s ts i p hidle hp =>
    have hi : Owes sys.step Inv emp (ρ i) (ts i) := howes i
    rw [hidle] at hi
    have hnew : Owes sys.step Inv emp (ρ i) (some p) := (show ρ i = emp from hi) ▸ hstart p hp
    refine ⟨ρ, hI, fun j => ?_⟩
    have := Owes.update howes hnew (i := i) j
    rwa [update_eq_self] at this
  | @call s s' ts i o k r hi hstep =>
    have hsafe : Owes sys.step Inv emp (ρ i) (ts i) := howes i
    rw [hi] at hsafe
    obtain ⟨r', hI', hk⟩ := hsafe s ρ i rfl hI r s' hstep
    exact ⟨update ρ i r', hI', .update howes hk⟩
  | @finish s ts i a hi =>
    have hsafe : Owes sys.step Inv emp (ρ i) (ts i) := howes i
    rw [hi] at hsafe
    have hidle : Owes sys.step Inv emp (ρ i) (none : Option (Prog S α)) := hsafe
    refine ⟨ρ, hI, fun j => ?_⟩
    have := Owes.update howes hidle (i := i) j
    rwa [update_eq_self] at this
  | crash dead hc hdead halive =>
    classical
    refine ⟨fun i => if dead i then emp else ρ i, ?_, fun i => ?_⟩
    · refine hcrash dead _ _ ρ _ hc hI ?_ ?_
      · intro i hi
        exact if_pos hi
      · intro i hi
        exact if_neg hi
    · by_cases hi : dead i
      · simp only [hdead i hi, if_pos hi]
        exact rfl
      · simp only [halive i hi, if_neg hi]
        exact howes i

/-- **The invariant rule for runs.** -/
theorem System.Reach.inv {s₀ c} (h : sys.Reach s₀ c)
    (h₀ : Inv s₀ fun _ => emp)
    (hstart : ∀ p, sys.start p → Safe sys.step Inv emp p fun _ r => r = emp)
    (hcrash : ∀ dead s s' ρ ρ', sys.crash dead s s' → Inv s ρ →
      (∀ i, dead i → ρ' i = emp) → (∀ i, ¬ dead i → ρ' i = ρ i) → Inv s' ρ') :
    ∃ ρ, Inv c.shared ρ ∧ ∀ i, Owes sys.step Inv emp (ρ i) (c.threads i) := by
  induction h with
  | refl => exact ⟨fun _ => emp, h₀, fun _ => rfl⟩
  | tail _ hstep ih => exact hstep.inv hstart hcrash ih

end CrashMonitor.Interleave
