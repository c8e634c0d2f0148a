import CrashMonitor.Lib.Interleave

/-!
# Traces of one program

A program run alone makes a sequence of calls, each with the answer it got.
`Trace` is the set of its complete runs; every answer of a call is possible,
so a statement about all traces is one about every environment.

`From h p Q` is the forward rule system for such statements: started with
the history `h`, every complete run of `p` ends with a history and a value
in `Q`. The history is the only state.
-/

namespace CrashMonitor.Interleave

/-- A call and its answer. -/
structure Event (S : Sig) where
  op : S.Op
  answer : S.Res op

namespace Prog

variable {S : Sig} {α β : Type}

inductive Trace : Prog S α → List (Event S) → α → Prop where
  | ret (a : α) : Trace (.ret a) [] a
  | call {o k r t a} (h : Trace (k r) t a) : Trace (.call o k) (⟨o, r⟩ :: t) a

def From (h : List (Event S)) : Prog S α → (List (Event S) → α → Prop) → Prop
  | .ret a, Q => Q h a
  | .call o k, Q => ∀ r, From (h ++ [⟨o, r⟩]) (k r) Q

variable {h : List (Event S)} {p : Prog S α} {Q Q' : List (Event S) → α → Prop}

/-- What `From` establishes holds of every trace. -/
theorem From.trace (hp : From h p Q) {t a} (ht : p.Trace t a) : Q (h ++ t) a := by
  induction ht generalizing h with
  | ret a => rw [List.append_nil]; exact hp
  | @call o k r t a _ ih =>
    have := ih (hp r)
    rwa [List.append_assoc] at this

theorem From.mono (hp : From h p Q) (himp : ∀ t a, Q t a → Q' t a) : From h p Q' := by
  induction p generalizing h with
  | ret a => exact himp h a hp
  | call o k ih => exact fun r => ih r (hp r)

/-- Sequencing through a stated midpoint. -/
theorem From.bind {f} {R : List (Event S) → β → Prop}
    (hp : From h p Q) (hf : ∀ t a, Q t a → From t (f a) R) : From h (p.bind f) R := by
  induction p generalizing h with
  | ret a => exact hf h a hp
  | call o k ih => exact fun r => ih r (hp r)

theorem From.ite {c} {inst : Decidable c} {q}
    (hp : c → From h p Q) (hq : ¬ c → From h q Q) : From h (if c then p else q) Q := by
  by_cases hc : c
  · rw [if_pos hc]
    exact hp hc
  · rw [if_neg hc]
    exact hq hc

end Prog

end CrashMonitor.Interleave
