import CrashMonitor.Lib.Expand

/-!
# Runs that remember what happened

A step relation can be made to keep the run it has taken: `recorded` pairs
the shared state with the list of moments so far, each with the state before
and after. `witnessed` keeps the moments alone.
-/

namespace CrashMonitor.Interleave

/-- One call, its answer, and the states around it. -/
structure Moment (S : Sig) (σ : Type) where
  before : σ
  op : S.Op
  answer : S.Res op
  after : σ

/-- What has happened, oldest first. -/
abbrev History (S : Sig) (σ : Type) := List (Moment S σ)

variable {S : Sig} {σ : Type}

/-- The same steps, kept in a history. -/
def recorded (step : Steps S σ) : Steps S (History S σ × σ) :=
  fun o s r s' => step o s.2 r s'.2 ∧ s'.1 = s.1 ++ [⟨s.2, o, r, s'.2⟩]

/-- The steps of a program with anything happening between its calls: the
states of two moments need not fit together. -/
def witnessed (step : Steps S σ) : Steps S (History S σ) :=
  fun o t r t' => ∃ s s', step o s r s' ∧ t' = t ++ [⟨s, o, r, s'⟩]

variable {step : Steps S σ} {α : Type}

/-- A program alone is one with nothing happening between its calls. -/
theorem Run.witnessed {p : Prog S α} {s s' : History S σ × σ} {a}
    (h : Run (recorded step) p s a s') : Run (witnessed step) p s.1 a s'.1 := by
  induction h with
  | ret a s => exact .ret a s.1
  | @call o k r s s' s'' a hstep _ ih => exact .call ⟨s.2, s'.2, hstep.1, hstep.2⟩ ih

/-- A handler that keeps the history. -/
def recording (handle : (o : S.Op) → σ → S.Res o × σ) (o : S.Op) (s : History S σ × σ) :
    S.Res o × History S σ × σ :=
  ((handle o s.2).1, s.1 ++ [⟨s.2, o, (handle o s.2).1, (handle o s.2).2⟩], (handle o s.2).2)

theorem Run.of_recording {handle : (o : S.Op) → σ → S.Res o × σ}
    (h : ∀ o s, step o s (handle o s).1 (handle o s).2) (p : Prog S α) (s : History S σ × σ) :
    Run (recorded step) p s (p.exec (recording handle) s).1 (p.exec (recording handle) s).2 :=
  .of_exec (fun o s => ⟨h o s.2, rfl⟩) p s

end CrashMonitor.Interleave
