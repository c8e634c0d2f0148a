import CrashMonitor.Lib.Alone

/-!
# Calls that are programs themselves

A call of one signature can stand for a program over a finer one. `expand`
puts those programs in the place of the calls; a run of the expansion is a run
of the program whose steps are the runs behind its calls (`run_expand`), so
that nothing has to be proved twice. `Stops` are the runs that end in the
middle, between any two calls of the finer signature.
-/

namespace CrashMonitor.Interleave

variable {S T : Sig} {σ α β : Type}

/-! ## Runs in sequence -/

namespace Run

variable {step : Steps S σ}

theorem of_bind {p} {f : α → Prog S β} {s s'' b}
    (h : Run step (p.bind f) s b s'') : ∃ a s', Run step p s a s' ∧ Run step (f a) s' b s'' := by
  induction p generalizing s with
  | ret a => exact ⟨a, s, .ret a s, h⟩
  | call o k ih =>
    cases h with
    | call hstep hrest =>
      obtain ⟨a, s', hk, hf⟩ := ih _ hrest
      exact ⟨a, s', .call hstep hk, hf⟩

theorem mono {step' p s s'} {a : α}
    (himp : ∀ o s r s', step o s r s' → step' o s r s') (h : Run step p s a s') :
    Run step' p s a s' := by
  induction h with
  | ret a s => exact .ret a s
  | call hstep _ ih => exact .call (himp _ _ _ _ hstep) ih

/-- The run against a handler that answers as the steps allow. -/
theorem of_exec {handle}
    (h : ∀ o s, step o s (handle o s).1 (handle o s).2) (p : Prog S α) (s : σ) :
    Run step p s (p.exec handle s).1 (p.exec handle s).2 := by
  induction p generalizing s with
  | ret a => exact .ret a s
  | call o k ih => exact .call (h o s) (ih _ _)

end Run

/-! ## Expansion -/

namespace Prog

/-- Every call replaced by its program. -/
def expand (f : (o : S.Op) → Prog T (S.Res o)) : Prog S α → Prog T α
  | .ret a => .ret a
  | .call o k => (f o).bind fun r => (k r).expand f

end Prog

/-- The steps of a call are the runs of its program. -/
def expandedSteps (step : Steps T σ) (f : (o : S.Op) → Prog T (S.Res o)) : Steps S σ :=
  fun o s r s' => Run step (f o) s r s'

theorem run_expand {step} {f : (o : S.Op) → Prog T (S.Res o)}
    {p} {s s' : σ} {a : α} (h : Run step (p.expand f) s a s') :
    Run (expandedSteps step f) p s a s' := by
  induction p generalizing s with
  | ret a =>
    cases h
    exact .ret _ _
  | call o k ih =>
    obtain ⟨r, s₁, hcall, hrest⟩ := Run.of_bind h
    exact .call hcall (ih r hrest)

/-! ## Runs that stop -/

/-- The states a run can be left in: after any number of its calls. -/
inductive Stops (step : Steps S σ) : Prog S α → σ → σ → Prop where
  | here (p : Prog S α) (s : σ) : Stops step p s s
  | call {o k r s s' s''}
      (hstep : step o s r s') (h : Stops step (k r) s' s'') : Stops step (.call o k) s s''

namespace Stops

variable {step : Steps S σ} {p : Prog S α} {s s' : σ}

/-- A completed run stops at its end. -/
theorem of_run {a} (h : Run step p s a s') : Stops step p s s' := by
  induction h with
  | ret a s => exact .here _ _
  | call hstep _ ih => exact .call hstep ih

/-- What every step keeps holds wherever a run stops. -/
theorem keeps {K : σ → Prop} (hstep : ∀ o s r s', step o s r s' → K s → K s')
    (h : Stops step p s s') (hs : K s) : K s' := by
  induction h with
  | here p s => exact hs
  | call hcall _ ih => exact ih (hstep _ _ _ _ hcall hs)

end Stops

end CrashMonitor.Interleave
