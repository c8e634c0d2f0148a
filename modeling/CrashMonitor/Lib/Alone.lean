import CrashMonitor.Lib.Attempt

/-!
# One program alone on a shared state

The complete runs of a single program whose calls answer as the steps of the
state allow, and forward rule systems over them. `Ensures` speaks about every
result of a program; `Yields` about the successes of one that can fail, whose
failures need no proof; `Does` about both; `Reads` about one that changes
nothing; `Achieves` says that it cannot fail.
-/

namespace CrashMonitor.Interleave

open Attempt

variable {S : Sig} {σ α β : Type}

inductive Run (step : Steps S σ) : Prog S α → σ → α → σ → Prop where
  | ret (a : α) (s : σ) : Run step (.ret a) s a s
  | call {o k r s s' s'' a}
      (hstep : step o s r s') (h : Run step (k r) s' a s'') : Run step (.call o k) s a s''

/-- Every complete run from a state ends with a value and a state in `Q`. -/
def Ensures (step : Steps S σ) : σ → Prog S α → (α → σ → Prop) → Prop
  | s, .ret a, Q => Q a s
  | s, .call o k, Q => ∀ r s', step o s r s' → Ensures step s' (k r) Q

namespace Ensures

variable {step : Steps S σ} {s : σ} {p : Prog S α} {Q Q' : α → σ → Prop}

theorem run (hp : Ensures step s p Q) {a s'} (hrun : Run step p s a s') : Q a s' := by
  induction hrun with
  | ret a s => exact hp
  | call hstep _ ih => exact ih (hp _ _ hstep)

theorem mono (hp : Ensures step s p Q) (himp : ∀ a s', Q a s' → Q' a s') : Ensures step s p Q' := by
  induction p generalizing s with
  | ret a => exact himp a s hp
  | call o k ih => exact fun r s' hstep => ih r (hp r s' hstep)

theorem and (hp : Ensures step s p Q) (hp' : Ensures step s p Q') :
    Ensures step s p fun a s' => Q a s' ∧ Q' a s' := by
  induction p generalizing s with
  | ret a => exact ⟨hp, hp'⟩
  | call o k ih => exact fun r s' hstep => ih r (hp r s' hstep) (hp' r s' hstep)

theorem always_true (s : σ) (p : Prog S α) : Ensures step s p fun _ _ => True := by
  induction p generalizing s with
  | ret a => trivial
  | call o k ih => exact fun r s' _ => ih r s'

/-- Sequencing through a stated midpoint. -/
theorem seq {f} {R : β → σ → Prop} (hp : Ensures step s p Q)
    (hf : ∀ a s', Q a s' → Ensures step s' (f a) R) : Ensures step s (p.bind f) R := by
  induction p generalizing s with
  | ret a => exact hf a s hp
  | call o k ih => exact fun r s' hstep => ih r (hp r s' hstep)

/-- A condition on the state alone, through a part that may have failed. -/
theorem attempt {x} {f : α → Attempt S β} {K : σ → Prop}
    (hx : Ensures step s x.run fun _ s' => K s')
    (hf : ∀ a s', K s' → Ensures step s' (f a).run fun _ s'' => K s'') :
    Ensures step s (x >>= f).run fun _ s' => K s' := by
  apply hx.seq
  intro result s' hs
  cases result with
  | ok a => exact hf a s' hs
  | error e => exact hs

end Ensures

/-- Every success from a state ends in `Q`. -/
def Yields (step : Steps S σ) (s : σ) (x : Attempt S α) (Q : α → σ → Prop) : Prop :=
  Ensures step s x.run fun result s' => ∀ a, result = .ok a → Q a s'

namespace Yields

variable {step : Steps S σ} {s : σ} {x : Attempt S α} {Q Q' : α → σ → Prop}

theorem run (hx : Yields step s x Q) {a s'}
    (hrun : Run step x.run s (.ok a) s') : Q a s' := Ensures.run hx hrun a rfl

theorem mono (hx : Yields step s x Q) (himp : ∀ a s', Q a s' → Q' a s') : Yields step s x Q' :=
  Ensures.mono hx fun _ s' h a ha => himp a s' (h a ha)

theorem always_true (s : σ) (x : Attempt S α) : Yields step s x fun _ _ => True :=
  (Ensures.always_true s x.run).mono fun _ _ _ _ _ => trivial

theorem pure {a} (h : Q a s) : Yields step s (.pure a : Attempt S α) Q := by
  intro b hb
  cases hb
  exact h

theorem throw {e} : Yields step s (MonadExcept.throw e : Attempt S α) Q := by
  intro b hb
  cases hb

theorem done {r} (h : ∀ a, r = .ok a → Q a s) : Yields step s (.done r : Attempt S α) Q := h

theorem bind {f} {R : β → σ → Prop} (hx : Yields step s x Q)
    (hf : ∀ a s', Q a s' → Yields step s' (f a) R) : Yields step s (x >>= f) R := by
  apply Ensures.seq hx
  intro result s' h
  cases result with
  | ok a => exact hf a s' (h a rfl)
  | error e => exact fun b hb => by cases hb

/-- A part of which nothing is used. -/
theorem skip {f} {R : β → σ → Prop}
    (hf : ∀ a s', Yields step s' (f a) R) : Yields step s (x >>= f) R :=
  (always_true s x).bind fun a s' _ => hf a s'

theorem mapError {g} (hx : Yields step s x Q) : Yields step s (x.mapError g) Q := by
  apply Ensures.seq hx
  intro result s' h
  cases result with
  | ok a => exact h
  | error e => exact fun b hb => by cases hb

theorem outcome {Q} (hx : Ensures step s x.run Q) : Yields step s x.outcome Q := by
  apply Ensures.seq hx
  intro result s' h a ha
  cases ha
  exact h

theorem always {p} (hp : Ensures step s p Q) : Yields step s (always p) Q := by
  apply Ensures.seq hp
  intro b s' h a ha
  cases ha
  exact h

end Yields

/-- A part that leaves the state as it is, with what is known of its
successes. -/
def Reads (step : Steps S σ) (s : σ) (x : Attempt S α) (Q : α → Prop) : Prop :=
  Ensures step s x.run fun result s' => s' = s ∧ ∀ a, result = .ok a → Q a

namespace Reads

variable {step : Steps S σ} {s : σ} {x : Attempt S α} {Q Q' : α → Prop}

theorem mono (hx : Reads step s x Q) (himp : ∀ a, Q a → Q' a) : Reads step s x Q' :=
  Ensures.mono hx fun _ _ h => ⟨h.1, fun a ha => himp a (h.2 a ha)⟩

theorem pure {a} (h : Q a) : Reads step s (.pure a : Attempt S α) Q := by
  refine ⟨rfl, fun b hb => ?_⟩
  cases hb
  exact h

theorem throw {e} : Reads step s (MonadExcept.throw e : Attempt S α) Q := by
  refine ⟨rfl, fun b hb => ?_⟩
  cases hb

theorem done {r} (h : ∀ a, r = .ok a → Q a) : Reads step s (.done r : Attempt S α) Q := ⟨rfl, h⟩

theorem bind {f} {R : β → Prop} (hx : Reads step s x Q)
    (hf : ∀ a, Q a → Reads step s (f a) R) : Reads step s (x >>= f) R := by
  apply Ensures.seq hx
  rintro result s' ⟨rfl, h⟩
  cases result with
  | ok a => exact hf a (h a rfl)
  | error e => exact ⟨rfl, fun b hb => by cases hb⟩

theorem mapError {g} (hx : Reads step s x Q) : Reads step s (x.mapError g) Q := by
  apply Ensures.seq hx
  rintro result s' ⟨rfl, h⟩
  cases result with
  | ok a => exact ⟨rfl, h⟩
  | error e => exact ⟨rfl, fun b hb => by cases hb⟩

theorem keeps {K : σ → Prop} (hx : Reads step s x Q) (hs : K s) :
    Ensures step s x.run fun _ s' => K s' := .mono hx fun _ _ h => h.1 ▸ hs

/-- Reading before a part about which more is to be said. -/
theorem seq {f} {R : Except String β → σ → Prop} (hx : Reads step s x Q)
    (herror : ∀ e, R (.error e) s) (hf : ∀ a, Q a → Ensures step s (f a).run R) :
    Ensures step s (x >>= f).run R := by
  apply Ensures.seq hx
  rintro result s' ⟨rfl, h⟩
  cases result with
  | ok a => exact hf a (h a rfl)
  | error e => exact herror e

end Reads

/-- Every run from a state succeeds, and ends in `Q`. -/
def Achieves (step : Steps S σ) (s : σ) (x : Attempt S α) (Q : α → σ → Prop) : Prop :=
  Ensures step s x.run fun result s' => ∃ a, result = .ok a ∧ Q a s'

namespace Achieves

variable {step : Steps S σ} {s : σ} {x : Attempt S α} {Q Q' : α → σ → Prop}

theorem mono (hx : Achieves step s x Q) (himp : ∀ a s', Q a s' → Q' a s') : Achieves step s x Q' :=
  Ensures.mono hx fun _ s' h => h.imp fun a ha => ⟨ha.1, himp a s' ha.2⟩

theorem pure {a} (h : Q a s) : Achieves step s (.pure a : Attempt S α) Q := ⟨a, rfl, h⟩

/-- A part that succeeds before one about which more is to be said. -/
theorem seq {f} {R : Except String β → σ → Prop}
    (hx : Achieves step s x Q) (hf : ∀ a s', Q a s' → Ensures step s' (f a).run R) :
    Ensures step s (x >>= f).run R := by
  apply Ensures.seq hx
  rintro _ s' ⟨a, rfl, hQ⟩
  exact hf a s' hQ

theorem bind {f} {R : β → σ → Prop} (hx : Achieves step s x Q)
    (hf : ∀ a s', Q a s' → Achieves step s' (f a) R) : Achieves step s (x >>= f) R := hx.seq hf

/-- A part that succeeds and leaves the state as it is. -/
theorem past {f} {R : Except String β → σ → Prop}
    (hx : Achieves step s x fun _ s' => s' = s) (hf : ∀ a, Ensures step s (f a).run R) :
    Ensures step s (x >>= f).run R := by
  apply hx.seq
  rintro a _ rfl
  exact hf a

theorem mapError {g} (hx : Achieves step s x Q) : Achieves step s (x.mapError g) Q := by
  apply Ensures.seq hx
  rintro _ s' ⟨a, rfl, hQ⟩
  exact ⟨a, rfl, hQ⟩

theorem outcome {Q} (hx : Ensures step s x.run Q) : Achieves step s x.outcome Q := by
  apply Ensures.seq hx
  intro result s' hQ
  exact ⟨result, rfl, hQ⟩

theorem always {p} (hp : Ensures step s p Q) : Achieves step s (always p) Q := by
  apply Ensures.seq hp
  intro a s' hQ
  exact ⟨a, rfl, hQ⟩

end Achieves

/-- Every success from a state ends in `Q`, and every failure in `E`. -/
def Does (step : Steps S σ) (s : σ) (x : Attempt S α) (Q : α → σ → Prop) (E : σ → Prop) : Prop :=
  Ensures step s x.run fun result s' =>
    match result with
    | .ok a => Q a s'
    | .error _ => E s'

namespace Does

variable {step : Steps S σ} {s : σ} {x : Attempt S α} {Q Q' : α → σ → Prop} {E E' : σ → Prop}

theorem mono (hx : Does step s x Q E) (hQ : ∀ a s', Q a s' → Q' a s')
    (hE : ∀ s', E s' → E' s') : Does step s x Q' E' := by
  apply Ensures.mono hx
  intro result s' h
  cases result with
  | ok a => exact hQ a s' h
  | error e => exact hE s' h

theorem weaken (hx : Does step s x Q E) (hE : ∀ s', E s' → E' s') : Does step s x Q E' :=
  hx.mono (fun _ _ h => h) hE

theorem pure {a} (h : Q a s) : Does step s (.pure a : Attempt S α) Q E := h

theorem throw {e} (h : E s) : Does step s (MonadExcept.throw e : Attempt S α) Q E := h

theorem bind {f} {R : β → σ → Prop} (hx : Does step s x Q E)
    (hf : ∀ a s', Q a s' → Does step s' (f a) R E) : Does step s (x >>= f) R E := by
  apply Ensures.seq hx
  intro result s' h
  cases result with
  | ok a => exact hf a s' h
  | error e => exact h

/-- A last part that changes nothing. -/
theorem still {P} (hx : Reads step s x P) (hQ : ∀ a, P a → Q a s) (hE : E s) :
    Does step s x Q E := by
  apply Ensures.mono hx
  rintro result _ ⟨rfl, h⟩
  cases result with
  | ok a => exact hQ a (h a rfl)
  | error e => exact hE

/-- A part that changes nothing. -/
theorem read {P} {f : α → Attempt S β} {R}
    (hx : Reads step s x P) (hE : E s) (hf : ∀ a, P a → Does step s (f a) R E) :
    Does step s (x >>= f) R E := Reads.seq hx (fun _ => hE) hf

theorem mapError {g} (hx : Does step s x Q E) : Does step s (x.mapError g) Q E := by
  apply Ensures.seq hx
  intro result s' h
  cases result <;> exact h

/-- A part whose failure does not end the whole. -/
theorem outcome {f} {R : β → σ → Prop} {E'}
    (hx : Does step s x Q E') (hok : ∀ a s', Q a s' → Does step s' (f (.ok a)) R E)
    (herror : ∀ e s', E' s' → Does step s' (f (.error e)) R E) :
    Does step s (x.outcome >>= f) R E := by
  apply Ensures.seq (Achieves.outcome hx)
  rintro _ s' ⟨result, rfl, h⟩
  cases result with
  | ok a => exact hok a s' h
  | error e => exact herror e s' h

end Does

end CrashMonitor.Interleave
