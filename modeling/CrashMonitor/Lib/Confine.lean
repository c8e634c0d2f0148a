import CrashMonitor.Lib.Alone

/-!
# Which calls a program can make

`Confined A P` says that a program keeps to the calls in `P` as long as every
answer it gets is in `A`. `Confines` is the same for a program that can fail,
with what is known of its successes; a failure ends it and needs no proof. One
rule for each way of putting programs together, and `Confined.trace` reads the
result off every run.
-/

namespace CrashMonitor.Interleave

open List

variable {S : Sig} {α β σ : Type}

def Confined (A : (o : S.Op) → S.Res o → Prop) (P : S.Op → Prop) : Prog S α → (α → Prop) → Prop
  | .ret a, Q => Q a
  | .call o k, Q => P o ∧ ∀ r, A o r → Confined A P (k r) Q

variable {A : (o : S.Op) → S.Res o → Prop} {P : S.Op → Prop}

namespace Confined

variable {p : Prog S α} {Q Q' : α → Prop}

theorem mono (hp : Confined A P p Q) (himp : ∀ a, Q a → Q' a) : Confined A P p Q' := by
  induction p with
  | ret a => exact himp a hp
  | call o k ih => exact ⟨hp.1, fun r hr => ih r (hp.2 r hr)⟩

/-- More calls, and fewer answers. -/
theorem weaken {A' P'} (hp : Confined A P p Q) (hA : ∀ o r, A' o r → A o r) (hP : ∀ o, P o → P' o) :
    Confined A' P' p Q := by
  induction p with
  | ret a => exact hp
  | call o k ih => exact ⟨hP o hp.1, fun r hr => ih r (hp.2 r (hA o r hr))⟩

/-- Sequencing through a stated midpoint. -/
theorem seq {f} {R : β → Prop} (hp : Confined A P p Q)
    (hf : ∀ a, Q a → Confined A P (f a) R) : Confined A P (p.bind f) R := by
  induction p with
  | ret a => exact hf a hp
  | call o k ih => exact ⟨hp.1, fun r hr => ih r (hp.2 r hr)⟩

/-- A run whose answers are all in `A` makes only calls in `P`. -/
theorem trace (hp : Confined A P p Q) {t a} (ht : p.Trace t a)
    (hA : ∀ e ∈ t, A e.op e.answer) : Q a ∧ ∀ e ∈ t, P e.op := by
  induction ht with
  | ret a => exact ⟨hp, fun e he => absurd he not_mem_nil⟩
  | @call o k r t a _ ih =>
    obtain ⟨hP, hk⟩ := hp
    have hanswer : A o r := hA ⟨o, r⟩ mem_cons_self
    obtain ⟨hQ, hrest⟩ := ih (hk r hanswer) fun e he => hA e (mem_cons_of_mem _ he)
    exact ⟨hQ, forall_mem_cons.mpr ⟨hP, hrest⟩⟩

/-- What every call in `P` keeps is kept. -/
theorem keeps {step} {Inv : σ → Prop} {s} (hp : Confined (fun _ _ => True) P p Q)
    (hstep : ∀ o s r s', P o → step o s r s' → Inv s → Inv s') (hs : Inv s) :
    Ensures step s p fun _ s' => Inv s' := by
  induction p generalizing s with
  | ret a => exact hs
  | call o k ih =>
    intro r s' h
    exact ih r (hp.2 r trivial) (hstep o s r s' hp.1 h hs)

end Confined

def Confines (A : (o : S.Op) → S.Res o → Prop) (P : S.Op → Prop) (x : Attempt S α)
    (Q : α → Prop) : Prop := Confined A P x.run fun result => ∀ a, result = .ok a → Q a

namespace Confines

variable {x : Attempt S α} {Q Q' : α → Prop}

theorem mono (hx : Confines A P x Q) (himp : ∀ a, Q a → Q' a) : Confines A P x Q' :=
  Confined.mono hx fun _ h a ha => himp a (h a ha)

theorem pure {a} (h : Q a) : Confines A P (.pure a : Attempt S α) Q := by
  intro b hb
  cases hb
  exact h

theorem throw {e} : Confines A P (MonadExcept.throw e : Attempt S α) Q := by
  intro b hb
  cases hb

theorem done {r} (h : ∀ a, r = .ok a → Q a) : Confines A P (.done r : Attempt S α) Q := h

theorem bind {f} {R : β → Prop} (hx : Confines A P x Q)
    (hf : ∀ a, Q a → Confines A P (f a) R) : Confines A P (x >>= f) R := by
  apply Confined.seq hx
  intro result h
  cases result with
  | ok a => exact hf a (h a rfl)
  | error e => exact fun b hb => by cases hb

/-- A part of whose result nothing is used. -/
theorem skip {f} {R : β → Prop} (hx : Confines A P x fun _ => True)
    (hf : ∀ a, Confines A P (f a) R) : Confines A P (x >>= f) R := hx.bind fun a _ => hf a

/-- A program of a single call. -/
theorem call {o} {f : S.Res o → Except String α} (h : P o) :
    Confines A P (.mk (.call o fun r => .ret (f r)) : Attempt S α) fun _ => True :=
  ⟨h, fun _ _ _ _ => trivial⟩

theorem mapError {g} (hx : Confines A P x Q) : Confines A P (x.mapError g) Q := by
  apply Confined.seq hx
  intro result h
  cases result with
  | ok a => exact h
  | error e => exact fun b hb => by cases hb

/-- What was known of a success is known of the outcome. -/
theorem outcome (hx : Confines A P x Q) :
    Confines A P x.outcome fun result => ∀ a, result = .ok a → Q a := by
  apply Confined.seq hx
  intro result h a ha
  cases ha
  exact h

/-- A part whose failure changes nothing. -/
theorem attempted (hx : Confines A P x Q) : Confines A P x.outcome fun _ => True :=
  hx.outcome.mono fun _ _ => trivial

end Confines

/-! ## Runs against a handler -/

namespace Prog

/-- The calls of a run against a handler, with their answers. -/
def log (handle : (o : S.Op) → σ → S.Res o × σ) : Prog S α → σ → List (Event S)
  | ret _, _ => []
  | call o k, s => ⟨o, (handle o s).1⟩ :: log handle (k (handle o s).1) (handle o s).2

theorem trace_log (handle : (o : S.Op) → σ → S.Res o × σ) (p : Prog S α) (s : σ) :
    p.Trace (p.log handle s) (p.exec handle s).1 := by
  induction p generalizing s with
  | ret a => exact .ret a
  | call o k ih => exact .call (ih _ _)

/-- The answers of such a run are the handler's. -/
theorem answer_of_mem_log {handle} {p : Prog S α} {s : σ}
    {e} (h : e ∈ p.log handle s) : ∃ s', e.answer = (handle e.op s').1 := by
  induction p generalizing s with
  | ret a => cases h
  | call o k ih =>
    rcases mem_cons.mp h with rfl | h
    · exact ⟨s, rfl⟩
    · exact ih _ h

end Prog

end CrashMonitor.Interleave
