import CrashMonitor.Lib.Trace

/-!
# Programs that can fail

An `Attempt` is a program whose result is an error text or a value, with the
early return of an error built into sequencing. Each logic of the libraries
gets one rule for that sequencing, so that a proof about a fallible program
names what holds after a success and after a failure of each part.
-/

namespace CrashMonitor.Interleave

abbrev Attempt (S : Sig) := ExceptT String (Prog S)

namespace Attempt

variable {S : Sig} {α β : Type}

/-- `map_err`. -/
def mapError (f : String → String) (x : Attempt S α) : Attempt S α := ExceptT.mk (x.run.bind fun
    | .ok a => .ret (.ok a)
    | .error e => .ret (.error (f e)))

/-- The result of a part as a value: a failure does not end the whole. -/
def outcome (x : Attempt S α) : Attempt S (Except String α) :=
  ExceptT.mk (x.run.bind fun r => .ret (.ok r))

/-- A program that cannot fail. -/
def always (p : Prog S α) : Attempt S α := ExceptT.mk (p.bind fun a => .ret (.ok a))

/-- A result that is already there. -/
def done (r : Except String α) : Attempt S α := ExceptT.mk (.ret r)

/-- What follows a success of a part; a failure is passed on. -/
def andThen (f : α → Attempt S β) : Except String α → Prog S (Except String β)
  | .ok a => (f a).run
  | .error e => .ret (.error e)

theorem run_bind (x : Attempt S α) (f : α → Attempt S β) :
    (x >>= f).run = x.run.bind (andThen f) := by
  show x.run.bind _ = x.run.bind _
  congr 1
  funext r
  cases r with
  | ok a => rfl
  | error e => rfl

end Attempt

end CrashMonitor.Interleave
