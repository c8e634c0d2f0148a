import CrashMonitor.EventLoop.Machine
import Mathlib.Order.Monotone.Basic

/-!
# Event loop — monitor-owned time is never hang time

Statement vocabulary: the loop's observations, newest first. For a
heartbeat value, `baseline` is the instant at which the current unbroken
run of that value was first used as a baseline, and `workSince` the time
spent in monitor-work intervals since then.

Proof method: `Accounts`, which says that the check baseline already has
all monitor work of the current run taken out. `last_anr_check` is moved
by three different rules (a check, preserved work, a reset), and the
inequality `baseline + work + hang ≤ last_anr_check` survives each.
-/

namespace CrashMonitor.EventLoop

open MachineInt Watchdog List

variable {value last : Nat} {o : Observation} {obs : List Observation}

/-! ## Reading the observations -/

def Observation.heartbeat : Observation → Option Nat
  | .start heartbeat _ => heartbeat
  | .check _ heartbeat _ _ => heartbeat
  | .work _ heartbeat _ => heartbeat

/-- The clock reading from which a sample serves as baseline. -/
def Observation.sampledAt : Observation → Nat
  | .start _ time => time
  | .check _ _ _ next => next
  | .work _ _ finished => finished

/-- Time inside a monitor-work interval. -/
def Observation.workTime : Observation → Nat
  | .work started _ finished => finished - started
  | _ => 0

def observations (effects : List Effect) : List Observation := effects.filterMap fun
    | .observe observation => some observation
    | _ => none

/-- The heartbeat of the latest sample. -/
def latest : List Observation → Option Nat
  | [] => none
  | o :: _ => o.heartbeat

/-- When the current run of samples equal to `value` began; `none` if the
latest sample differs. -/
def baseline (value : Nat) : List Observation → Option Nat
  | [] => none
  | o :: past =>
    if o.heartbeat = some value
    then some ((baseline value past).getD o.sampledAt)
    else none

/-- Monitor-work time after `baseline`. Work that ends with the first sample
of the run lies before it. -/
def workSince (value : Nat) : List Observation → Nat
  | [] => 0
  | o :: past =>
    if o.heartbeat = some value ∧ (baseline value past).isSome
    then workSince value past + o.workTime
    else 0

/-- An ANR report with hang duration `hang`, made right after `older`, is
covered by application time: the check that detected it is the last effect,
and the reported milliseconds fit between the baseline of the unchanged
value and that check, with all monitor work in between taken out. -/
def Covered (hang : Option Nat) (older : List Effect) : Prop := ∃ time value duration next rest b,
    hang = some duration ∧
    older = .observe (.check time (some value) (some duration) next) :: rest ∧
    baseline value (observations rest) = some b ∧
    b + workSince value (observations rest) + duration * 1000000 ≤ time

/-- Every ANR report among the effects is covered. -/
def ReportsCovered : List Effect → Prop
  | [] => True
  | effect :: older =>
    (∀ hang, effect = .capture .anr hang → Covered hang older) ∧ ReportsCovered older

theorem baseline_cons_eq {past} (h : o.heartbeat = some value) :
    baseline value (o :: past) = some ((baseline value past).getD o.sampledAt) := by
  rw [baseline, if_pos h]

/-- The run of the latest value has a beginning. -/
theorem baseline_latest (h : latest obs = some value) : (baseline value obs).isSome := by
  cases obs with
  | nil => cases h
  | cons o past => rw [baseline_cons_eq h]; rfl

theorem baseline_of_latest_ne (h : latest obs ≠ some value) : baseline value obs = none := by
  cases obs with
  | nil => rfl
  | cons o past => exact if_neg h

theorem workSince_of_latest_ne {past} (h : latest past ≠ some value) :
    workSince value (o :: past) = 0 := by
  rw [workSince, baseline_of_latest_ne h]
  simp

/-! ## The balance -/

/-- An armed watchdog's accumulated hang fits between the baseline of the
current run and `last`, with the monitor work of the run taken out. -/
structure Armed (state : WatchdogState) (last : Nat) (obs : List Observation) : Prop where
  prev : state.prevHeartbeat = latest obs
  idle : state.NoIdleHang
  balance : ∀ value b, baseline value obs = some b →
    b + workSince value obs + state.hangAccumulatedMs * 1000000 ≤ last

/-- The balance for a sample: either it continues the run, and the caller
accounts for the old baseline, or it starts one at `sampledAt` with an empty
hang. -/
theorem balance_cons {next : WatchdogState}
    (hsame : ∀ value b, o.heartbeat = some value → latest obs = some value →
      baseline value obs = some b →
      b + (workSince value obs + o.workTime) +
        next.hangAccumulatedMs * 1000000 ≤ last)
    (hnew : o.heartbeat ≠ latest obs → next.hangAccumulatedMs = 0)
    (hat : o.heartbeat ≠ latest obs → o.sampledAt ≤ last) :
    ∀ value b, baseline value (o :: obs) = some b →
      b + workSince value (o :: obs) + next.hangAccumulatedMs * 1000000 ≤ last := by
  intro value b hb
  have ho : o.heartbeat = some value := by
    by_contra hne
    rw [baseline, if_neg hne] at hb
    cases hb
  rw [baseline_cons_eq ho] at hb
  by_cases hl : latest obs = some value
  · -- the run continues: its baseline is the old one
    obtain ⟨b0, hb0⟩ := Option.isSome_iff_exists.mp (baseline_latest hl)
    rw [hb0, Option.getD_some, Option.some.injEq] at hb
    subst hb
    rw [workSince, if_pos ⟨ho, by rw [hb0]; rfl⟩]
    exact hsame value b0 ho hl hb0
  · -- a new run begins with this sample
    rw [baseline_of_latest_ne hl, Option.getD_none, Option.some.injEq] at hb
    have hne : o.heartbeat ≠ latest obs := by
      rw [ho]
      exact .symm hl
    rw [workSince_of_latest_ne hl, hnew hne, ← hb]
    simpa using hat hne

/-- A hang that grew by at most the elapsed time still fits (`k` is the
number of clock units in a millisecond). -/
theorem covered_add {b work hang hang' elapsed checkedAt k} (hbal : b + work + hang * k ≤ last)
    (hle : hang' ≤ hang + elapsed) (h1 : last ≤ checkedAt) (he : elapsed * k ≤ checkedAt - last) :
    b + work + hang' * k ≤ checkedAt := by
  calc b + work + hang' * k ≤ b + work + (hang + elapsed) * k :=
        Nat.add_le_add_left (Nat.mul_le_mul_right _ hle) _
    _ = b + work + hang * k + elapsed * k := by rw [Nat.add_mul, ← Nat.add_assoc]
    _ ≤ checkedAt := by omega

section Check

variable {state : WatchdogState} {last checkedAt next elapsed : Nat} {obs : List Observation}

/-- A check keeps the balance: the next interval starts at the reading taken
after the sample. -/
theorem Armed.check (h : Armed state last obs) (h1 : last ≤ checkedAt)
    (h2 : checkedAt ≤ next) (he : elapsed * 1000000 ≤ checkedAt - last)
    (heartbeat : Option Nat) (thresholdMs cooldownMs : Nat) : Armed
      (updateWatchdogState state heartbeat elapsed thresholdMs cooldownMs).2
      next
      (.check checkedAt heartbeat
        (updateWatchdogState state heartbeat elapsed thresholdMs cooldownMs).1
        next :: obs) := by
  refine ⟨updateWatchdogState_prev .., ?_, balance_cons ?_ ?_ fun _ => le_rfl⟩
  · intro hn
    rw [updateWatchdogState_prev] at hn
    exact updateWatchdogState_hang_eq_zero _ _ _ _ _ h.idle (.inr hn)
  · intro value b ho hl hb
    have hle := updateWatchdogState_hang_le state heartbeat elapsed
      thresholdMs cooldownMs (ho.trans (h.prev.trans hl).symm)
    exact (covered_add (h.balance value b hb) hle h1 he).trans h2
  · intro hne
    rw [← h.prev] at hne
    exact updateWatchdogState_hang_eq_zero _ _ _ _ _ h.idle (.inl hne)

/-- A check that reports is covered. -/
theorem Armed.reported (h : Armed state last obs) (h1 : last ≤ checkedAt)
    (he : elapsed * 1000000 ≤ checkedAt - last) {heartbeat thresholdMs cooldownMs duration}
    (hr : (updateWatchdogState state heartbeat elapsed thresholdMs cooldownMs).1 = some duration) :
    ∃ value b, heartbeat = some value ∧ baseline value obs = some b ∧
      b + workSince value obs + duration * 1000000 ≤ checkedAt := by
  obtain ⟨hsome, hprev, hle⟩ := updateWatchdogState_reported _ _ _ _ _ hr
  obtain ⟨value, rfl⟩ := Option.isSome_iff_exists.mp hsome
  obtain ⟨b, hb⟩ := Option.isSome_iff_exists.mp (baseline_latest (hprev.trans h.prev).symm)
  exact ⟨value, b, rfl, hb, covered_add (h.balance value b hb) hle h1 he⟩

end Check

/-- The baseline after monitor-owned work, as `finish_anr_monitor_work`
chooses it. -/
def lastAfterWork (rebase : MonitorWorkRebase) (last started finished : Nat) : Nat :=
  match rebase with
  | .preserveElapsed => excludeMonitorWorkFromAnrClock last started finished
  | .resetElapsed => finished

theorem lastAfterWork_le {rebase started finished}
    (h1 : last ≤ started) (h2 : started ≤ finished) :
    lastAfterWork rebase last started finished ≤ finished := by
  cases rebase with
  | preserveElapsed => exact (excludeMonitorWorkFromAnrClock_bounds h1 h2).2
  | resetElapsed => exact le_rfl

/-- Monitor-owned work keeps the balance: either the interval is taken out
of the clock, or the sample at its end starts a new run. -/
theorem Armed.work {state : WatchdogState} {started finished} (h : Armed state last obs)
    (h1 : last ≤ started) (h2 : started ≤ finished) (heartbeat : Option Nat) (elapsedMs : Nat) :
    Armed (state.rebaseAfterMonitorWork heartbeat elapsedMs).2
      (lastAfterWork (state.rebaseAfterMonitorWork heartbeat elapsedMs).1 last started finished)
      (.work started heartbeat finished :: obs) := by
  refine ⟨rebaseAfterMonitorWork_prev .., ?_, balance_cons ?_ ?_ ?_⟩
  · intro hn
    rw [rebaseAfterMonitorWork_prev] at hn
    exact (rebaseAfterMonitorWork_changed _ _ _ h.idle (.inr hn)).2
  · intro value b ho hl hb
    have ho : heartbeat = some value := ho
    rw [rebaseAfterMonitorWork_same _ _ _ (by simp [ho]) (ho.trans (h.prev.trans hl).symm)]
    have hbal := h.balance value b hb
    have hex := (excludeMonitorWorkFromAnrClock_bounds h1 h2).1
    simp only [lastAfterWork, Observation.workTime]
    omega
  · intro hne
    rw [← h.prev] at hne
    exact (rebaseAfterMonitorWork_changed _ _ _ h.idle (.inl hne)).2
  · intro hne
    have hne : heartbeat ≠ state.prevHeartbeat := fun heq => hne (heq.trans h.prev)
    rw [(rebaseAfterMonitorWork_changed _ _ _ h.idle (.inl hne)).1]
    exact le_rfl

/-! ## Every run -/

/-- The loop invariant: the baseline is at or before the latest clock
reading, all reports so far are covered, and an armed watchdog balances. -/
structure Accounts (env : Env) (s : LoopState) : Prop where
  read : 0 < s.clockReads
  last_le : s.lastAnrCheck ≤ env.clock (s.clockReads - 1)
  covered : ReportsCovered s.effects
  armed : ∀ state, s.anrState = some state → Armed state s.lastAnrCheck (observations s.effects)

section Run

variable {env : Env} {ctx : Context} {s : LoopState}

/-- `t` is `s` as far as the ANR accounting is concerned: nothing was
observed in between and no ANR report was made. -/
structure SameAccounts (s t : LoopState) : Prop where
  anrState : t.anrState = s.anrState
  last : t.lastAnrCheck = s.lastAnrCheck
  reads : t.clockReads = s.clockReads
  obs : observations t.effects = observations s.effects
  covered : ReportsCovered s.effects → ReportsCovered t.effects

theorem Accounts.same (h : Accounts env s) {t} (hs : SameAccounts s t) : Accounts env t := by
  obtain ⟨h1, h2, h3, h4, h5⟩ := hs
  refine ⟨by rw [h3]; exact h.read, by rw [h2, h3]; exact h.last_le, h5 h.covered, ?_⟩
  rw [h1, h2, h4]
  exact h.armed

theorem SameAccounts.refl (s : LoopState) : SameAccounts s s := ⟨rfl, rfl, rfl, rfl, id⟩

theorem SameAccounts.trans {s t u} (h : SameAccounts s t)
    (h' : SameAccounts t u) : SameAccounts s u :=
  ⟨h'.anrState.trans h.anrState, h'.last.trans h.last,
    h'.reads.trans h.reads, h'.obs.trans h.obs, h'.covered ∘ h.covered⟩

/-- An effect that is neither an observation nor an ANR report leaves the
accounting alone. -/
def Effect.Neutral : Effect → Prop
  | .observe _ => False
  | .capture .anr _ => False
  | _ => True

theorem SameAccounts.emit {s t} (h : SameAccounts s t)
    {effect} (hn : effect.Neutral) : SameAccounts s (emit effect t) := by
  refine ⟨h.anrState, h.last, h.reads, ?_, ?_⟩
  · rw [← h.obs]
    cases effect with
    | observe o => exact hn.elim
    | _ => rfl
  · intro hcov
    refine ⟨?_, h.covered hcov⟩
    rintro hang rfl
    exact hn.elim

theorem sameAccounts_waitUntil (env : Env) (deadline : Option Nat)
    (s : LoopState) : SameAccounts s (waitUntil env deadline s).2 := by
  refine .emit ?_ ?_
  · exact ⟨rfl, rfl, rfl, rfl, id⟩
  · trivial

theorem sameAccounts_capture (env : Env) {reportType}
    (h : reportType ≠ .anr) (hang : Option Nat) (s : LoopState) :
    SameAccounts s (capture env reportType hang s).2 := by
  have hn : (Effect.capture reportType hang).Neutral := by
    cases reportType with
    | anr => exact absurd rfl h
    | _ => trivial
  refine .emit ?_ hn
  exact ⟨rfl, rfl, rfl, rfl, id⟩

theorem sameAccounts_taskControl (env : Env) (s : LoopState) :
    SameAccounts s (taskControlMonitorFailure env s).2 := ⟨rfl, rfl, rfl, rfl, id⟩

theorem sameAccounts_replyAndDrop (env : Env) (request : Nat) (s : LoopState) :
    SameAccounts s (replyAndDrop env request s).2 := by
  refine .emit (.emit ?_ ?_) ?_
  · exact ⟨rfl, rfl, rfl, rfl, id⟩
  · trivial
  · trivial

open SameAccounts

theorem sameAccounts_detachWorkers {s} : SameAccounts s (detachWorkers s) := by
  refine ((refl s).emit ?_).emit ?_ <;> trivial

theorem sameAccounts_shutdownWorkers {s} : SameAccounts s (shutdownWorkers s) := by
  refine ((refl s).emit ?_).emit ?_ <;> trivial

section

variable (h : Accounts env s) (hm : Monotone env.clock)

include h hm

theorem Accounts.now : Accounts env (now env s).2 ∧ s.lastAnrCheck ≤ (EventLoop.now env s).1 := by
  have hle : s.lastAnrCheck ≤ env.clock s.clockReads := h.last_le.trans (hm (Nat.sub_le _ _))
  exact ⟨⟨Nat.succ_pos _, hle, h.covered, h.armed⟩, hle⟩

section

variable {started : Nat} (h1 : s.lastAnrCheck ≤ started)
  (h2 : started ≤ env.clock (s.clockReads - 1))
include h1 h2

theorem Accounts.finishWork : Accounts env (finishAnrMonitorWork env ctx started s) := by
  unfold finishAnrMonitorWork
  split
  · exact h
  rename_i state hstate
  split
  · have hfin : started ≤ env.clock s.clockReads := h2.trans (hm (Nat.sub_le _ _))
    have harmed := (h.armed state hstate).work h1 hfin (env.heartbeat s.heartbeatReads)
      (tryFromOrMax (asMillis (started - s.lastAnrCheck)))
    refine ⟨Nat.succ_pos _, lastAfterWork_le h1 hfin, ?_, ?_⟩
    · refine ⟨?_, h.covered⟩
      intro hang ho
      cases ho
    · intro next hnext
      cases hnext
      exact harmed
  · exact h

theorem Accounts.afterCapture (captured : Bool) :
    Accounts env (afterCapture env ctx captured started s).1 := by
  unfold EventLoop.afterCapture
  dsimp only
  split
  · refine h.same ((((sameAccounts_taskControl env s).emit ?_).emit ?_).emit ?_) <;> trivial
  cases captured with
  | true =>
    refine .finishWork (h.same ((sameAccounts_taskControl env s).emit ?_)) hm h1 h2
    trivial
  | false => exact .finishWork (h.same (sameAccounts_taskControl env s)) hm h1 h2

end

theorem Accounts.onSnapshot : Accounts env (onSnapshot env ctx s).1 := by
  unfold EventLoop.onSnapshot
  split
  · exact h
  obtain ⟨hnow, hle⟩ := h.now hm
  exact .afterCapture (hnow.same (sameAccounts_capture env (by decide) _ _)) hm hle le_rfl _

end

/-- The elapsed milliseconds of a check, truncation included, fit in the
interval they were computed from. -/
theorem elapsed_le (interval : Nat) : asU64 (asMillis interval) * 1000000 ≤ interval :=
  (Nat.mul_le_mul_right _ (asU64_le _)).trans (Nat.div_mul_le_self _ _)

section

variable (h : Accounts env s)
include h

/-- A check: the sample lies between two readings, and a hang it reports is
covered. -/
theorem Accounts.check (hm : Monotone env.clock)
    {state} (hstate : s.anrState = some state) (cfg : AnrConfig) :
    let time := env.clock s.clockReads
    let heartbeat := env.heartbeat s.heartbeatReads
    let next := env.clock (s.clockReads + 1)
    let update := updateWatchdogState state heartbeat
      (asU64 (asMillis (time - s.lastAnrCheck))) cfg.thresholdMs cfg.cooldownMs
    let effects := .observe (.check time heartbeat update.1 next) :: s.effects
    Accounts env { s with
          anrState := some update.2
          lastAnrCheck := next
          clockReads := s.clockReads + 2
          heartbeatReads := s.heartbeatReads + 1
          effects := effects } ∧
      ∀ duration, update.1 = some duration → Covered (some duration) effects := by
  intro time heartbeat next update effects
  have hle := (h.now hm).2
  have hnext : time ≤ next := hm (Nat.le_succ _)
  have hel := elapsed_le (time - s.lastAnrCheck)
  have harmed := h.armed state hstate
  refine ⟨⟨Nat.succ_pos _, le_rfl, ⟨?_, h.covered⟩, ?_⟩, ?_⟩
  · intro hang ho
    cases ho
  · intro w hw
    cases hw
    exact harmed.check hle hnext hel _ _ _
  intro duration hd
  obtain ⟨value, b, hv, hb, hcov⟩ := harmed.reported hle hel hd
  refine ⟨time, value, duration, next, s.effects, b, rfl, ?_, hb, hcov⟩
  simp only [effects, heartbeat, hd, hv]

theorem Accounts.onIdle (hm : Monotone env.clock) : Accounts env (onIdle env ctx s).1 := by
  unfold EventLoop.onIdle
  split
  · rename_i state cfg hstate _ _
    dsimp only
    split
    · obtain ⟨hstep, hrep⟩ := h.check hm hstate cfg
      split
      · exact hstep
      -- the report itself is the next effect
      rename_i duration hd
      refine .afterCapture ?_ hm le_rfl le_rfl _
      refine ⟨hstep.read, hstep.last_le, ⟨?_, hstep.covered⟩, hstep.armed⟩
      intro hang ho
      cases ho
      exact hrep duration hd
    · exact (h.now hm).1
  · exact h

theorem Accounts.onCrash (exceptionType request : Nat) :
    Accounts env (onCrash env ctx exceptionType request s).1 := by
  unfold EventLoop.onCrash
  split
  · dsimp only
    split
    · exact h.same ((sameAccounts_replyAndDrop ..).trans sameAccounts_detachWorkers)
    · exact h.same (sameAccounts_replyAndDrop ..)
  · -- a subscribed exception: capture, reply, detach, start finalization
    have hcap : SameAccounts s (if ctx.reportEnabled .crash then capture env .crash none s
          else (false, s)).2 := by
      split
      · exact sameAccounts_capture env (by decide) _ s
      · exact .refl s
    generalize (if ctx.reportEnabled .crash then capture env .crash none s
      else (false, s)) = step at hcap
    obtain ⟨captured, t⟩ := step
    refine h.same (hcap.trans ((sameAccounts_replyAndDrop env request t).trans
      ((sameAccounts_taskControl env _).trans ((sameAccounts_detachWorkers).trans ?_))))
    cases captured with
    | true =>
      refine (refl _).emit ?_
      trivial
    | false => exact .refl _

theorem Accounts.onChildTerminated (reason : TerminationReason) :
    Accounts env (onChildTerminated ctx reason s).1 := by
  unfold EventLoop.onChildTerminated
  split
  · refine h.same (trans ((refl s).emit ?_) sameAccounts_shutdownWorkers)
    trivial
  · exact h.same sameAccounts_shutdownWorkers

/-- One round of the loop, whatever the event. -/
theorem Accounts.iteration (hm : Monotone env.clock) : Accounts env (iteration env ctx s).1 := by
  unfold EventLoop.iteration
  have hw := h.same (sameAccounts_waitUntil env (nextWatchdogCheck ctx s) s)
  dsimp only
  split
  · exact hw.onCrash _ _
  · exact hw.onSnapshot hm
  · exact hw.same sameAccounts_shutdownWorkers
  · exact hw.onChildTerminated _
  · exact hw.same sameAccounts_shutdownWorkers
  · exact hw.same sameAccounts_shutdownWorkers
  · exact hw.onIdle hm

end

theorem accounts_start {env : Env} {ctx} : Accounts env (start env ctx) := by
  unfold start
  split
  · rename_i cfg _ _ _
    refine ⟨Nat.one_pos, le_rfl, ⟨fun hang ho => (by cases ho), trivial⟩, ?_⟩
    intro state hstate
    cases hstate
    refine ⟨rfl, fun _ => rfl, balance_cons ?_ (fun _ => rfl) fun _ => le_rfl⟩
    intro value b _ hl
    cases hl
  · refine ⟨Nat.one_pos, le_rfl, trivial, ?_⟩
    intro state hstate
    cases hstate

theorem accounts_eventLoop (hm : Monotone env.clock) (rounds : Nat) :
    Accounts env (eventLoop env ctx rounds).1 := by
  induction rounds with
  | zero => exact accounts_start
  | succ rounds ih =>
    rw [eventLoop]
    split
    · rename_i hrun
      rw [hrun] at ih
      exact ih
    · rename_i hrun
      rw [hrun] at ih
      exact ih.iteration hm

/-! ## Captures and their work -/

/-- Every capture is followed by the observation of the work it was, taken
between two successive readings of the clock, and no other work is
observed. -/
inductive Settled (env : Env) : List Effect → Prop where
  | nil : Settled env []
  | other {effect older} (hcapture : ∀ reportType hang, effect ≠ .capture reportType hang)
      (hwork : ∀ started heartbeat finished, effect ≠ .observe (.work started heartbeat finished))
      (h : Settled env older) : Settled env (effect :: older)
  | captured {k heartbeat reportType hang older submitted}
      (hsubmitted : submitted = [] ∨ submitted = [.submitBackground]) (h : Settled env older) :
      Settled env (.observe (.work (env.clock k) heartbeat (env.clock (k + 1))) ::
        submitted ++ .capture reportType hang :: older)

/-- An armed watchdog, every capture settled. -/
structure Watching (env : Env) (s : LoopState) : Prop where
  armed : ∃ state, s.anrState = some state
  settled : Settled env s.effects

section

variable {k : Nat} {older : List Effect} {captured : Bool} (hshm : ctx.shm = true)
include hshm

theorem watching_finishWork {submitted reportType hang} (harmed : ∃ state, s.anrState = some state)
    (hreads : s.clockReads = k + 1)
    (hsubmitted : submitted = [] ∨ submitted = [.submitBackground])
    (heffects : s.effects = submitted ++ .capture reportType hang :: older)
    (h : Settled env older) : Watching env (finishAnrMonitorWork env ctx (env.clock k) s) := by
  obtain ⟨state, hstate⟩ := harmed
  unfold finishAnrMonitorWork
  simp only [hstate, hshm, if_true]
  refine ⟨⟨_, rfl⟩, ?_⟩
  have hsettled : Settled env (.observe (.work (env.clock k) (env.heartbeat s.heartbeatReads)
      (env.clock (k + 1))) :: submitted ++ .capture reportType hang :: older) :=
    .captured hsubmitted h
  rw [← hreads, cons_append, ← heffects] at hsettled
  exact hsettled

theorem watching_afterCapture {reportType hang} (harmed : ∃ state, s.anrState = some state)
    (hreads : s.clockReads = k + 1) (heffects : s.effects = .capture reportType hang :: older)
    (h : Settled env older) (hnone : (afterCapture env ctx captured (env.clock k) s).2 = none) :
    Watching env (afterCapture env ctx captured (env.clock k) s).1 := by
  unfold afterCapture at hnone ⊢
  dsimp only at hnone ⊢
  split
  · next hfailed =>
      rw [hfailed] at hnone
      cases hnone
  cases captured with
  | true => exact watching_finishWork hshm harmed hreads (.inr rfl) (by rw [← heffects]; rfl) h
  | false => exact watching_finishWork hshm harmed hreads (.inl rfl) heffects h

/-- A round that does not end the loop settles its capture, if it makes one. -/
theorem Watching.iteration (h : Watching env s) (hnone : (iteration env ctx s).2 = none) :
    Watching env (iteration env ctx s).1 := by
  have hwaited : Settled env (.wait (nextWatchdogCheck ctx s) :: s.effects) :=
    .other (by simp) (by simp) h.settled
  unfold EventLoop.iteration at hnone ⊢
  dsimp only at hnone ⊢
  split at hnone
  · unfold EventLoop.onCrash at hnone ⊢
    split at hnone
    · next hsub =>
        rw [if_pos hsub]
        dsimp only at hnone ⊢
        split at hnone
        · cases hnone
        · exact ⟨h.armed, .other (by simp) (by simp) (.other (by simp) (by simp) hwaited)⟩
    · cases hnone
  · unfold EventLoop.onSnapshot at hnone ⊢
    split at hnone
    · next hdisabled =>
        rw [if_pos hdisabled]
        exact ⟨h.armed, hwaited⟩
    · next henabled =>
        rw [if_neg henabled]
        exact watching_afterCapture hshm h.armed rfl rfl hwaited hnone
  · cases hnone
  · cases hnone
  · cases hnone
  · cases hnone
  · unfold EventLoop.onIdle at hnone ⊢
    split at hnone
    · dsimp only at hnone ⊢
      split at hnone
      · next hdue =>
          rw [if_pos hdue]
          split at hnone
          · exact ⟨⟨_, rfl⟩, .other (by simp) (by simp) hwaited⟩
          · exact watching_afterCapture hshm ⟨_, rfl⟩ rfl rfl (.other (by simp) (by simp) hwaited)
              hnone
      · next hearly =>
          rw [if_neg hearly]
          exact ⟨h.armed, hwaited⟩
    · exact ⟨h.armed, hwaited⟩

end

theorem watching_eventLoop {cfg rounds} (hanr : ctx.reportEnabled .anr = true)
    (hshm : ctx.shm = true) (hconfig : ctx.anrConfig = some cfg)
    (hnone : (eventLoop env ctx rounds).2 = none) : Watching env (eventLoop env ctx rounds).1 := by
  induction rounds with
  | zero =>
    show Watching env (start env ctx)
    unfold start
    simp only [hanr, hshm, hconfig]
    exact ⟨⟨_, rfl⟩, .other (by simp) (by simp) .nil⟩
  | succ rounds ih =>
    rw [eventLoop] at hnone ⊢
    split at hnone
    · cases hnone
    · next s hrun =>
        rw [hrun] at ih
        exact (ih rfl).iteration hshm hnone

theorem reportsCovered_split {newer older hang}
    (h : ReportsCovered (newer ++ .capture .anr hang :: older)) : Covered hang older := by
  induction newer with
  | nil => exact h.1 hang rfl
  | cons effect newer ih => exact ih h.2

end Run

/-- **Monitor-owned time is never reported as hang time**: in every run with
a monotone ANR clock each ANR report is `Covered`, the check baseline is
never later than the latest clock reading, and with an armed watchdog every
capture after which the loop goes on is one observed interval of work. -/
theorem anr_reports_exclude_monitor_work (env : Env) (ctx : Context)
    (hm : Monotone env.clock) (rounds : Nat) : (∀ newer older hang,
      (eventLoop env ctx rounds).1.effects = newer ++ .capture .anr hang :: older →
      Covered hang older) ∧
    (eventLoop env ctx rounds).1.lastAnrCheck ≤
      env.clock ((eventLoop env ctx rounds).1.clockReads - 1) ∧
    (ctx.reportEnabled .anr = true → ctx.shm = true → ctx.anrConfig.isSome = true →
      (eventLoop env ctx rounds).2 = none → Settled env (eventLoop env ctx rounds).1.effects) := by
  have h := @accounts_eventLoop env ctx hm rounds
  refine ⟨?_, h.last_le, ?_⟩
  · intro newer older hang heq
    have hcov := h.covered
    rw [heq] at hcov
    exact reportsCovered_split hcov
  · intro hanr hshm hconfig hnone
    obtain ⟨cfg, hcfg⟩ := Option.isSome_iff_exists.mp hconfig
    exact (watching_eventLoop hanr hshm hcfg hnone).settled

/-- A producer that never beats again, on a clock that ticks every 20 ms; the
first event is a snapshot. -/
def stalledEnv : Env where
  clock := fun n => n * 20000000
  heartbeat := fun _ => some 5
  wait := fun k => if k = 0 then some .snapshot else none
  captured := fun _ => true
  taskControlFailure := fun _ => none
  replyError := fun _ => none

/-- ANR detection on, without warmup. -/
def stalledContext : Context where
  reportEnabled := fun _ => true
  shm := true
  anrConfig := some ⟨0, 30, 10, 1000⟩

/-- Sixty milliseconds after the baseline, forty are reported: the snapshot in
between took the other twenty. -/
theorem stalled_report_covered : Monotone stalledEnv.clock ∧
    (∃ newer older, (eventLoop stalledEnv stalledContext 2).1.effects =
      newer ++ .capture .anr (some 40) :: older ∧ Covered (some 40) older ∧
      workSince 5 (observations older) = 20000000) ∧
    Settled stalledEnv (eventLoop stalledEnv stalledContext 2).1.effects := by
  have hm : Monotone stalledEnv.clock := fun a b h => Nat.mul_le_mul_right 20000000 h
  have heq : (eventLoop stalledEnv stalledContext 2).1.effects =
      [.observe (.work 80000000 (some 5) 100000000), .submitBackground] ++
        .capture .anr (some 40) ::
          [.observe (.check 60000000 (some 5) (some 40) 80000000), .wait (some 30000000),
            .observe (.work 20000000 (some 5) 40000000), .submitBackground, .capture .snapshot none,
            .wait (some 10000000), .observe (.start (some 5) 0)] := by
    decide
  have htheorem := anr_reports_exclude_monitor_work stalledEnv stalledContext hm 2
  exact ⟨hm, ⟨_, _, heq, htheorem.1 _ _ _ heq, by decide⟩, htheorem.2.2 rfl rfl rfl (by decide)⟩

end CrashMonitor.EventLoop
