import CrashMonitor.Lib.MachineInt

/-!
# Watchdog — state machine

The ANR watchdog of `watchdog.rs`: a five-field state, advanced by
`updateWatchdogState` once per check and by `rebaseAfterMonitorWork`
after every interval in which the monitor itself was working. Heartbeat
counters and millisecond counts are `u64` in the source and `Nat` here,
with the one saturating addition that can reach the bound kept explicit.
`Instant`s are nanoseconds on the monitor's clock.
-/

namespace CrashMonitor.Watchdog

open MachineInt

/-- Whether sampling after monitor work keeps the elapsed application time
from before it. -/
inductive MonitorWorkRebase where
  | preserveElapsed
  | resetElapsed
  deriving DecidableEq, Repr

/-- Latest representable `Instant`: `checked_add` fails beyond it. -/
def instantMax : Nat := (2 ^ 64 - 1) * 1000000000 + 999999999

/-- `Instant::checked_add`. -/
def instantCheckedAdd (instant duration : Nat) : Option Nat :=
  if instant + duration ≤ instantMax then some (instant + duration) else none

/-- Move an ANR check baseline forward by exactly the monitor-owned
interval, and never past its end. -/
def excludeMonitorWorkFromAnrClock (lastCheck monitorWorkStarted monitorWorkFinished : Nat) : Nat :=
  let excluded := monitorWorkFinished - monitorWorkStarted
  match instantCheckedAdd lastCheck excluded with
  | none => monitorWorkFinished
  | some adjusted =>
    if adjusted > monitorWorkFinished then monitorWorkFinished else adjusted

/-- The watchdog's state. -/
structure WatchdogState where
  initialWarmupMs : Nat
  warmupRemainingMs : Nat
  prevHeartbeat : Option Nat
  hangAccumulatedMs : Nat
  cooldownRemainingMs : Nat
  deriving DecidableEq, Repr

namespace WatchdogState

/-- The state when monitoring begins; `none` leaves the watchdog unarmed
until a heartbeat is seen. -/
def new (warmupMs : Nat) (initialHeartbeat : Option Nat) : WatchdogState where
  initialWarmupMs := warmupMs
  warmupRemainingMs := warmupMs
  prevHeartbeat := initialHeartbeat
  hangAccumulatedMs := 0
  cooldownRemainingMs := 0

/-- Losing producer readiness: warmup starts over, cooldown is dropped. -/
def disarm (state : WatchdogState) : WatchdogState := { state with
    warmupRemainingMs := state.initialWarmupMs
    prevHeartbeat := none
    hangAccumulatedMs := 0
    cooldownRemainingMs := 0 }

/-- Spend application time on whichever grace budget is active: warmup
first, and cooldown only once warmup is used up. -/
def consumeActiveGrace (state : WatchdogState) (elapsedMs : Nat) : WatchdogState :=
  if state.warmupRemainingMs > 0 then
    { state with warmupRemainingMs := state.warmupRemainingMs - elapsedMs }
  else if state.cooldownRemainingMs > 0 then
    { state with cooldownRemainingMs := state.cooldownRemainingMs - elapsedMs }
  else state

/-- New heartbeat baseline after monitor-owned work. -/
def rebaseAfterMonitorWork (state : WatchdogState) (currentHeartbeat : Option Nat)
    (applicationElapsedBeforeMonitorMs : Nat) : MonitorWorkRebase × WatchdogState :=
  match currentHeartbeat with
  | none => (.resetElapsed, state.disarm)
  | some current =>
    match state.prevHeartbeat with
    | none => (.resetElapsed, { state with prevHeartbeat := some current })
    | some previous =>
      if previous ≠ current then
        (.resetElapsed, { state.consumeActiveGrace applicationElapsedBeforeMonitorMs with
            prevHeartbeat := some current
            hangAccumulatedMs := 0 })
      else (.preserveElapsed, state)

end WatchdogState

/-- One tick: the hang duration to report, if an ANR fires, and the next
state. The tick that crosses a warmup or cooldown boundary is still
excluded as a whole. -/
def updateWatchdogState (state : WatchdogState)
    (currentHeartbeat : Option Nat) (elapsedMs thresholdMs cooldownMs : Nat) :
    Option Nat × WatchdogState :=
  match currentHeartbeat with
  | none => (none, state.disarm)
  | some current =>
    match state.prevHeartbeat with
    | none => (none, { state with prevHeartbeat := some current })
    | some previous =>
      if state.warmupRemainingMs > 0 then
        (none, { state with
          warmupRemainingMs := state.warmupRemainingMs - elapsedMs
          prevHeartbeat := some current
          hangAccumulatedMs := 0 })
      else if state.cooldownRemainingMs > 0 then
        (none, { state with
          cooldownRemainingMs := state.cooldownRemainingMs - elapsedMs
          prevHeartbeat := some current
          hangAccumulatedMs := 0 })
      else if current = previous then
        let hang := saturatingAdd state.hangAccumulatedMs elapsedMs
        if hang ≥ thresholdMs then
          (some hang, { state with
            cooldownRemainingMs := cooldownMs
            hangAccumulatedMs := 0
            prevHeartbeat := some current })
        else
          (none, { state with
            hangAccumulatedMs := hang
            prevHeartbeat := some current })
      else
        (none, { state with
          hangAccumulatedMs := 0
          prevHeartbeat := some current })

/-! ## What a call can do to the hang -/

namespace WatchdogState

/-- Without a baseline no hang is accumulated. -/
def NoIdleHang (state : WatchdogState) : Prop :=
  state.prevHeartbeat = none → state.hangAccumulatedMs = 0

end WatchdogState

section Update

variable (state : WatchdogState) (heartbeat : Option Nat) (elapsedMs thresholdMs cooldownMs : Nat)

theorem updateWatchdogState_prev : (updateWatchdogState state heartbeat elapsedMs thresholdMs
      cooldownMs).2.prevHeartbeat = heartbeat := by
  unfold updateWatchdogState
  split
  · rfl
  split
  · rfl
  · dsimp only
    split_ifs <;> rfl

/-- With the same heartbeat as before, the hang grows by the elapsed time at
most. -/
theorem updateWatchdogState_hang_le (h : heartbeat = state.prevHeartbeat) :
    (updateWatchdogState state heartbeat elapsedMs thresholdMs
      cooldownMs).2.hangAccumulatedMs ≤ state.hangAccumulatedMs + elapsedMs := by
  have hadd := saturatingAdd_le state.hangAccumulatedMs elapsedMs
  unfold updateWatchdogState
  subst h
  split
  · simp [WatchdogState.disarm]
  · dsimp only
    split_ifs <;> simp_all

/-- A changed heartbeat starts a new hang. -/
theorem updateWatchdogState_hang_eq_zero (hs : state.NoIdleHang)
    (h : heartbeat ≠ state.prevHeartbeat ∨ heartbeat = none) :
    (updateWatchdogState state heartbeat elapsedMs thresholdMs
      cooldownMs).2.hangAccumulatedMs = 0 := by
  unfold updateWatchdogState
  split
  · rfl
  rename_i current
  split
  · exact hs ‹_›
  rename_i previous hprev
  have hne : current ≠ previous := by
    rintro rfl
    simp [hprev] at h
  split_ifs <;> rfl

/-- A report needs two equal heartbeats in a row, and never exceeds the hang
accumulated before plus the elapsed time. -/
theorem updateWatchdogState_reported {duration}
    (h : (updateWatchdogState state heartbeat elapsedMs thresholdMs cooldownMs).1 = some duration) :
    heartbeat.isSome ∧ heartbeat = state.prevHeartbeat ∧
      duration ≤ state.hangAccumulatedMs + elapsedMs := by
  have hadd := saturatingAdd_le state.hangAccumulatedMs elapsedMs
  unfold updateWatchdogState at h
  split at h
  · cases h
  split at h
  · cases h
  rename_i hprev
  dsimp only at h
  split_ifs at h with hw hc heq hfire
  subst heq
  cases h
  exact ⟨rfl, hprev.symm, hadd⟩

end Update

section Rebase

variable (state : WatchdogState) (heartbeat : Option Nat) (elapsedMs : Nat)

theorem rebaseAfterMonitorWork_prev :
    (state.rebaseAfterMonitorWork heartbeat elapsedMs).2.prevHeartbeat = heartbeat := by
  unfold WatchdogState.rebaseAfterMonitorWork
  split
  · rfl
  split
  · rfl
  split_ifs with h
  · rfl
  · simp_all

/-- Elapsed time is kept exactly when the same heartbeat is seen again, and
then the state is unchanged. -/
theorem rebaseAfterMonitorWork_same (hsome : heartbeat.isSome)
    (h : heartbeat = state.prevHeartbeat) :
    state.rebaseAfterMonitorWork heartbeat elapsedMs = (.preserveElapsed, state) := by
  obtain ⟨current, rfl⟩ := Option.isSome_iff_exists.mp hsome
  simp [WatchdogState.rebaseAfterMonitorWork, ← h]

theorem rebaseAfterMonitorWork_changed (hs : state.NoIdleHang)
    (h : heartbeat ≠ state.prevHeartbeat ∨ heartbeat = none) :
    (state.rebaseAfterMonitorWork heartbeat elapsedMs).1 = .resetElapsed ∧
      (state.rebaseAfterMonitorWork heartbeat elapsedMs).2.hangAccumulatedMs = 0 := by
  unfold WatchdogState.rebaseAfterMonitorWork
  split
  · exact ⟨rfl, rfl⟩
  rename_i current
  split
  · exact ⟨rfl, hs ‹_›⟩
  rename_i previous hprev
  have hne : previous ≠ current := by
    rintro rfl
    simp [hprev] at h
  rw [if_pos hne]
  exact ⟨rfl, rfl⟩

end Rebase

/-- The baseline moves forward by the monitor's interval and stays at or
before its end. -/
theorem excludeMonitorWorkFromAnrClock_bounds {lastCheck started finished}
    (h1 : lastCheck ≤ started) (h2 : started ≤ finished) :
    lastCheck + (finished - started) ≤
        excludeMonitorWorkFromAnrClock lastCheck started finished ∧
      excludeMonitorWorkFromAnrClock lastCheck started finished ≤ finished := by
  unfold excludeMonitorWorkFromAnrClock instantCheckedAdd
  dsimp only
  split_ifs
  · dsimp only
    split <;> omega
  · dsimp only
    omega

end CrashMonitor.Watchdog
