import CrashMonitor.Watchdog.State

/-!
# Event loop — the machine

`event_loop` of `event_loop.rs` as a state machine. Everything the loop
learns from outside is an `Env`: the successive readings of the ANR clock,
the successive heartbeat reads, what `wait_until` returned, and the
outcomes of captures, replies and task-control checks. Every call takes
the next element of its stream, so the order of calls in the source is the
order of readings here. What the loop does is its list of `Effect`s,
newest first; the observations the ANR accounting rests on are among them.
-/

namespace CrashMonitor.EventLoop

open MachineInt Watchdog

/-! ## Vocabulary -/

inductive ReportType where
  | crash
  | anr
  | snapshot
  | exitFailure
  | signalFailure
  | oom
  deriving DecidableEq, Repr

/-- `ReportType::as_str`, which is also the name serde gives it. -/
def ReportType.asStr : ReportType → String
  | .crash => "crash"
  | .anr => "anr"
  | .snapshot => "snapshot"
  | .exitFailure => "exit_failure"
  | .signalFailure => "signal_failure"
  | .oom => "oom"

inductive TerminationReason where
  | exited (exitCode : Int) (runtimeMs : Nat)
  | signaled (signal : Int) (coreDumped : Bool) (runtimeMs : Nat)
  deriving DecidableEq, Repr

/-- Mach exception classes the monitor subscribes to
(`exception_policy(..).subscribed`). -/
def subscribed (exceptionType : Nat) : Bool := exceptionType ∈ [1, 2, 3, 6, 10, 12]

/-- What `wait_until` can return. A Mach request is named by a number; it
carries the rights that the reply and the drop act on. -/
inductive MonitorEvent where
  | crash (exceptionType : Nat) (request : Nat)
  | snapshot
  | shutdownSignal (signal : Int)
  | childTerminated (reason : TerminationReason)
  | monitorFailure (message : String)
  | listenerFailure (message : String)
  deriving DecidableEq, Repr

inductive MonitorOutcome where
  | childTerminated (reason : TerminationReason)
  | detectedCrash
  | shutdownRequested (signal : Int)
  | monitorFailure (message : String)
  deriving DecidableEq, Repr

structure EventLoopResult where
  outcome : MonitorOutcome
  /-- whether a crash finalization was started -/
  crashFinalization : Bool
  crashCleanupRequired : Bool
  listenerLossContainmentRequired : Bool
  deriving DecidableEq, Repr

structure AnrConfig where
  warmupMs : Nat
  thresholdMs : Nat
  checkIntervalMs : Nat
  cooldownMs : Nat
  deriving DecidableEq, Repr

/-- The fixed part of `EventLoopContext`; `shm` says whether a mapping is
present. -/
structure Context where
  reportEnabled : ReportType → Bool
  shm : Bool
  anrConfig : Option AnrConfig

/-- Everything the loop reads, as streams. -/
structure Env where
  /-- successive `anr_clock.now()` readings, in nanoseconds -/
  clock : Nat → Nat
  /-- successive `read_live_anr_heartbeat()` results -/
  heartbeat : Nat → Option Nat
  /-- successive `wait_until` results -/
  wait : Nat → Option MonitorEvent
  /-- whether the successive captures returned `Captured` -/
  captured : Nat → Bool
  /-- successive `task_control_monitor_failure` results -/
  taskControlFailure : Nat → Option String
  /-- errors of the successive replies -/
  replyError : Nat → Option String

/-- A heartbeat sample together with the clock readings around it. -/
inductive Observation where
  /-- the first baseline -/
  | start (heartbeat : Option Nat) (time : Nat)
  /-- a watchdog check: the reading its elapsed time ends at, the sample,
  the hang it reported, and the reading the next interval starts at -/
  | check (time : Nat) (heartbeat : Option Nat) (detected : Option Nat) (next : Nat)
  /-- monitor-owned work and the sample taken at its end -/
  | work (started : Nat) (heartbeat : Option Nat) (finished : Nat)
  deriving DecidableEq, Repr

inductive Effect where
  | wait (deadline : Option Nat)
  | observe (observation : Observation)
  | capture (reportType : ReportType) (hangDurationMs : Option Nat)
  | submitBackground
  | reply (request : Nat) (error : Option String)
  | dropRequest (request : Nat)
  | startCrashFinalization
  | finalizeContained (captured : Bool)
  | finalizeTermination (reportType : ReportType)
  | detachCapture
  | detachBackground
  | shutdownCapture
  | shutdownBackground
  deriving DecidableEq, Repr

structure LoopState where
  anrState : Option WatchdogState
  lastAnrCheck : Nat
  clockReads : Nat
  heartbeatReads : Nat
  waits : Nat
  captures : Nat
  controlChecks : Nat
  replies : Nat
  effects : List Effect

/-! ## Calls -/

variable (env : Env)

def emit (effect : Effect) (s : LoopState) : LoopState := { s with effects := effect :: s.effects }

/-- `anr_clock.now()`. -/
def now (s : LoopState) : Nat × LoopState :=
  (env.clock s.clockReads, { s with clockReads := s.clockReads + 1 })

/-- `shm.read_live_anr_heartbeat()`. -/
def readLiveAnrHeartbeat (s : LoopState) : Option Nat × LoopState :=
  (env.heartbeat s.heartbeatReads, { s with heartbeatReads := s.heartbeatReads + 1 })

/-- `source.wait_until(deadline)`. -/
def waitUntil (deadline : Option Nat) (s : LoopState) : Option MonitorEvent × LoopState :=
  (env.wait s.waits, emit (.wait deadline) { s with waits := s.waits + 1 })

/-- `capture_worker.capture(..)`; the answer is whether it captured. -/
def capture (reportType : ReportType) (hangDurationMs : Option Nat)
    (s : LoopState) : Bool × LoopState := (env.captured s.captures,
    emit (.capture reportType hangDurationMs) { s with captures := s.captures + 1 })

def taskControlMonitorFailure (s : LoopState) : Option String × LoopState :=
  (env.taskControlFailure s.controlChecks, { s with controlChecks := s.controlChecks + 1 })

/-- `reply_fn(&mut request)` followed by `drop(request)`. -/
def replyAndDrop (request : Nat) (s : LoopState) : Option String × LoopState :=
  let error := env.replyError s.replies
  (error, emit (.dropRequest request)
    (emit (.reply request error) { s with replies := s.replies + 1 }))

def detachWorkers (s : LoopState) : LoopState := emit .detachBackground (emit .detachCapture s)

def shutdownWorkers (s : LoopState) : LoopState :=
  emit .shutdownBackground (emit .shutdownCapture s)

def asMillis (nanoseconds : Nat) : Nat := nanoseconds / 1000000

variable (ctx : Context)

/-- `finish_anr_monitor_work`: account for monitor-owned work that began at
`monitorWorkStarted`. -/
def finishAnrMonitorWork (monitorWorkStarted : Nat) (s : LoopState) : LoopState :=
  match s.anrState with
  | none => s
  | some state =>
    if ctx.shm then
      let applicationElapsedBeforeMonitorMs :=
        tryFromOrMax (asMillis (monitorWorkStarted - s.lastAnrCheck))
      let (heartbeat, s) := readLiveAnrHeartbeat env s
      let (rebase, state) := state.rebaseAfterMonitorWork heartbeat
        applicationElapsedBeforeMonitorMs
      let (monitorWorkFinished, s) := now env s
      emit (.observe (.work monitorWorkStarted heartbeat monitorWorkFinished)) { s with
          anrState := some state
          lastAnrCheck := match rebase with
            | .preserveElapsed => excludeMonitorWorkFromAnrClock
                s.lastAnrCheck monitorWorkStarted monitorWorkFinished
            | .resetElapsed => monitorWorkFinished }
    else s

/-! ## Handlers

One per arm of the loop's `match`. A result ends the loop; `none` goes
round again. -/

abbrev Step := LoopState × Option EventLoopResult

def finish (outcome : MonitorOutcome) (s : LoopState) : Step :=
  (s, some ⟨outcome, false, false, false⟩)

/-- A Mach exception. -/
def onCrash (exceptionType request : Nat) (s : LoopState) : Step :=
  if !subscribed exceptionType then
    let (replyResult, s) := replyAndDrop env request s
    match replyResult with
    | some error =>
      (detachWorkers s, some
        ⟨.monitorFailure ("failed to reject ignored Mach exception: " ++ error),
          false, true, false⟩)
    | none => (s, none)
  else
    let (captured, s) :=
      if ctx.reportEnabled .crash then capture env .crash none s
      else (false, s)
    let (replyResult, s) := replyAndDrop env request s
    let (taskControlFailure, s) := taskControlMonitorFailure env s
    let s := detachWorkers s
    let s := if captured then emit .startCrashFinalization s else s
    let outcome := match taskControlFailure, replyResult with
      | none, none => MonitorOutcome.detectedCrash
      | none, some error => .monitorFailure
          ("failed to send deferred Mach exception reply: " ++ error)
      | some message, none => .monitorFailure message
      | some message, some error => .monitorFailure
          (message ++ "; failed to send deferred Mach exception reply: " ++ error)
    (s, some ⟨outcome, captured, true, false⟩)

/-- What follows a snapshot or ANR capture: stop if task control was lost,
otherwise hand the capture to the background worker and settle the ANR
clock. -/
def afterCapture (captured : Bool) (monitorWorkStarted : Nat) (s : LoopState) : Step :=
  let (taskControlFailure, s) := taskControlMonitorFailure env s
  match taskControlFailure with
  | some message =>
    finish (.monitorFailure message) (emit .detachBackground
        (emit (.finalizeContained captured) (emit .detachCapture s)))
  | none =>
    let s := if captured then emit .submitBackground s else s
    (finishAnrMonitorWork env ctx monitorWorkStarted s, none)

/-- A manual snapshot. -/
def onSnapshot (s : LoopState) : Step :=
  if !ctx.reportEnabled .snapshot then (s, none)
  else
    let (monitorWorkStarted, s) := now env s
    let (captured, s) := capture env .snapshot none s
    afterCapture env ctx captured monitorWorkStarted s

/-- `termination_report_type`. -/
def terminationReportType : TerminationReason → Option ReportType
  | .exited exitCode _ =>
    if exitCode = 0 then none
    else if ctx.reportEnabled .exitFailure then some .exitFailure
    else none
  | .signaled signal _ _ =>
    if signal = 9 ∧ ctx.reportEnabled .oom then some .oom
    else if ctx.reportEnabled .signalFailure then some .signalFailure
    else none

/-- The child is gone. -/
def onChildTerminated (reason : TerminationReason) (s : LoopState) : Step :=
  let s := match terminationReportType ctx reason with
    | some reportType => emit (.finalizeTermination reportType) s
    | none => s
  finish (.childTerminated reason) (shutdownWorkers s)

/-- No event: the inline ANR check. -/
def onIdle (s : LoopState) : Step :=
  match s.anrState, ctx.shm, ctx.anrConfig with
  | some state, true, some cfg =>
    let (checkedAt, s) := now env s
    let elapsed := asU64 (asMillis (checkedAt - s.lastAnrCheck))
    if elapsed ≥ cfg.checkIntervalMs then
      let (heartbeat, s) := readLiveAnrHeartbeat env s
      let (detected, state) := updateWatchdogState state heartbeat elapsed
        cfg.thresholdMs cfg.cooldownMs
      let (next, s) := now env s
      let s := emit (.observe (.check checkedAt heartbeat detected next))
        { s with anrState := some state, lastAnrCheck := next }
      match detected with
      | none => (s, none)
      | some hangDurationMs =>
        let (captured, s) := capture env .anr (some hangDurationMs) s
        afterCapture env ctx captured next s
    else (s, none)
  | _, _, _ => (s, none)

/-- The deadline handed to `wait_until`. -/
def nextWatchdogCheck (s : LoopState) : Option Nat :=
  match s.anrState, ctx.anrConfig with
  | some _, some cfg => instantCheckedAdd s.lastAnrCheck (cfg.checkIntervalMs * 1000000)
  | _, _ => none

/-- One round of the loop. -/
def iteration (s : LoopState) : Step :=
  let (event, s) := waitUntil env (nextWatchdogCheck ctx s) s
  match event with
  | some (.crash exceptionType request) => onCrash env ctx exceptionType request s
  | some .snapshot => onSnapshot env ctx s
  | some (.shutdownSignal signal) => finish (.shutdownRequested signal) (shutdownWorkers s)
  | some (.childTerminated reason) => onChildTerminated ctx reason s
  | some (.listenerFailure message) =>
    (shutdownWorkers s, some ⟨.monitorFailure message, false, false, true⟩)
  | some (.monitorFailure message) => finish (.monitorFailure message) (shutdownWorkers s)
  | none => onIdle env ctx s

/-- The state before the first round. The heartbeat is read before the
clock. -/
def start : LoopState :=
  let s : LoopState := ⟨none, 0, 0, 0, 0, 0, 0, 0, []⟩
  match ctx.reportEnabled .anr, ctx.shm, ctx.anrConfig with
  | true, true, some cfg =>
    let (heartbeat, s) := readLiveAnrHeartbeat env s
    let (lastAnrCheck, s) := now env s
    emit (.observe (.start heartbeat lastAnrCheck)) { s with
        anrState := some (WatchdogState.new cfg.warmupMs heartbeat)
        lastAnrCheck := lastAnrCheck }
  | _, _, _ =>
    let (lastAnrCheck, s) := now env s
    { s with lastAnrCheck := lastAnrCheck }

/-- The loop after at most `rounds` rounds. A finished loop stays as it
is. -/
def eventLoop (ctx : Context) : Nat → Step
  | 0 => (start env ctx, none)
  | rounds + 1 =>
    match eventLoop ctx rounds with
    | (s, some result) => (s, some result)
    | (s, none) => iteration env ctx s

end CrashMonitor.EventLoop
