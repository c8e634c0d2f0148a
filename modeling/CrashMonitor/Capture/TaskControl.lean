import CrashMonitor.Lib.Trace
import CrashMonitor.Shm.Snapshot
import CrashMonitor.EventLoop.Machine

/-!
# Owned task suspension

The calls a capture makes on its surroundings, as atomic calls with any
answer, and the guard over them (`platform/task_control.rs`): a successful
`suspend_task` is owned by one `TaskSuspendGuard`, and releasing it is a
bounded sequence of resume attempts with termination as the last resort.

The collected data is a parameter `D`; nothing here looks into it.
-/

namespace CrashMonitor.Capture

open Interleave EventLoop Shm List

/-! ## Vocabulary -/

/-- The fields of `CrashEvent` a capture reads. -/
structure CrashEvent where
  reportType : ReportType
  crashedThread : Option Nat
  bailOnSuspendFailure : Bool
  deriving DecidableEq, Repr

inductive TaskCollectorKind where
  | thread
  | memory
  | dylib
  deriving DecidableEq, Repr

structure TaskCollectorSpec where
  kind : TaskCollectorKind
  timeout : Option Nat
  deriving DecidableEq, Repr

structure TaskCaptureRequest where
  version : Nat
  event : CrashEvent
  captureStackMemory : Bool
  collectors : List TaskCollectorSpec
  expectCrashedThread : Bool
  deriving DecidableEq, Repr

inductive PluginStatus where
  | ok
  | partially (reason : String)
  | rejected (reason : String)
  | error (error : String)
  | panic (payload : String)
  | timedOut
  | skipped (reason : String)
  deriving DecidableEq, Repr

/-- The names and statuses of `Diagnostics::plugins`, oldest first. -/
abbrev Diagnostics := List (String × PluginStatus)

inductive TaskRecoveryAction where
  | resumed
  | terminated
  | escalationRequired
  deriving DecidableEq, Repr

structure TaskControlFailure where
  task : Nat
  resumeAttempts : Nat
  resumeErrors : List String
  recovery : TaskRecoveryAction
  terminationError : Option String
  deriving DecidableEq, Repr

def TaskRecoveryAction.debug : TaskRecoveryAction → String
  | .resumed => "Resumed"
  | .terminated => "Terminated"
  | .escalationRequired => "EscalationRequired"

/-- `impl Display for TaskControlFailure`. -/
def TaskControlFailure.display (failure : TaskControlFailure) : String :=
  "task " ++ toString failure.task ++ " resume attempted " ++
    toString failure.resumeAttempts ++ " time(s); recovery=" ++
    failure.recovery.debug ++ (match failure.resumeErrors.getLast? with
      | some error => "; last resume error: " ++ error
      | none => "") ++
    (match failure.terminationError with
      | some error => "; termination failed: " ++ error
      | none => "")

inductive Errno where
  | eintr
  | echild
  | esrch
  /-- any other error, by its displayed text -/
  | other (text : String)
  deriving DecidableEq, Repr

def Errno.display : Errno → String
  | .eintr => "EINTR: Interrupted system call"
  | .echild => "ECHILD: No child processes"
  | .esrch => "ESRCH: No such process"
  | .other text => text

inductive WaitStatus where
  | exited (status : Int)
  | signaled (signal : Int) (coreDumped : Bool)
  | stopped
  | continued
  | stillAlive
  deriving DecidableEq, Repr

structure CaptureHelperSpawnError where
  message : String
  cleanupUnproven : Bool
  deriving DecidableEq, Repr

inductive RecvTimeoutError where
  | timeout
  | disconnected
  deriving DecidableEq, Repr

/-- What a collector run hands back. -/
structure CollectedPayload (D : Type) where
  data : D
  diagnostics : Diagnostics

/-! ## Calls -/

inductive Op where
  | resolveOutputRoot
  | now
  | createResultFile
  | suspendTask (task : Nat)
  | resumeTask (task : Nat)
  | terminateTask (task : Nat)
  | recordTaskControlFailure (failure : TaskControlFailure)
  | snapshotShm (deadline : Option Nat) (policy : ShmSnapshotPolicy)
  | currentExe
  | encodeRequest (request : TaskCaptureRequest)
  | spawnCaptureHelper (executable request : String) (task : Nat)
      (crashedThread : Option Nat) (timeout : Nat)
  | waitpid (pid : Nat)
  | kill (pid : Nat)
  | sleep (duration : Nat)
  | resultLength
  | rewindResult
  | readResult
  | trySend (event : CrashEvent) (snapshot : Option OwnedShmSnapshot)
  | recvTimeout (timeout : Nat)
  | cancelWorker
  | collectSnapshot (event : CrashEvent) (task : Nat) (snapshot : Option OwnedShmSnapshot)

abbrev Op.Res (D : Type) : Op → Type
  | .resolveOutputRoot => Except String Unit
  | .now => Nat
  | .createResultFile => Except String Unit
  | .suspendTask _ => Except String Unit
  | .resumeTask _ => Except String Unit
  | .terminateTask _ => Except String Unit
  | .recordTaskControlFailure _ => Unit
  | .snapshotShm _ _ => Except String OwnedShmSnapshot
  | .currentExe => Except String String
  | .encodeRequest _ => Except String String
  | .spawnCaptureHelper _ _ _ _ _ => Except CaptureHelperSpawnError Nat
  | .waitpid _ => Except Errno WaitStatus
  | .kill _ => Except Errno Unit
  | .sleep _ => Unit
  | .resultLength => Except String Nat
  | .rewindResult => Except String Unit
  | .readResult => Except String (List UInt8)
  | .trySend _ _ => Bool
  | .recvTimeout _ => Except RecvTimeoutError (CollectedPayload D)
  | .cancelWorker => Unit
  | .collectSnapshot _ _ _ => CollectedPayload D

abbrev captureSig (D : Type) : Sig := ⟨Op, Op.Res D⟩

/-- A capture program. -/
abbrev P (D : Type) := Prog (captureSig D)

variable {D : Type}

/-- Make one call. -/
abbrev perform (o : Op) : P D (o.Res D) := @Prog.op (captureSig D) o

/-! ## The guard -/

/-- `RESUME_ATTEMPT_LIMIT`. -/
def resumeAttemptLimit : Nat := 3

/-- Owns one successful `suspend_task`. -/
structure TaskSuspendGuard where
  task : Nat
  active : Bool

/-- The failures a capture and its guard share. -/
abbrev TaskControlFailureSink := List TaskControlFailure

def TaskControlFailureSink.drainInto (sink : TaskControlFailureSink)
    (diagnostics : Diagnostics) : Diagnostics :=
  diagnostics ++ sink.map fun failure => ("TaskResume", .error failure.display)

/-- `failure_sink.record` and `platform.record_task_control_failure`. -/
def recordFailure (failure : TaskControlFailure)
    (sink : TaskControlFailureSink) : P D TaskControlFailureSink := do
  perform (.recordTaskControlFailure failure)
  return sink ++ [failure]

/-- What a termination attempt leaves. -/
def terminationOutcome : Except String Unit → TaskRecoveryAction × Option String
  | .ok () => (.terminated, none)
  | .error error => (.escalationRequired, some error)

def containTaskWithoutResume (task : Nat) (reason : String)
    (sink : TaskControlFailureSink) : P D TaskControlFailureSink := do
  let (recovery, terminationError) := terminationOutcome (← perform (.terminateTask task))
  recordFailure ⟨task, 0, [reason], recovery, terminationError⟩ sink

/-- `TaskSuspendGuard::acquire`. -/
def TaskSuspendGuard.acquire (task : Nat) : P D (Except String TaskSuspendGuard) := do
  match ← perform (.suspendTask task) with
  | .ok () => return .ok ⟨task, true⟩
  | .error error => return .error error

/-- The `for` loop of `release`, with `left` attempts to go, and the
termination after it. -/
def resumeAttempts (task : Nat) (sink : TaskControlFailureSink) :
    (left : Nat) → (attempts : Nat) → (errors : List String) → P D TaskControlFailureSink
  | 0, attempts, errors => do
    let (recovery, terminationError) := terminationOutcome (← perform (.terminateTask task))
    recordFailure ⟨task, attempts, errors, recovery, terminationError⟩ sink
  | left + 1, attempts, errors => do
    match ← perform (.resumeTask task) with
    | .ok () =>
      if errors.isEmpty then return sink
      else recordFailure ⟨task, attempts + 1, errors, .resumed, none⟩ sink
    | .error error => resumeAttempts task sink left (attempts + 1) (errors ++ [error])

variable (guard : TaskSuspendGuard)

/-- `TaskSuspendGuard::release`, also what dropping a guard does. -/
def TaskSuspendGuard.release (sink : TaskControlFailureSink) :
    P D (TaskSuspendGuard × TaskControlFailureSink) := do
  if !guard.active then return (guard, sink)
  let sink ← resumeAttempts guard.task sink resumeAttemptLimit 0 []
  return ({ guard with active := false }, sink)

def TaskSuspendGuard.drop (sink : TaskControlFailureSink) : P D TaskControlFailureSink := do
  let (_, sink) ← guard.release sink
  return sink

/-- `finish` consumes the guard, which is dropped at its end. -/
def TaskSuspendGuard.finish (sink : TaskControlFailureSink) : P D TaskControlFailureSink := do
  let (guard, sink) ← guard.release sink
  guard.drop sink

def TaskSuspendGuard.containWithoutResume (reason : String) (sink : TaskControlFailureSink) :
    P D TaskControlFailureSink := do
  let guard := { guard with active := false }
  let sink ← containTaskWithoutResume guard.task reason sink
  guard.drop sink

/-! ## What releasing does -/

/-- A call of a capture with its answer. -/
abbrev CaptureEvent (D : Type) := Event (captureSig D)

abbrev CaptureEvent.of (o : Op) (answer : o.Res D) : CaptureEvent D := ⟨o, answer⟩

/-- The calls a release makes, with the failure it records: resume attempts
that stop at the first success, at most three of them, and one termination
attempt if all three failed. A failure is recorded if one attempt failed. -/
inductive Resumes (task : Nat) : List (CaptureEvent D) → List TaskControlFailure → Prop where
  | first : Resumes task [.of (.resumeTask task) (.ok ())] []
  | retried {errors failure} (hsome : errors ≠ []) (hleft : errors.length < resumeAttemptLimit)
      (hfailure : failure = ⟨task, errors.length + 1, errors, .resumed, none⟩) : Resumes task
        (errors.map (fun error => .of (.resumeTask task) (.error error)) ++
          [.of (.resumeTask task) (.ok ()), .of (.recordTaskControlFailure failure) ()]) [failure]
  | exhausted {errors failure result} (hall : errors.length = resumeAttemptLimit)
      (hfailure : failure = ⟨task, errors.length, errors,
        (terminationOutcome result).1, (terminationOutcome result).2⟩) : Resumes task
        (errors.map (fun error => .of (.resumeTask task) (.error error)) ++
          [.of (.terminateTask task) result, .of (.recordTaskControlFailure failure) ()]) [failure]

/-- The calls of a containment: one termination attempt and its record. -/
inductive Contains (task : Nat) (reason : String) :
    List (CaptureEvent D) → List TaskControlFailure → Prop where
  | terminated {failure : TaskControlFailure} {result : Except String Unit}
      (hfailure : failure = ⟨task, 0, [reason],
        (terminationOutcome result).1, (terminationOutcome result).2⟩) : Contains task reason
        [.of (.terminateTask task) result, .of (.recordTaskControlFailure failure) ()] [failure]

variable {h : List (CaptureEvent D)} {task : Nat} {sink : TaskControlFailureSink}

section

variable {guard : TaskSuspendGuard} {reason : String}

/-- The attempts after those of `errors`, which all failed. -/
theorem resumeAttempts_from {left errors}
    (hleft : errors.length + left = resumeAttemptLimit) : Prog.From
      (h ++ errors.map fun error => .of (.resumeTask task) (.error error))
      (resumeAttempts task sink left errors.length errors : P D _)
      fun t sink' => ∃ calls failures, t = h ++ calls ∧
        sink' = sink ++ failures ∧ Resumes task calls failures := by
  induction left generalizing errors with
  | zero =>
    -- all attempts are used up
    intro result recorded
    refine ⟨_, _, ?_, rfl, .exhausted (by omega) rfl⟩
    rw [append_assoc, append_assoc]
    rfl
  | succ left ih =>
    intro answer
    cases answer with
    | ok u =>
      show Prog.From _ (if errors.isEmpty then _ else _) _
      apply Prog.From.ite
      · intro hempty
        rw [List.isEmpty_iff] at hempty
        subst hempty
        exact ⟨_, [], by rw [map_nil, append_nil], (append_nil _).symm, .first⟩
      · intro hsome recorded
        rw [List.isEmpty_iff] at hsome
        refine ⟨_, _, ?_, rfl, .retried hsome (by omega) rfl⟩
        rw [append_assoc, append_assoc]
        rfl
    | error error =>
      have hnext := @ih (errors ++ [error]) (by
        rw [length_append, length_singleton]
        omega)
      rw [map_append, ← append_assoc, length_append, length_singleton] at hnext
      exact hnext

theorem release_from (hactive : guard.active = true) : Prog.From h (guard.release sink : P D _)
      fun t r => r.1.active = false ∧ ∃ calls failures, t = h ++ calls ∧
        r.2 = sink ++ failures ∧ Resumes guard.task calls failures := by
  unfold TaskSuspendGuard.release
  rw [hactive]
  have hfrom := @resumeAttempts_from D h guard.task sink resumeAttemptLimit []
    rfl
  rw [map_nil, append_nil] at hfrom
  exact hfrom.bind fun t sink' hsink => ⟨rfl, hsink⟩

/-- Finishing an active guard resumes as `Resumes` says; dropping what is
left of it does nothing. -/
theorem finish_from (hactive : guard.active = true) : Prog.From h (guard.finish sink : P D _)
      fun t sink' => ∃ calls failures, t = h ++ calls ∧
        sink' = sink ++ failures ∧ Resumes guard.task calls failures := by
  apply (release_from hactive).bind
  rintro t ⟨⟨task, active⟩, sink'⟩ ⟨hinactive, hcalls⟩
  cases hinactive
  exact hcalls

theorem containWithoutResume_from : Prog.From h (guard.containWithoutResume reason sink : P D _)
      fun t sink' => ∃ calls failures, t = h ++ calls ∧
        sink' = sink ++ failures ∧ Contains guard.task reason calls failures := by
  intro result recorded
  refine ⟨_, _, ?_, rfl, .terminated rfl⟩
  rw [append_assoc]
  rfl

theorem containTaskWithoutResume_from :
    Prog.From h (containTaskWithoutResume task reason sink : P D _)
      fun t sink' => ∃ calls failures, t = h ++ calls ∧
        sink' = sink ++ failures ∧ Contains task reason calls failures := by
  intro result recorded
  refine ⟨_, _, ?_, rfl, .terminated rfl⟩
  rw [append_assoc]
  rfl

end

end CrashMonitor.Capture
