import CrashMonitor.Capture.Isolation

/-!
# Capturing an event

`CaptureWorker::capture` (`pipeline/worker.rs`) and the synchronous path
`Pipeline::capture_event` (`pipeline/mod.rs`): suspend, copy the shared
memory, collect, release. The local variable that holds the guard is part of
what the suspended part returns, and is dropped after it, as it is in the
source at every exit.

Timestamps, the emergency snapshot and the contents of the collected data are
left out: nothing here reads them.
-/

namespace CrashMonitor.Capture

open Interleave EventLoop Shm

/-! ## Outcomes -/

structure RawShmSnapshot where
  breadcrumbs : List UInt8
  context : List UInt8

structure CapturedEvent (D : Type) where
  event : CrashEvent
  data : D
  rawShm : Option RawShmSnapshot
  ownedShmSnapshot : Option OwnedShmSnapshot
  ownedCollectorsDeferred : Bool
  diagnostics : Diagnostics

inductive CaptureOutcome (D : Type) where
  | captured (captured : CapturedEvent D)
  | skipped (diagnostics : Diagnostics)

variable {D : Type}

section

variable (outcome : CaptureOutcome D) (snapshot : Option OwnedShmSnapshot)

def CaptureOutcome.diagnostics : CaptureOutcome D → Diagnostics
  | .captured payload => payload.diagnostics
  | .skipped diagnostics => diagnostics

/-- `CapturedEvent::with_report_context`: no thread right leaves the capture. -/
def CapturedEvent.withReportContext (event : CrashEvent) (data : D)
    (rawShm : Option RawShmSnapshot) (diagnostics : Diagnostics) : CapturedEvent D where
  event := { event with crashedThread := none, bailOnSuspendFailure := false }
  data
  rawShm
  ownedShmSnapshot := none
  ownedCollectorsDeferred := false
  diagnostics

def rawShmFromSnapshot (persistRawShm : Bool) : Option RawShmSnapshot :=
  if !persistRawShm then none
  else snapshot.map fun snapshot =>
    { breadcrumbs := (snapshot.range section2Offset section2Size).getD []
      context := (snapshot.range contextOffset
        (crashContextSize + settingsSize)).getD [] }

def attachOwnedSnapshot : CaptureOutcome D :=
  match outcome with
  | .captured captured => .captured { captured with
      ownedShmSnapshot := snapshot
      ownedCollectorsDeferred := true }
  | .skipped diagnostics => .skipped diagnostics

def deferOwnedIfIsolated (isolated : Bool)
    (snapshot : Option OwnedShmSnapshot) : CaptureOutcome D :=
  if isolated then attachOwnedSnapshot outcome snapshot else outcome

def withTaskControlDiagnostics (suspendError snapshotError : Option String)
    (sink : TaskControlFailureSink) : CaptureOutcome D :=
  let extend (diagnostics : Diagnostics) : Diagnostics :=
    sink.drainInto (diagnostics ++
      (suspendError.map fun error => ("CaptureSuspend", .error error)).toList ++
      (snapshotError.map fun error => ("ShmSnapshot", .error error)).toList)
  match outcome with
  | .captured captured => .captured { captured with diagnostics := extend captured.diagnostics }
  | .skipped diagnostics => .skipped (extend diagnostics)

end

section Outcomes

variable [Inhabited D]

def minimalCapture (event : CrashEvent) (status : PluginStatus)
    (rawShm : Option RawShmSnapshot) : CaptureOutcome D :=
  .captured (.withReportContext event default rawShm [("CaptureWorker", status)])

def timedOutCapture (event : CrashEvent) (rawShm : Option RawShmSnapshot) : CaptureOutcome D :=
  minimalCapture event .timedOut rawShm

def failedCapture (event : CrashEvent) (reason : String)
    (rawShm : Option RawShmSnapshot) : CaptureOutcome D :=
  minimalCapture event (.error reason) rawShm

end Outcomes

/-! ## The shared-memory copy -/

def debugStruct (name : String) (fields : List (String × Nat)) : String :=
  name ++ " \x7b " ++ ", ".intercalate (fields.map fun f => f.1 ++ ": " ++ toString f.2) ++ " \x7d"

/-- The derived `Debug` of `ShmConsistencyIssue`. -/
def debugIssue : ShmConsistencyIssue → String
  | .breadcrumbRegistry before after countBefore countAfter =>
    debugStruct "BreadcrumbRegistry" [("generation_before", before),
      ("generation_after", after), ("ring_count_before", countBefore),
      ("ring_count_after", countAfter)]
  | .breadcrumbRing index before after =>
    debugStruct "BreadcrumbRing" [("index", index),
      ("generation_before", before), ("generation_after", after)]
  | .context before after =>
    debugStruct "Context" [("generation_before", before), ("generation_after", after)]
  | .settings before after =>
    debugStruct "Settings" [("generation_before", before), ("generation_after", after)]
  | .attachments before after =>
    debugStruct "Attachments" [("generation_before", before), ("generation_after", after)]
  | .screenshotSlot index before after =>
    debugStruct "ScreenshotSlot" [("index", index),
      ("generation_before", before), ("generation_after", after)]

def snapshotConsistencyError (snapshot : OwnedShmSnapshot) : Option String :=
  snapshot.consistencyIssues.head?.map fun first =>
    "shared-memory snapshot contained " ++
      toString snapshot.consistencyIssues.length ++
      " unstable publication unit(s); affected bytes were sanitized; " ++
      "first issue: " ++ debugIssue first

variable (pipeline : Pipeline)

def Pipeline.snapshotPolicy : ShmSnapshotPolicy :=
  let hasCollector (name : String) := pipeline.collectors.any (·.name = name)
  let policy := pipeline.collectionPolicy
  { breadcrumbs := policy.persistRawShm || hasCollector "BreadcrumbCollector"
    context := policy.persistRawShm || hasCollector "ContextCollector"
    attachments :=
      policy.captureShmAttachments && hasCollector "AttachmentCollector"
    screenshots :=
      policy.captureShmScreenshots && hasCollector "ScreenshotCollector" }

/-- `snapshot_shm_while_suspended` and what its callers make of the result:
the snapshot and the error to report. -/
def Pipeline.snapshotShmWhileSuspended (deadline : Option Nat) :
    P D (Option OwnedShmSnapshot × Option String) := do
  if !pipeline.shm then return (none, none)
  match ← perform (.snapshotShm deadline pipeline.snapshotPolicy) with
  | .ok snapshot => return (some snapshot, snapshotConsistencyError snapshot)
  | .error error => return (none, some ("shared-memory snapshot failed: " ++ error))

variable (guard : Option TaskSuspendGuard)

/-- The copy is made only by the owner of a suspension. -/
def Pipeline.snapshotIfSuspended (deadline : Nat) : P D (Option OwnedShmSnapshot × Option String) :=
  if guard.isSome then pipeline.snapshotShmWhileSuspended (some deadline)
  else return (none, none)

/-! ## The worker -/

structure CaptureWorker where
  isolated : Bool
  /-- whether the channel to the in-process worker is open -/
  sender : Bool
  unavailableReason : Option String

variable (worker : CaptureWorker)

def CaptureWorker.retire (reason : String) : CaptureWorker :=
  { worker with sender := false, unavailableReason := some reason }

/-- `finish_suspend`. -/
def finishSuspend (sink : TaskControlFailureSink) :
    P D (Option TaskSuspendGuard × TaskControlFailureSink) := do
  match guard with
  | some guard =>
    let sink ← guard.finish sink
    return (none, sink)
  | none => return (none, sink)

/-- Contain the task, through the guard if there is one. -/
def containSuspend (task : Nat) (reason : String) : P D TaskControlFailureSink :=
  match guard with
  | some guard => guard.containWithoutResume reason []
  | none => containTaskWithoutResume task reason []

/-- The drop of the variable that may still hold the guard. -/
def dropGuard (sink : TaskControlFailureSink) : P D TaskControlFailureSink := do
  match guard with
  | some guard => guard.drop sink
  | none => return sink

/-- What the isolated path allocates before it suspends; `none` on the other
path, and no request if no collector needs the task. -/
def CaptureWorker.prepareIsolatedJob (event : CrashEvent) :
    P D (Except String (Option (Option TaskCaptureRequest))) := do
  if !worker.isolated then return .ok none
  match TaskCaptureRequest.fromPipeline pipeline event with
  | .error error => return .error error
  | .ok none => return .ok (some none)
  | .ok (some request) =>
    match ← perform .createResultFile with
    | .error error => return .error ("cannot create capture-helper result file: " ++ error)
    | .ok () => return .ok (some (some request))

/-- What the suspended part of a capture leaves behind. -/
structure Suspended (D : Type) where
  outcome : CaptureOutcome D
  worker : CaptureWorker
  guard : Option TaskSuspendGuard
  sink : TaskControlFailureSink

variable [Inhabited D]

variable (decode : Decoder D) (rounds : Nat)

section

variable (event : CrashEvent) (task deadline : Nat)
  (isolatedJob : Option (Option TaskCaptureRequest)) (guard : Option TaskSuspendGuard)
  (suspendError : Option String)

/-- Without a request there is nothing to run. -/
def runIsolatedJob (request : Option TaskCaptureRequest) (task deadline : Nat) :
    P D (Option (IsolatedCaptureOutcome D)) :=
  match request with
  | some request => runIsolatedCapture decode rounds request task deadline
  | none => return some (.completed default [])

/-- The `match` on the outcome of the helper. -/
def concludeIsolated
    (snapshot : Option OwnedShmSnapshot) (isolatedOutcome : IsolatedCaptureOutcome D) :
    P D (CaptureOutcome D × Option TaskSuspendGuard × TaskControlFailureSink) := do
  let rawShm := rawShmFromSnapshot snapshot pipeline.collectionPolicy.persistRawShm
  match isolatedOutcome with
  | .completed data plugins =>
    let (guard, sink) ← finishSuspend guard []
    return (.captured (.withReportContext event data rawShm plugins), guard, sink)
  | .timedOut =>
    let (guard, sink) ← finishSuspend guard []
    return (timedOutCapture event rawShm, guard, sink)
  | .failed error =>
    let (guard, sink) ← finishSuspend guard []
    return (failedCapture event error rawShm, guard, sink)
  | .cleanupUnproven error =>
    let reason := "capture-helper cleanup could not be proven; " ++ "refusing to resume: " ++ error
    let sink ← containSuspend guard task reason
    return (failedCapture event reason rawShm, none, sink)

/-- The in-process worker: hand the job over, wait for its result. -/
def CaptureWorker.captureInProcess (snapshot : Option OwnedShmSnapshot) : P D (Suspended D) := do
  let rawShm := rawShmFromSnapshot snapshot pipeline.collectionPolicy.persistRawShm
  if !worker.sender then
    let (guard, sink) ← finishSuspend guard []
    return ⟨failedCapture event "capture worker is unavailable" rawShm, worker, guard, sink⟩
  if !(← perform (.trySend event snapshot)) then
    let (guard, sink) ← finishSuspend guard []
    return ⟨failedCapture event "capture worker queue unavailable" rawShm,
      worker.retire "capture worker queue unavailable", guard, sink⟩
  let now ← perform .now
  match ← perform (.recvTimeout (deadline - now)) with
  | .ok payload =>
    let (guard, sink) ← finishSuspend guard []
    return ⟨.captured (.withReportContext event payload.data rawShm
      payload.diagnostics), worker, guard, sink⟩
  | .error .timeout =>
    -- a collector that returns now must not start another one
    perform .cancelWorker
    let (guard, sink) ← finishSuspend guard []
    return ⟨timedOutCapture event rawShm,
      worker.retire "capture worker exceeded absolute deadline", guard, sink⟩
  | .error .disconnected =>
    perform .cancelWorker
    let (guard, sink) ← finishSuspend guard []
    return ⟨failedCapture event "capture worker disconnected" rawShm,
      worker.retire "capture worker disconnected", guard, sink⟩

/-- From the suspension to the return. -/
def CaptureWorker.captureSuspended : P D (Option (Suspended D)) := do
  if deadline ≤ (← perform .now) then
    let (guard, sink) ← finishSuspend guard []
    let outcome := deferOwnedIfIsolated (timedOutCapture event none) worker.isolated none
    return some ⟨withTaskControlDiagnostics outcome suspendError none sink, worker, guard, sink⟩
  let (snapshot, snapshotError) ← pipeline.snapshotIfSuspended guard deadline
  if deadline ≤ (← perform .now) then
    let (guard, sink) ← finishSuspend guard []
    let outcome := deferOwnedIfIsolated (timedOutCapture event (rawShmFromSnapshot snapshot
        pipeline.collectionPolicy.persistRawShm)) worker.isolated snapshot
    return some ⟨withTaskControlDiagnostics outcome suspendError snapshotError
      sink, worker, guard, sink⟩
  match isolatedJob with
  | some request =>
    match ← runIsolatedJob decode rounds request task deadline with
    | none => return none
    | some isolatedOutcome =>
      let (outcome, guard, sink) ←
        concludeIsolated pipeline event task guard snapshot isolatedOutcome
      let outcome := attachOwnedSnapshot outcome snapshot
      return some ⟨withTaskControlDiagnostics outcome suspendError
        snapshotError sink, worker, guard, sink⟩
  | none =>
    let suspended ← worker.captureInProcess pipeline event deadline guard snapshot
    return some { suspended with
      outcome := withTaskControlDiagnostics suspended.outcome suspendError
        snapshotError suspended.sink }

/-- The suspended part, with the guard's variable dropped at its end. -/
def CaptureWorker.captureOwning : P D (Option (CaptureOutcome D × CaptureWorker)) := do
  match ← worker.captureSuspended pipeline decode rounds event task deadline
      isolatedJob guard suspendError with
  | none => return none
  | some suspended =>
    let _ ← dropGuard suspended.guard suspended.sink
    return some (suspended.outcome, suspended.worker)

end

/-- `CaptureWorker::capture`: the outcome and the worker afterwards. -/
def CaptureWorker.capture (event : CrashEvent) (task deadline : Nat) :
    P D (Option (CaptureOutcome D × CaptureWorker)) := do
  if !pipeline.reportEnabled event.reportType then
    return some (.skipped [], worker)
  match ← perform .resolveOutputRoot with
  | .error error => return some (.skipped [("ReportContext", .error error)], worker)
  | .ok () =>
  if deadline ≤ (← perform .now) then
    return some (deferOwnedIfIsolated (timedOutCapture event none) worker.isolated none, worker)
  match worker.unavailableReason with
  | some reason => return some (failedCapture event reason none, worker)
  | none =>
  match ← worker.prepareIsolatedJob pipeline event with
  | .error error =>
    return some (deferOwnedIfIsolated (failedCapture event error none) true none, worker)
  | .ok isolatedJob =>
  match ← TaskSuspendGuard.acquire task with
  | .error error =>
    if event.bailOnSuspendFailure then
      return some (.skipped [("CaptureSuspend", .error error)], worker)
    else
      worker.captureOwning pipeline decode rounds event task deadline isolatedJob none (some error)
  | .ok guard =>
    worker.captureOwning pipeline decode rounds event task deadline isolatedJob (some guard) none

/-! ## The synchronous path -/

/-- `Pipeline::capture_event`. -/
def Pipeline.captureEvent (event : CrashEvent) (task : Nat) : P D (CaptureOutcome D) := do
  if !pipeline.reportEnabled event.reportType then return .skipped []
  match ← perform .resolveOutputRoot with
  | .error error => return .skipped [("ReportContext", .error error)]
  | .ok () =>
  match ← TaskSuspendGuard.acquire task with
  | .error error =>
    let diagnostics : Diagnostics := [("CaptureSuspend", .error error)]
    if event.bailOnSuspendFailure then return .skipped diagnostics
    else
      let payload ← perform (.collectSnapshot event task none)
      return .captured (.withReportContext event payload.data
        none (diagnostics ++ payload.diagnostics))
  | .ok guard =>
    let (snapshot, snapshotError) ← pipeline.snapshotShmWhileSuspended none
    let diagnostics : Diagnostics :=
      (snapshotError.map fun error => ("ShmSnapshot", .error error)).toList
    let payload ← perform (.collectSnapshot event task snapshot)
    let sink ← guard.finish []
    return .captured (.withReportContext event payload.data
      (rawShmFromSnapshot snapshot pipeline.collectionPolicy.persistRawShm)
      (diagnostics ++ sink.drainInto payload.diagnostics))

end CrashMonitor.Capture
