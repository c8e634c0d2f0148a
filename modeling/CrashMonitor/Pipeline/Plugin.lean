import CrashMonitor.Capture.Worker
import CrashMonitor.Store.Manifest

/-!
# Plugins of the report pipeline

What a plugin is to the pipeline (`pipeline/traits.rs`), the data it works on
(`pipeline/types.rs`), and the guarded runner that turns whatever happens
inside it into a status (`pipeline/safety.rs`).

Everything a plugin may read or change outside the values it is handed is one
world `W`: the file system, the artifact transaction, the clock, and the
plugin's own memory. The evidence items of a capture are a type `E`; the
pipeline only moves them around.
-/

namespace CrashMonitor.Pipeline

open Capture EventLoop Store

/-! ## Events and data -/

structure CrashEvent extends Capture.CrashEvent where
  reportId : ReportId
  termination : Option TerminationReason
  pid : Nat
  processName : String

def CrashEvent.isCrash (event : CrashEvent) : Bool := event.reportType = .crash

/-- The build fields shared by `BuildInfo` and the crash context of the
shared memory. -/
structure BuildInfo where
  appVersion : String
  buildNumber : String
  gitHash : String
  buildType : String
  deriving DecidableEq, Repr

structure RawData (E : Type) where
  threads : List E
  images : List E
  memoryMap : List E
  heap : Option E
  breadcrumbs : List E
  crashContext : Option BuildInfo
  settingsSnapshot : Option E
  attachments : List E
  attachmentRegistrations : List E
  screenshots : List E
  environment : Option E
  processOutput : Option E

def RawData.empty {E : Type} : RawData E where
  threads := []
  images := []
  memoryMap := []
  heap := none
  breadcrumbs := []
  crashContext := none
  settingsSnapshot := none
  attachments := []
  attachmentRegistrations := []
  screenshots := []
  environment := none
  processOutput := none

structure SessionReport where
  sessionId : String
  deriving DecidableEq, Repr

structure CollectedData (E : Type) where
  raw : RawData E
  session : Option SessionReport
  fingerprint : Option String
  buildInfo : Option BuildInfo
  duplicateDetected : Bool

def CollectedData.empty {E : Type} : CollectedData E where
  raw := .empty
  session := none
  fingerprint := none
  buildInfo := none
  duplicateDetected := false

/-- `merge_owned_collected_data`: lists are joined, and a value already
present stays. -/
def mergeOwnedCollectedData {E : Type} (target owned : CollectedData E) : CollectedData E :=
  { target with
    raw := { target.raw with
      breadcrumbs := target.raw.breadcrumbs ++ owned.raw.breadcrumbs
      crashContext := target.raw.crashContext <|> owned.raw.crashContext
      settingsSnapshot := target.raw.settingsSnapshot <|> owned.raw.settingsSnapshot
      attachments := target.raw.attachments ++ owned.raw.attachments
      attachmentRegistrations :=
        target.raw.attachmentRegistrations ++ owned.raw.attachmentRegistrations
      screenshots := target.raw.screenshots ++ owned.raw.screenshots
      environment := target.raw.environment <|> owned.raw.environment
      processOutput := target.raw.processOutput <|> owned.raw.processOutput } }

structure ReportResult where
  artifactPaths : List Path
  rawPath : Option Path
  jsonPath : Option Path
  session : Option SessionReport

/-- `ReportContext`, with the root the report is assembled in. -/
structure ReportContext where
  outputRoot : Path
  reportId : ReportId
  reportType : ReportType
  pid : Nat
  processName : String

def ReportContext.new (event : CrashEvent) (outputRoot : Path) : ReportContext where
  outputRoot := outputRoot
  reportId := event.reportId
  reportType := event.reportType
  pid := event.pid
  processName := event.processName

def ReportContext.stagingDir (context : ReportContext) : Path :=
  context.outputRoot ++ [stagingName context.reportId]

structure CapturedEvent (E : Type) where
  event : CrashEvent
  reportContext : Option ReportContext
  data : CollectedData E
  rawShm : Option RawShmSnapshot
  ownedShmSnapshot : Option Shm.OwnedShmSnapshot
  ownedCollectorsDeferred : Bool
  diagnostics : Diagnostics

def CapturedEvent.setTermination {E : Type} (captured : CapturedEvent E)
    (reason : Option TerminationReason) : CapturedEvent E :=
  { captured with event := { captured.event with termination := reason } }

/-! ## Diagnostics -/

def PluginStatus.succeeded : PluginStatus → Bool
  | .ok => true
  | .partially _ => true
  | _ => false

/-- `Diagnostics::succeeded`. -/
def succeeded (diagnostics : Diagnostics) (name : String) : Bool :=
  diagnostics.any fun d => d.1 == name && PluginStatus.succeeded d.2

/-- `deps_satisfied`. -/
def depsSatisfied (deps : List String) (diagnostics : Diagnostics) : Bool :=
  deps.all fun dep => succeeded diagnostics dep

/-! ## The guarded runner -/

inductive PluginExecution where
  | cooperative
  | subprocess
  deriving DecidableEq, Repr

inductive PluginRunResult (α : Type) where
  | completed (value : α)
  | failed (error : String)
  | panicked (message : String)
  | timedOut

def PluginRunResult.intoOption {α : Type} : PluginRunResult α → Option α
  | .completed value => some value
  | .failed _ => none
  | .panicked _ => none
  | .timedOut => none

/-- How the closure of a plugin can end. -/
inductive BodyResult (α : Type) where
  | ok (value : α)
  | err (error : String)
  | panic (message : String)

/-- What the runner finds after the closure: its result, the state of the
subprocess supervisor, and whether the deadline or the cancellation fired. -/
structure Invocation (α : Type) where
  body : BodyResult α
  subprocessCleanupFailure : Option String
  isTimedOut : Bool
  subprocessBoundarySatisfied : Bool

section Runner

variable {α S : Type}

/-- The classification at the end of `run_plugin_cooperative`. -/
def Invocation.classify (invocation : Invocation α) : PluginRunResult α :=
  match invocation.subprocessCleanupFailure with
  | some error => .failed error
  | none =>
    if invocation.isTimedOut then .timedOut
    else
      match invocation.body with
      | .ok value => .completed value
      | .err error => .failed error
      | .panic message => .panicked message

def undeclaredBoundary (name : String) : String :=
  s!"plugin {name} declared Subprocess but did not use the subprocess supervisor"

/-- `enforce_execution_boundary`. -/
def enforceExecutionBoundary (name : String) (execution : PluginExecution)
    (satisfied : Bool) (result : PluginRunResult α) : PluginRunResult α :=
  if execution = .subprocess ∧ satisfied = false then
    match result with
    | .completed _ => .failed (undeclaredBoundary name)
    | .failed _ => .failed (undeclaredBoundary name)
    | .panicked message => .panicked message
    | .timedOut => .timedOut
  else result

/-- `run_plugin_cooperative` behind the boundary check. A context that has
expired before the start keeps the closure from running, and no subprocess
was used then. -/
def runStage (name : String) (execution : PluginExecution) (timedOutBefore : Bool)
    (body : S → Invocation α × S) (s : S) : PluginRunResult α × S :=
  if timedOutBefore then (enforceExecutionBoundary name execution false .timedOut, s)
  else
    let run := body s
    (enforceExecutionBoundary name execution run.1.subprocessBoundarySatisfied
      run.1.classify, run.2)

/-- `plugin_status`. -/
def pluginStatus : PluginRunResult α → PluginStatus
  | .completed _ => .ok
  | .failed error => .error error
  | .panicked message => .panic message
  | .timedOut => .timedOut

/-- `filter_status`. -/
def filterStatus (name : String) : PluginRunResult Bool → PluginStatus
  | .completed true => .ok
  | .completed false => .rejected s!"{name} rejected the event"
  | .failed error => .error error
  | .panicked message => .panic message
  | .timedOut => .timedOut

end Runner

/-! ## Plugins -/

inductive Priority where
  | critical
  | high
  | medium
  | low
  deriving DecidableEq, Repr

/-- The metadata of the `Plugin` trait. No plugin overrides `id`, which is
the name. -/
structure Plugin where
  name : String
  execution : PluginExecution
  priority : Priority
  hardDependencies : List String
  orderAfter : List String
  isAvailable : Bool
  timeout : PluginTimeout

inductive PostProcessorPhase where
  | beforeCommit
  | afterCommit
  | afterNotify
  | finalCleanup
  deriving DecidableEq, Repr

section

variable (W E : Type)

structure Filter extends Plugin where
  shouldProcess : CrashEvent → Option Nat → W → Invocation Bool × W

structure Collector extends Plugin where
  access : CollectorAccess
  collect : CrashEvent → Nat → Option Shm.OwnedShmSnapshot → Option Nat →
    CollectedData E → W → Invocation Unit × CollectedData E × W

structure PreProcessor extends Plugin where
  process : CrashEvent → Option Nat → CollectedData E → W → Invocation Unit × CollectedData E × W

structure PostProcessor extends Plugin where
  phase : PostProcessorPhase
  process : CrashEvent → Option Nat → ReportResult → W → Invocation Unit × ReportResult × W

structure Notifier extends Plugin where
  notify : Path → Option Nat → W → Invocation Unit × W

end

end CrashMonitor.Pipeline
