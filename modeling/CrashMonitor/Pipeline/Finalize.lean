import CrashMonitor.Pipeline.Plugin
import CrashMonitor.Store.State

/-!
# Collection and finalization

The two long functions of `pipeline/mod.rs`: the collector loop that runs
during a capture or, for owned data, again at its finalization, and
`finalize_captured`, which takes a captured event through filters,
pre-processors, the report, post-processors, commit and notifiers.

The calls that leave the pipeline (the transaction, the writers, the clock)
are `Services`. Besides the diagnostics, a run leaves the list of its steps:
every plugin it reached and every early return.
-/

namespace CrashMonitor

open Capture EventLoop Store

structure TriggerPolicy where
  crash : Bool
  exitFailure : Bool
  signalFailure : Bool
  probableOom : Bool
  anr : Bool
  snapshot : Bool
  deriving DecidableEq, Repr

def TriggerPolicy.allows (triggers : TriggerPolicy) : ReportType → Bool
  | .crash => triggers.crash
  | .snapshot => triggers.snapshot
  | .anr => triggers.anr
  | .oom => triggers.probableOom
  | .exitFailure => triggers.exitFailure
  | .signalFailure => triggers.signalFailure

/-- `Pipeline`; the platform and the live mapping are behind `Services`. -/
structure Pipeline (W E : Type) where
  enabled : Bool
  triggers : TriggerPolicy
  collectionPolicy : CollectionPolicy
  filters : List (Pipeline.Filter W)
  collectors : List (Pipeline.Collector W E)
  preProcessors : List (Pipeline.PreProcessor W E)
  postProcessors : List (Pipeline.PostProcessor W)
  notifiers : List (Pipeline.Notifier W)
  outputDir : Option Path

namespace Pipeline

/-- What the pipeline calls outside its plugins. `isTimedOut` is the first
check of a context created with the given timeout. -/
structure Services (W E : Type) where
  isTimedOut : Option Nat → W → Bool × W
  pendingDir : W → Except String Path × W
  beginShared : ReportContext → W → Except String Unit × W
  writeRawStage1 : List E → W → Invocation Path × W
  writeRawShmStage1 : RawShmSnapshot → W → Invocation Unit × W
  /-- format, build and write the report of an event with its screenshots -/
  writeReport : CrashEvent → CollectedData E → Diagnostics → List E → W → Invocation Path × W
  artifactPaths : W → List Path
  commit : W → Except String CommittedReport × W
  persistFinalDiagnostics : CommittedReport → Diagnostics → W → Except String Unit × W
  releaseThreadPorts : List E → W → W
  releasePublicationLease : W → W
  dropTransaction : W → W

def filterTimeout : Nat := milliseconds 1000
def collectorTimeout : Nat := milliseconds 5000
def preprocTimeout : Nat := milliseconds 2000
def postprocTimeout : Nat := milliseconds 30000
def notifierTimeout : Nat := milliseconds 5000
def stageTimeout : Option Nat := some (milliseconds 5000)

/-! ## Steps of a run -/

/-- The loops that reach plugins. -/
inductive Stage where
  /-- the collectors of a capture inside the monitor -/
  | collect
  /-- the task collectors of a capture helper -/
  | helper
  /-- the collectors left to the finalization -/
  | deferred
  | filter
  | preProcess
  | attachmentCopier
  | postProcess (phase : PostProcessorPhase)
  | notify
  /-- the notifiers of an event without a report file -/
  | unnotified
  deriving DecidableEq, Repr

/-- A plugin reached by a loop: the records of the loop's own diagnostics, all
that the event had recorded by then, whether the plugin was run, and the
status recorded for it. -/
structure Visit where
  stage : Stage
  plugin : Plugin
  consulted : Diagnostics
  seen : Diagnostics
  ran : Bool
  status : PluginStatus

inductive Step where
  | rootUnresolved (error : String)
  | began (result : Except String Unit)
  | reached (visit : Visit)
  | duplicateCheck (detected : Bool)
  | commit (result : Except String CommittedReport)

section

variable (W E : Type)

/-- The values plugins work on. -/
structure Locals where
  world : W
  data : CollectedData E
  result : ReportResult

/-- A run in progress. `earlier` is what the event recorded in another
diagnostics object before this one was made. -/
structure Progress where
  locals : Locals W E
  earlier : Diagnostics
  diagnostics : Diagnostics
  steps : List Step

end

variable {W E : Type}

def ReportResult.empty : ReportResult := ⟨[], none, none, none⟩

namespace Progress

def start (world : W) (data : CollectedData E) (earlier diagnostics : Diagnostics) : Progress W E :=
  ⟨⟨world, data, .empty⟩, earlier, diagnostics, []⟩

variable (s : Progress W E)

/-- `Diagnostics::record`. -/
def record (name : String) (status : PluginStatus) : Progress W E :=
  { s with diagnostics := s.diagnostics ++ [(name, status)] }

def note (step : Step) : Progress W E := { s with steps := s.steps ++ [step] }

def setWorld (world : W) : Progress W E := { s with locals := { s.locals with world := world } }

def setData (data : CollectedData E) : Progress W E :=
  { s with locals := { s.locals with data := data } }

def setResult (result : ReportResult) : Progress W E :=
  { s with locals := { s.locals with result := result } }

/-- All that the event has recorded. -/
def recorded : Diagnostics := s.earlier ++ s.diagnostics

/-- A plugin was reached: the step, its status, and the values after it. -/
def reach (stage : Stage) (plugin : Plugin) (ran : Bool) (status : PluginStatus)
    (locals : Locals W E) : Progress W E :=
  { locals := locals
    earlier := s.earlier
    diagnostics := s.diagnostics ++ [(plugin.name, status)]
    steps := s.steps ++
      [.reached ⟨stage, plugin, s.diagnostics, s.recorded, ran, status⟩] }

def skip (stage : Stage) (plugin : Plugin) (reason : String) : Progress W E :=
  s.reach stage plugin false (.skipped reason) s.locals

end Progress

/-! ## Running plugins -/

/-- A closure of a plugin on the values of the run. -/
abbrev Body (W E α : Type) := Option Nat → Locals W E → Invocation α × Locals W E

def Filter.body (filter : Filter W) (event : CrashEvent) : Body W E Bool := fun timeout l =>
    let run := filter.shouldProcess event timeout l.world
    (run.1, { l with world := run.2 })

def Collector.body (collector : Collector W E) (event : CrashEvent) (task : Nat)
    (snapshot : Option Shm.OwnedShmSnapshot) : Body W E Unit := fun timeout l =>
    let run := collector.collect event task snapshot timeout l.data l.world
    (run.1, { l with data := run.2.1, world := run.2.2 })

def PreProcessor.body (processor : PreProcessor W E) (event : CrashEvent) : Body W E Unit :=
  fun timeout l =>
    let run := processor.process event timeout l.data l.world
    (run.1, { l with data := run.2.1, world := run.2.2 })

def PostProcessor.body (processor : PostProcessor W) (event : CrashEvent) : Body W E Unit :=
  fun timeout l =>
    let run := processor.process event timeout l.result l.world
    (run.1, { l with result := run.2.1, world := run.2.2 })

def Notifier.body (notifier : Notifier W) (path : Path) : Body W E Unit := fun timeout l =>
    let run := notifier.notify path timeout l.world
    (run.1, { l with world := run.2 })

section Run

variable (services : Services W E)

/-- `run_transaction_stage` and `run_cancellable_stage`. -/
def runBody {α : Type} (name : String) (execution : PluginExecution)
    (timeout : Option Nat) (body : Body W E α) (l : Locals W E) : PluginRunResult α × Locals W E :=
  let check := services.isTimedOut timeout l.world
  runStage name execution check.1 (body timeout) { l with world := check.2 }

/-- A plugin is run and its status recorded. -/
def runPlugin (stage : Stage) (plugin : Plugin) (categoryDefault : Nat)
    (body : Body W E Unit) (s : Progress W E) : Progress W E :=
  let run := runBody services plugin.name plugin.execution
    (plugin.timeout.resolve categoryDefault) body s.locals
  s.reach stage plugin true (pluginStatus run.1) run.2

/-- The body of the plugin loops: availability, hard dependencies, run. -/
def visit (stage : Stage) (unmet : String) (plugin : Plugin) (categoryDefault : Nat)
    (body : Body W E Unit) (s : Progress W E) : Progress W E :=
  if !plugin.isAvailable then s.skip stage plugin "not available"
  else if !depsSatisfied plugin.hardDependencies s.diagnostics then
    s.skip stage plugin unmet
  else runPlugin services stage plugin categoryDefault body s

def hardDependencyNotMet : String := "hard dependency not met"
def dependencyNotMet : String := "dependency not met"

/-! ## Collectors -/

/-- The loop of `collect_snapshot_by_access`. -/
def collectLoop (stage : Stage) (event : CrashEvent) (task : Nat)
    (cancelled : W → Bool × W) (snapshot : Option Shm.OwnedShmSnapshot)
    (access : Option CollectorAccess) : List (Collector W E) → Progress W E → Progress W E
  | [], s => s
  | collector :: rest, s =>
    if access.any fun wanted => collector.access ≠ wanted then
      collectLoop stage event task cancelled snapshot access rest s
    else
      let check := cancelled s.locals.world
      let s := s.setWorld check.2
      if check.1 then s.record "CaptureDeadline" .timedOut
      else
        collectLoop stage event task cancelled snapshot access rest
          (visit services stage dependencyNotMet collector.toPlugin collectorTimeout
            (collector.body event task snapshot) s)

/-- The loop of `run_capture_helper` in the helper process: every requested
collector is run, without a check of its execution boundary. -/
def helperLoop (event : CrashEvent) (task : Nat) :
    List (Collector W E) → Progress W E → Progress W E
  | [], s => s
  | collector :: rest, s =>
    let run := runBody services collector.name .cooperative
      (collector.timeout.resolve defaultCollectorTimeout) (collector.body event task none) s.locals
    helperLoop event task rest (s.reach .helper collector.toPlugin true (pluginStatus run.1) run.2)

end Run

variable (pipeline : Pipeline W E) (services : Services W E)

def reportEnabled (reportType : ReportType) : Bool :=
  pipeline.enabled && pipeline.triggers.allows reportType

/-- `collect_snapshot_by_access`: the run after the loop, and the raw copy of
the shared memory. Thread rights do not outlive it. -/
def collectSnapshotByAccess (stage : Stage) (event : CrashEvent) (task : Nat)
    (cancelled : W → Bool × W) (snapshot : Option Shm.OwnedShmSnapshot)
    (access : Option CollectorAccess) (earlier : Diagnostics) (world : W) :
    Progress W E × Option RawShmSnapshot :=
  if !pipeline.reportEnabled event.reportType then
    (Progress.start world .empty earlier [], none)
  else
    let s := collectLoop services stage event task cancelled snapshot access
      pipeline.collectors (Progress.start world .empty earlier [])
    let check := cancelled s.locals.world
    let rawShm :=
      if check.1 then none
      else rawShmFromSnapshot snapshot pipeline.collectionPolicy.persistRawShm
    (s.setWorld (services.releaseThreadPorts s.locals.data.raw.threads check.2), rawShm)

variable (captured : CapturedEvent E)

/-- `collect_owned_snapshot_for_worker`, joined to the run it belongs to. The
flag it passes is never set. -/
def runDeferredCollectors (s : Progress W E) : Progress W E :=
  if captured.ownedCollectorsDeferred then
    let owned := (pipeline.collectSnapshotByAccess services .deferred captured.event 0
      (fun world => (false, world)) captured.ownedShmSnapshot (some .ownedSnapshot)
      s.recorded s.locals.world).1
    { locals := {
        world := owned.locals.world
        data := mergeOwnedCollectedData s.locals.data owned.locals.data
        result := s.locals.result }
      earlier := s.earlier
      diagnostics := s.diagnostics ++ owned.diagnostics
      steps := s.steps ++ owned.steps }
  else s

/-! ## Finalization -/

/-- The filter loop; the second component says whether the event passed. -/
def runFilters (event : CrashEvent) : List (Filter W) → Progress W E → Progress W E × Bool
  | [], s => (s, true)
  | filter :: rest, s =>
    if !filter.isAvailable then
      runFilters event rest (s.skip .filter filter.toPlugin "not available")
    else if !depsSatisfied filter.hardDependencies s.diagnostics then
      runFilters event rest (s.skip .filter filter.toPlugin hardDependencyNotMet)
    else
      let run := runBody services filter.name filter.execution
        (filter.timeout.resolve filterTimeout) (filter.body event) s.locals
      let s := s.reach .filter filter.toPlugin true (filterStatus filter.name run.1) run.2
      if run.1.intoOption.getD true then runFilters event rest s else (s, false)

def attachmentCopierName : String := "AttachmentCopier"

variable (event : CrashEvent)

section

variable (processors : List (PreProcessor W E)) (report : CommittedReport) (s : Progress W E)

/-- The pre-processor loop, which leaves the copier for later. -/
def runPreProcessors : Progress W E :=
  (processors.filter (·.name ≠ attachmentCopierName)).foldl (fun s processor =>
    visit services .preProcess dependencyNotMet processor.toPlugin preprocTimeout
      (processor.body event) s) s

/-- The copier runs once the event is known to be published. -/
def runAttachmentCopier : Progress W E :=
  (processors.filter (·.name = attachmentCopierName)).foldl (fun s processor =>
    runPlugin services .attachmentCopier processor.toPlugin preprocTimeout
      (processor.body event) s) s

/-- The post-processor loop of one phase. -/
def runPostProcessors (phase : PostProcessorPhase) (processors : List (PostProcessor W))
    (s : Progress W E) : Progress W E :=
  (processors.filter (·.phase = phase)).foldl (fun s processor =>
    visit services (.postProcess phase) hardDependencyNotMet processor.toPlugin
      postprocTimeout (processor.body event) s) s

/-- The notifier loops: without a report file every notifier is skipped. -/
def runNotifiers (notifiers : List (Notifier W)) (s : Progress W E) : Progress W E :=
  match s.locals.result.jsonPath with
  | some path =>
    notifiers.foldl (fun s notifier =>
      visit services .notify hardDependencyNotMet notifier.toPlugin notifierTimeout
        (notifier.body path) s) s
  | none =>
    notifiers.foldl (fun s notifier =>
      s.skip .unnotified notifier.toPlugin "no final report artifact") s

/-- A writer stage of the pipeline itself, which records no status. -/
def runWriter {α : Type} (name : String) (write : W → Invocation α × W)
    (s : Progress W E) : Option α × Progress W E :=
  let run := runBody services name .cooperative stageTimeout (fun _ l =>
    let written := write l.world
    (written.1, { l with world := written.2 })) s.locals
  (run.1.intoOption, { s with locals := run.2 })

/-- `remap_committed_path`. -/
def remapCommittedPath (path staging committed : Path) : Option Path :=
  if staging.isPrefixOf path ∧ (path.drop staging.length).length = 1 then
    some (committed ++ path.drop staging.length)
  else none

/-- The directory of a committed report. -/
def reportDir : Path := report.root ++ [report.reportId.text]

def remapResult (result : ReportResult) (staging committed : Path) : ReportResult := { result with
    rawPath := result.rawPath.bind fun path => remapCommittedPath path staging committed
    jsonPath := result.jsonPath.bind fun path => remapCommittedPath path staging committed
    artifactPaths := result.artifactPaths.filterMap fun path =>
      remapCommittedPath path staging committed }

/-- What `finalize_captured` leaves. -/
structure Finalized (W : Type) where
  world : W
  diagnostics : Diagnostics
  reportPath : Option Path
  steps : List Step

/-- Every return after the transaction began drops it. -/
def Progress.leave : Finalized W where
  world := services.dropTransaction s.locals.world
  diagnostics := s.diagnostics
  reportPath := none
  steps := s.steps

/-- `persist_final_diagnostics`; there is nothing to persist without a
record. -/
def persistFinalDiagnostics (report : CommittedReport) (s : Progress W E) : Progress W E :=
  if s.diagnostics.isEmpty then s
  else
    let persisted := services.persistFinalDiagnostics report s.diagnostics s.locals.world
    let s := s.setWorld persisted.2
    match persisted.1 with
    | .ok () => s
    | .error error => s.record "FinalDiagnostics" (.error error)

/-- Every warning of the commit becomes a record. -/
def recordWarnings : Progress W E := report.durabilityWarnings.foldl (fun s warning =>
    s.record "ArtifactDurability" (.error warning)) s

end

section

variable (staging : Path) (rawPath : Option Path) (s : Progress W E)

/-- The plugins of a committed report. -/
def runCommittedStages : Progress W E :=
  let s := runPostProcessors services event .afterCommit pipeline.postProcessors s
  let s := runNotifiers services pipeline.notifiers s
  let s := runPostProcessors services event .afterNotify pipeline.postProcessors s
  runPostProcessors services event .finalCleanup pipeline.postProcessors s

/-- `finalize_captured` after a successful commit. -/
def afterCommit (report : CommittedReport) (s : Progress W E) : Finalized W :=
  let s := recordWarnings report s
  let s := s.setResult (remapResult s.locals.result staging (reportDir report))
  let s := pipeline.runCommittedStages services event s
  let s := persistFinalDiagnostics services report s
  let s := s.setWorld (services.releasePublicationLease s.locals.world)
  { s.leave services with reportPath := s.locals.result.jsonPath }

/-- The commit and what follows it. -/
def commitReport : Finalized W :=
  let committed := services.commit s.locals.world
  let s := (s.setWorld committed.2).note (.commit committed.1)
  match committed.1 with
  | .error error => (s.record "ArtifactCommit" (.error error)).leave services
  | .ok report => pipeline.afterCommit services event staging report s

/-- Stage 2: the report and its screenshots, which are taken out of the
data. -/
def writeStage2 : Progress W E :=
  let screenshots := s.locals.data.raw.screenshots
  let s := s.setData { s.locals.data with
    raw := { s.locals.data.raw with screenshots := [] } }
  let written := runWriter services "Stage2Json"
    (services.writeReport event s.locals.data s.diagnostics screenshots) s
  written.2.setResult {
    artifactPaths := services.artifactPaths written.2.locals.world
    rawPath := rawPath
    jsonPath := written.1
    session := written.2.locals.data.session }

/-- From the duplicate check on: copy, write the report, post-process,
commit. -/
def publish : Finalized W :=
  let s := runAttachmentCopier services event pipeline.preProcessors s
  let s := writeStage2 services event rawPath s
  let s := runPostProcessors services event .beforeCommit pipeline.postProcessors s
  pipeline.commitReport services event staging s

/-- The two stage-1 writers. -/
def writeStage1 (rawShm : Option RawShmSnapshot) (s : Progress W E) : Option Path × Progress W E :=
  let written := runWriter services "Stage1Raw"
    (services.writeRawStage1 s.locals.data.raw.threads) s
  match rawShm with
  | none => written
  | some rawShm =>
    (written.1, (runWriter services "Stage1Shm" (services.writeRawShmStage1 rawShm) written.2).2)

/-- The duplicate check after the pre-processors. -/
def publishUnlessDuplicate : Finalized W :=
  let detected := s.locals.data.duplicateDetected
  let s := s.note (.duplicateCheck detected)
  if detected then s.leave services
  else pipeline.publish services event staging rawPath s

/-- `finalize_captured` once the transaction has begun. -/
def finalizeTransaction : Finalized W :=
  let stage1 := writeStage1 services captured.rawShm s
  let filtered := runFilters services captured.event pipeline.filters stage1.2
  if filtered.2 then
    pipeline.publishUnlessDuplicate services captured.event staging stage1.1
      (runPreProcessors services captured.event pipeline.preProcessors filtered.1)
  else filtered.1.leave services

end

/-- The context of the report: the one of the capture, or a new one in the
output root. -/
def resolveReportContext (world : W) : Except String ReportContext × W :=
  match captured.reportContext with
  | some context => (.ok context, world)
  | none =>
    match pipeline.outputDir with
    | some dir => (.ok (.new captured.event dir), world)
    | none =>
      let pending := services.pendingDir world
      (pending.1.map (ReportContext.new captured.event), pending.2)

/-- `finalize_captured`. -/
def finalizeCaptured (world : W) : Finalized W :=
  if !pipeline.reportEnabled captured.event.reportType then ⟨world, [], none, []⟩
  else
    let resolved := pipeline.resolveReportContext services captured world
    let s := Progress.start resolved.2 captured.data [] captured.diagnostics
    match resolved.1 with
    | .error error => ⟨resolved.2, captured.diagnostics, none, [.rootUnresolved error]⟩
    | .ok context =>
      let s := pipeline.runDeferredCollectors services captured s
      let began := services.beginShared context s.locals.world
      let s := (s.setWorld began.2).note (.began began.1)
      match began.1 with
      | .error error =>
        let s := s.record "ArtifactBegin" (.error error)
        ⟨s.locals.world, s.diagnostics, none, s.steps⟩
      | .ok () => pipeline.finalizeTransaction services captured context.stagingDir s

/-! ## A crash that meets no fault -/

def Plugin.plain (name : String) : Plugin :=
  ⟨name, .cooperative, .medium, [], [], true, .categoryDefault⟩

/-- A pipeline without plugins. -/
def plain (outputDir : Path) : Pipeline W E where
  enabled := true
  triggers := ⟨true, true, true, true, true, true⟩
  collectionPolicy := ⟨false, false, false, false⟩
  filters := []
  collectors := []
  preProcessors := []
  postProcessors := []
  notifiers := []
  outputDir := some outputDir

def Services.plain (commit : W → Except String CommittedReport × W) : Services W E where
  isTimedOut := fun _ world => (false, world)
  pendingDir := fun world => (.ok [], world)
  beginShared := fun _ world => (.ok (), world)
  writeRawStage1 := fun _ world => (⟨.ok [], none, false, true⟩, world)
  writeRawShmStage1 := fun _ world => (⟨.ok (), none, false, true⟩, world)
  writeReport := fun _ _ _ _ world => (⟨.ok [], none, false, true⟩, world)
  artifactPaths := fun _ => []
  commit := commit
  persistFinalDiagnostics := fun _ _ world => (.ok (), world)
  releaseThreadPorts := fun _ world => world
  releasePublicationLease := fun world => world
  dropTransaction := fun world => world

/-- A capture without any data. -/
def CapturedEvent.plain (id : ReportId) : CapturedEvent E where
  event := ⟨⟨.crash, none, false⟩, id, none, 1, "app"⟩
  reportContext := none
  data := .empty
  rawShm := none
  ownedShmSnapshot := none
  ownedCollectorsDeferred := false
  diagnostics := []

end Pipeline

end CrashMonitor
