import CrashMonitor.Pipeline.FailOpen
import CrashMonitor.Pipeline.Gate

/-!
# Finalization of a fatal capture

`CrashFinalization` of `pipeline/worker.rs`. A captured crash is handed to a
finalizer thread, which waits for the termination reason. If the thread cannot
be created the caller keeps the capture and tries once more when it completes
the finalization; if that fails too, it writes what it has itself.

The caller and the two possible workers are one transition system: every rule
is one step of one of them, and the outcomes of thread creation, the wait for
the result and the order of the steps are free. A worker that the caller no
longer waits for goes on; the end of the process is not part of the system.
-/

namespace CrashMonitor.Pipeline

open Capture EventLoop Store

variable {W E : Type}

/-! ## The emergency path -/

/-- What the emergency path calls besides the services: the writers without
the plugin runner around them. -/
structure EmergencyServices (W E : Type) where
  pendingDirPath : W → Except String Path × W
  writeRawStage1 : List E → W → Except String Path × W
  writeRawShmStage1 : RawShmSnapshot → W → Except String Unit × W
  writeReport : CrashEvent → CollectedData E → Diagnostics → W → Except String Path × W

def resultStatus {α : Type} : Except String α → PluginStatus
  | .ok _ => .ok
  | .error error => .error error

/-- `Diagnostics` as a finalization returns them. -/
structure FinalDiagnostics where
  records : Diagnostics
  reportPath : Option Path

section Emergency

variable (pipeline : Pipeline W E) (services : Services W E) (emergency : EmergencyServices W E)

variable (captured : CapturedEvent E) (world : W)

/-- The context of the capture, or else `create_report_context`. -/
def emergencyContext : Except String ReportContext × W :=
  match captured.reportContext with
  | some context => (.ok context, world)
  | none =>
    match pipeline.outputDir with
    | some dir => (.ok (.new captured.event dir), world)
    | none =>
      let pending := emergency.pendingDirPath world
      (pending.1.map (ReportContext.new captured.event), pending.2)

/-- `committed_path` of the emergency path. -/
def committedPath (staging : Path) (report : CommittedReport) (path : Path) : Option Path :=
  if staging.isPrefixOf path then some (reportDir report ++ path.drop staging.length)
  else none

/-- The report path of an emergency commit: the JSON file, or else the raw
one. -/
def emergencyReportPath (staging : Path) (report : CommittedReport)
    (json raw : Except String Path) : Option Path :=
  (json.toOption.bind (committedPath staging report)) <|>
    (raw.toOption.bind (committedPath staging report))

/-- The records of the two raw writers. -/
def emergencyStage1 : Except String Path × Diagnostics × W :=
  let raw := emergency.writeRawStage1 captured.data.raw.threads world
  let diagnostics := captured.diagnostics ++ [("EmergencyStage1Raw", resultStatus raw.1)]
  match captured.rawShm with
  | none => (raw.1, diagnostics, raw.2)
  | some rawShm =>
    let shm := emergency.writeRawShmStage1 rawShm raw.2
    (raw.1, diagnostics ++ [("EmergencyStage1Shm", resultStatus shm.1)], shm.2)

/-- The commit of the emergency path. Every return drops the transaction. -/
def emergencyCommit (staging : Path) (json raw : Except String Path)
    (diagnostics : Diagnostics) (world : W) : Finalized W :=
  let committed := services.commit world
  match committed.1 with
  | .error error =>
    ⟨services.dropTransaction committed.2,
      diagnostics ++ [("EmergencyArtifactCommit", .error error)], none,
      [.began (.ok ()), .commit (.error error)]⟩
  | .ok report =>
    ⟨services.dropTransaction (services.releasePublicationLease committed.2),
      diagnostics ++ report.durabilityWarnings.map fun warning =>
        ("EmergencyArtifactDurability", .error warning),
      emergencyReportPath staging report json raw, [.began (.ok ()), .commit (.ok report)]⟩

/-- The emergency path once its transaction has begun. -/
def emergencyTransaction (staging : Path) (world : W) : Finalized W :=
  let (raw, diagnostics, world) := emergencyStage1 emergency captured world
  let json := emergency.writeReport captured.event captured.data diagnostics world
  let diagnostics :=
    match json.1 with
    | .ok _ => diagnostics
    | .error error => diagnostics ++ [("EmergencyStage2Json", .error error)]
  if (services.artifactPaths json.2).isEmpty then
    ⟨services.dropTransaction json.2, diagnostics ++ [("EmergencyArtifactCommit",
        .error "no emergency artifacts could be written")], none, [.began (.ok ())]⟩
  else emergencyCommit services staging json.1 raw diagnostics json.2

/-- `emergency_finalize_captured`. -/
def emergencyFinalizeCaptured : Finalized W :=
  if !pipeline.reportEnabled captured.event.reportType then ⟨world, [], none, []⟩
  else
    let resolved := emergencyContext pipeline emergency captured world
    match resolved.1 with
    | .error error =>
      ⟨resolved.2, captured.diagnostics ++ [("EmergencyArtifactBegin", .error error)],
        none, [.rootUnresolved error]⟩
    | .ok context =>
      let began := services.beginShared context resolved.2
      match began.1 with
      | .error error =>
        ⟨began.2, captured.diagnostics ++ [("EmergencyArtifactBegin", .error error)],
          none, [.began (.error error)]⟩
      | .ok () => emergencyTransaction services emergency captured context.stagingDir began.2

theorem commitAttempts_emergencyCommit {staging json raw diagnostics world} :
    commitAttempts (emergencyCommit services staging json raw diagnostics world).steps ≤ 1 := by
  unfold emergencyCommit
  dsimp only
  split
  · simp [commitAttempts, Step.isCommit]
  · simp [commitAttempts, Step.isCommit]

/-- The emergency path attempts at most one commit. -/
theorem commitAttempts_emergency : commitAttempts
      (emergencyFinalizeCaptured pipeline services emergency captured world).steps ≤ 1 := by
  unfold emergencyFinalizeCaptured
  split
  · simp [commitAttempts]
  dsimp only
  split
  · simp [commitAttempts, Step.isCommit]
  split
  · simp [commitAttempts, Step.isCommit]
  unfold emergencyTransaction
  dsimp only
  split
  · simp [commitAttempts, Step.isCommit]
  · exact commitAttempts_emergencyCommit services

end Emergency

/-! ## The caller and its workers -/

/-- The threads that `CrashFinalizeTicket::spawn` may create. -/
inductive FatalWorker where
  | first
  | retried
  deriving DecidableEq, Repr

/-- Who calls a finalizer. -/
inductive FatalStarter where
  | worker (w : FatalWorker)
  | emergency
  deriving DecidableEq, Repr

/-- Where a worker stands in its closure. -/
inductive WorkerState (E : Type) where
  | unspawned
  /-- at `take_captured` -/
  | taking
  /-- at `termination_rx.recv` -/
  | receiving (captured : CapturedEvent E)
  /-- at the call of the finalizer -/
  | calling (captured : CapturedEvent E)
  /-- in the finalizer -/
  | finalizing (captured : CapturedEvent E)
  /-- at `result_tx.send` -/
  | answering (diagnostics : FinalDiagnostics)
  /-- at `done_tx.send` -/
  | signalling
  | exited
  | panicked

/-- What one call of `spawn` shares between the caller and the worker: the
slot, the termination channel, the result channel and the done channel.
`ticket` says that the caller's ends are alive. -/
structure Lane (E : Type) where
  slot : Option (CapturedEvent E)
  worker : WorkerState E
  termination : Option (Option TerminationReason)
  ticket : Bool
  result : Option FinalDiagnostics
  done : Bool

def Lane.fresh {E : Type} : Lane E := ⟨none, .unspawned, none, false, none, false⟩

/-- Where the caller stands between `CrashFinalization::start` and the return
of `complete`. -/
inductive CallerState (E : Type) where
  | starting (captured : CapturedEvent E)
  /-- at `thread::Builder::spawn` -/
  | spawning (w : FatalWorker)
  /-- at `take_captured` after a failed spawn -/
  | reclaiming (w : FatalWorker)
  /-- `CrashFinalization::Pending` -/
  | pending (w : FatalWorker)
  /-- `CrashFinalization::Deferred` -/
  | deferred (captured : CapturedEvent E)
  /-- at `termination_tx.send` -/
  | sending (w : FatalWorker)
  /-- at `result_rx.recv_timeout` -/
  | waiting (w : FatalWorker)
  /-- in `finish_thread` -/
  | joining (w : FatalWorker) (diagnostics : FinalDiagnostics)
  /-- at the call of the emergency path -/
  | emergency (captured : CapturedEvent E)
  /-- in the emergency path -/
  | emergencyRunning (captured : CapturedEvent E)
  | returned (through : FatalStarter) (result : Option FinalDiagnostics)
  | panicked

/-- The log `starts` has every call of a finalizer with the capture it got;
`commits` counts the commits attempted. -/
structure FatalState (W E : Type) where
  world : W
  caller : CallerState E
  lanes : FatalWorker → Lane E
  starts : List (FatalStarter × CapturedEvent E)
  commits : Nat

/-- `record_immediate` of a failed step. -/
def CapturedEvent.recordError (captured : CapturedEvent E) (name error : String) :
    CapturedEvent E :=
  { captured with diagnostics := captured.diagnostics ++ [(name, .error error)] }

namespace FatalState

variable (s : FatalState W E)

def setCaller (caller : CallerState E) : FatalState W E := { s with caller := caller }

def setLane (w : FatalWorker) (lane : Lane E) : FatalState W E :=
  { s with lanes := Function.update s.lanes w lane }

def setWorker (w : FatalWorker) (worker : WorkerState E) : FatalState W E :=
  s.setLane w { s.lanes w with worker := worker }

/-- A finalizer is called. -/
def logStart (starter : FatalStarter) (captured : CapturedEvent E) : FatalState W E :=
  { s with starts := s.starts ++ [(starter, captured)] }

/-- A finalizer has returned. -/
def afterFinalizer (f : Finalized W) : FatalState W E :=
  { s with world := f.world, commits := s.commits + commitAttempts f.steps }

/-- The state a crash is captured in. -/
def initial (captured : CapturedEvent E) (world : W) : FatalState W E where
  world := world
  caller := .starting captured
  lanes := fun _ => .fresh
  starts := []
  commits := 0

end FatalState

def Finalized.final (f : Finalized W) : FinalDiagnostics := ⟨f.diagnostics, f.reportPath⟩

/-- `start` returns with its ticket, a retry goes on to complete its own. -/
def CallerState.withTicket {E : Type} : FatalWorker → CallerState E
  | .first => .pending .first
  | .retried => .sending .retried

def spawnFailed : String := "initial worker spawn failed; retrying"
def spawnRetryFailed : String := "worker spawn retry failed"

/-- What the caller does with the capture of a failed spawn. -/
def CallerState.withCapture (reason : Option TerminationReason) (w : FatalWorker)
    (captured : CapturedEvent E) : CallerState E :=
  match w with
  | .first => .deferred captured
  | .retried =>
    .emergency ((captured.recordError "CrashFinalizer" spawnRetryFailed).setTermination reason)

def handoffFailed : String := "termination handoff failed: receiving on a closed channel"

section Step

variable (pipeline : Pipeline W E) (services : Services W E)
  (emergency : EmergencyServices W E) (reason : Option TerminationReason)

/-- One step of the caller, which completes with `reason`, or of a worker. -/
inductive FatalStep : FatalState W E → FatalState W E → Prop where
  | start {s captured} (h : s.caller = .starting captured) :
      FatalStep s ((s.setLane .first { Lane.fresh with slot := some captured }).setCaller
        (.spawning .first))
  | spawned {s w} (h : s.caller = .spawning w) :
      FatalStep s ((s.setLane w { s.lanes w with worker := .taking, ticket := true }).setCaller
        (.withTicket w))
  | notSpawned {s w} (h : s.caller = .spawning w) : FatalStep s (s.setCaller (.reclaiming w))
  | reclaim {s w captured}
      (h : s.caller = .reclaiming w) (hslot : (s.lanes w).slot = some captured) :
      FatalStep s ((s.setLane w { s.lanes w with slot := none }).setCaller
        (.withCapture reason w captured))
  | reclaimPanic {s w} (h : s.caller = .reclaiming w)
      (hslot : (s.lanes w).slot = none) : FatalStep s (s.setCaller .panicked)
  | complete {s w} (h : s.caller = .pending w) : FatalStep s (s.setCaller (.sending w))
  | retry {s captured} (h : s.caller = .deferred captured) :
      FatalStep s ((s.setLane .retried { Lane.fresh with
        slot := some (captured.recordError "CrashFinalizer" spawnFailed) }).setCaller
          (.spawning .retried))
  -- a failed send is ignored
  | send {s w} (h : s.caller = .sending w) :
      FatalStep s ((s.setLane w { s.lanes w with termination := some reason }).setCaller
        (.waiting w))
  | received {s w diagnostics}
      (h : s.caller = .waiting w) (hresult : (s.lanes w).result = some diagnostics) :
      FatalStep s ((s.setLane w { s.lanes w with result := none }).setCaller
        (.joining w diagnostics))
  -- the deadline may pass, or the worker be gone, at any time
  | unanswered {s w} (h : s.caller = .waiting w) :
      FatalStep s ((s.setLane w { s.lanes w with ticket := false }).setCaller
        (.returned (.worker w) none))
  | join {s w diagnostics} (h : s.caller = .joining w diagnostics) :
      FatalStep s ((s.setLane w { s.lanes w with ticket := false }).setCaller
        (.returned (.worker w) (some diagnostics)))
  | emergencyCall {s captured} (h : s.caller = .emergency captured) :
      FatalStep s ((s.logStart .emergency captured).setCaller (.emergencyRunning captured))
  | emergencyReturn {s captured} (h : s.caller = .emergencyRunning captured) :
      FatalStep s ((s.afterFinalizer (emergencyFinalizeCaptured pipeline services emergency
          captured s.world)).setCaller (.returned .emergency (some
            (emergencyFinalizeCaptured pipeline services emergency captured s.world).final)))
  | take {s w captured}
      (h : (s.lanes w).worker = .taking) (hslot : (s.lanes w).slot = some captured) :
      FatalStep s (s.setLane w { s.lanes w with slot := none, worker := .receiving captured })
  | takePanic {s w} (h : (s.lanes w).worker = .taking)
      (hslot : (s.lanes w).slot = none) : FatalStep s (s.setWorker w .panicked)
  | receive {s w captured sent} (h : (s.lanes w).worker = .receiving captured)
      (hsent : (s.lanes w).termination = some sent) : FatalStep s (s.setLane w { s.lanes w with
        termination := none, worker := .calling (captured.setTermination sent) })
  | receiveFailed {s w captured} (h : (s.lanes w).worker = .receiving captured)
      (hsent : (s.lanes w).termination = none) (hticket : (s.lanes w).ticket = false) :
      FatalStep s (s.setWorker w
        (.calling (captured.recordError "TerminationHandoff" handoffFailed)))
  | call {s w captured} (h : (s.lanes w).worker = .calling captured) :
      FatalStep s ((s.logStart (.worker w) captured).setWorker w (.finalizing captured))
  | finalize {s w captured}
      (h : (s.lanes w).worker = .finalizing captured) : FatalStep s ((s.afterFinalizer
        (pipeline.finalizeCaptured services captured s.world)).setWorker w
          (.answering (pipeline.finalizeCaptured services captured s.world).final))
  -- an answer without a ticket is lost
  | answer {s w diagnostics}
      (h : (s.lanes w).worker = .answering diagnostics) : FatalStep s (s.setLane w { s.lanes w with
        worker := .signalling
        result := if (s.lanes w).ticket then some diagnostics else none })
  | signal {s w} (h : (s.lanes w).worker = .signalling) : FatalStep s (s.setLane w { s.lanes w with
        worker := .exited
        done := (s.lanes w).ticket })

/-- The states of a crash that is captured in `world` and completed with
`reason`. -/
def FatalReach (captured : CapturedEvent E) (world : W) : FatalState W E → Prop :=
  Relation.ReflTransGen (FatalStep pipeline services emergency reason) (.initial captured world)

end Step

/-! ## One owner of the capture -/

/-- The capture of the crash, up to its records and its termination. -/
structure CapturedEvent.Is (captured c : CapturedEvent E) : Prop where
  reportId : c.event.reportId = captured.event.reportId
  data : c.data = captured.data

theorem CapturedEvent.Is.recordError {captured c : CapturedEvent E} (h : captured.Is c)
    (name error : String) : captured.Is (c.recordError name error) := ⟨h.1, h.2⟩

theorem CapturedEvent.Is.setTermination {captured c : CapturedEvent E} (h : captured.Is c)
    (reason : Option TerminationReason) : captured.Is (c.setTermination reason) := ⟨h.1, h.2⟩

/-- What the position of the caller says about the capture. -/
inductive Phase (E : Type) where
  /-- the caller has it -/
  | held (captured : CapturedEvent E)
  /-- it is in the slot of a worker that is not running -/
  | loaded (w : FatalWorker)
  /-- a worker has it and waits for the reason -/
  | ticketed (w : FatalWorker)
  /-- the worker has the reason too -/
  | handed (w : FatalWorker)
  /-- the caller has it and will finalize it -/
  | urgent (captured : CapturedEvent E)
  | running (captured : CapturedEvent E)
  | over
  | panicked

def CallerState.phase : CallerState E → Phase E
  | .starting captured => .held captured
  | .spawning w => .loaded w
  | .reclaiming w => .loaded w
  | .pending w => .ticketed w
  | .deferred captured => .held captured
  | .sending w => .ticketed w
  | .waiting w => .handed w
  | .joining w _ => .handed w
  | .emergency captured => .urgent captured
  | .emergencyRunning captured => .running captured
  | .returned (.worker w) _ => .handed w
  | .returned .emergency _ => .over
  | .panicked => .panicked

section Invariant

variable (reason : Option TerminationReason) (captured : CapturedEvent E)

/-- A capture ready for a finalizer. -/
structure Complete (c : CapturedEvent E) : Prop where
  is : captured.Is c
  termination : c.event.termination = reason

/-- No worker is running, and no finalizer was called. -/
structure FatalState.Blank (s : FatalState W E) : Prop where
  unspawned : ∀ w, (s.lanes w).worker = .unspawned
  starts : s.starts = []
  commits : s.commits = 0

/-- A worker that waits for the reason. -/
def Lane.Waits (lane : Lane E) : Prop :=
  match lane.worker with
  | .taking => ∃ c, lane.slot = some c ∧ captured.Is c
  | .receiving c => captured.Is c
  | _ => False

/-- A worker that has the reason, or can take it, and the log of its calls. -/
def Lane.Proceeds (w : FatalWorker) (lane : Lane E)
    (starts : List (FatalStarter × CapturedEvent E)) (commits : Nat) : Prop :=
  match lane.worker with
  | .taking => starts = [] ∧ commits = 0 ∧ lane.termination = some reason ∧
      ∃ c, lane.slot = some c ∧ captured.Is c
  | .receiving c => starts = [] ∧ commits = 0 ∧ lane.termination = some reason ∧ captured.Is c
  | .calling c => starts = [] ∧ commits = 0 ∧ Complete reason captured c
  | .finalizing c => starts = [(.worker w, c)] ∧ commits = 0 ∧ Complete reason captured c
  | .answering _ => ∃ c, starts = [(.worker w, c)] ∧ commits ≤ 1 ∧ Complete reason captured c
  | .signalling => ∃ c, starts = [(.worker w, c)] ∧ commits ≤ 1 ∧ Complete reason captured c
  | .exited => ∃ c, starts = [(.worker w, c)] ∧ commits ≤ 1 ∧ Complete reason captured c
  | _ => False

/-- The other worker is not running. -/
def FatalState.Only (s : FatalState W E) (w : FatalWorker) : Prop :=
  ∀ w', w' ≠ w → (s.lanes w').worker = .unspawned

/-- The capture has one owner, or one finalizer got it. -/
def FatalState.Owned (s : FatalState W E) : Prop :=
  match s.caller.phase with
  | .held c => s.Blank ∧ captured.Is c
  | .loaded w => s.Blank ∧ (s.lanes w).termination = none ∧
      ∃ c, (s.lanes w).slot = some c ∧ captured.Is c
  | .ticketed w => s.Only w ∧ s.starts = [] ∧ s.commits = 0 ∧
      (s.lanes w).ticket = true ∧ (s.lanes w).termination = none ∧ (s.lanes w).Waits captured
  | .handed w => s.Only w ∧ (s.lanes w).Proceeds reason captured w s.starts s.commits
  | .urgent c => s.Blank ∧ Complete reason captured c
  | .running c => (∀ w, (s.lanes w).worker = .unspawned) ∧
      s.starts = [(.emergency, c)] ∧ s.commits = 0 ∧ Complete reason captured c
  | .over => (∀ w, (s.lanes w).worker = .unspawned) ∧
      ∃ c, s.starts = [(.emergency, c)] ∧ s.commits ≤ 1 ∧ Complete reason captured c
  | .panicked => False

end Invariant

section Owned

variable {reason : Option TerminationReason} {captured : CapturedEvent E} {s : FatalState W E}
variable {w : FatalWorker} {lane : Lane E}

theorem FatalState.Only.eq {w'} (h : s.Only w')
    (hworker : (s.lanes w).worker ≠ .unspawned) : w = w' := by
  by_contra hne
  exact hworker (h w hne)

open FatalState

/-- A worker that is running has the capture, with or without the reason. -/
theorem FatalState.Owned.running (h : s.Owned reason captured)
    (hworker : (s.lanes w).worker ≠ .unspawned) :
    s.caller.phase = .ticketed w ∨ s.caller.phase = .handed w := by
  unfold Owned at h
  split at h
  · exact absurd (h.1.unspawned w) hworker
  · exact absurd (h.1.unspawned w) hworker
  · next w' hphase => exact .inl (h.1.eq hworker ▸ hphase)
  · next w' hphase => exact .inr (h.1.eq hworker ▸ hphase)
  · exact absurd (h.1.unspawned w) hworker
  · exact absurd (h.1 w) hworker
  · exact absurd (h.1 w) hworker
  · exact h.elim

theorem FatalState.Blank.setCaller (h : s.Blank) (caller : CallerState E) :
    (s.setCaller caller).Blank := ⟨h.1, h.2, h.3⟩

/-- A lane may change as long as its worker is not running. -/
theorem FatalState.Blank.setLane (h : s.Blank) (w : FatalWorker)
    (hlane : lane.worker = .unspawned) : (s.setLane w lane).Blank where
  unspawned := by
    intro w'
    by_cases hw : w' = w
    · rw [hw]
      simpa [FatalState.setLane] using hlane
    · simpa [FatalState.setLane, hw] using h.unspawned w'
  starts := h.starts
  commits := h.commits

theorem FatalState.Blank.only (h : s.Blank) (w : FatalWorker) : s.Only w :=
  fun w' _ => h.unspawned w'

theorem FatalState.Only.setLane (h : s.Only w) (lane : Lane E) : (s.setLane w lane).Only w := by
  intro w' hne
  simpa [FatalState.setLane, hne] using h w' hne

@[simp] theorem FatalState.setLane_starts (w : FatalWorker) (lane : Lane E) :
    (s.setLane w lane).starts = s.starts := rfl

@[simp] theorem FatalState.setLane_commits (w : FatalWorker) (lane : Lane E) :
    (s.setLane w lane).commits = s.commits := rfl

@[simp] theorem FatalState.setLane_self (w : FatalWorker) (lane : Lane E) :
    (s.setLane w lane).lanes w = lane := by
  simp [setLane]

/-- A waiting lane. -/
structure FatalState.Ticketed (captured : CapturedEvent E) (s : FatalState W E)
    (w : FatalWorker) : Prop where
  starts : s.starts = []
  commits : s.commits = 0
  ticket : (s.lanes w).ticket = true
  termination : (s.lanes w).termination = none
  waits : (s.lanes w).Waits captured

/-- A worker that takes a step keeps the owner if it does so in both phases
it can be in. -/
theorem FatalState.Owned.of_worker (h : s.Owned reason captured)
    (hworker : (s.lanes w).worker ≠ .unspawned) {s' : FatalState W E}
    (hcaller : s'.caller = s.caller) (honly : s.Only w → s'.Only w)
    (hticketed : s.Ticketed captured w → s'.Ticketed captured w)
    (hhanded : (s.lanes w).Proceeds reason captured w s.starts s.commits →
      (s'.lanes w).Proceeds reason captured w s'.starts s'.commits) : s'.Owned reason captured := by
  rcases h.running hworker with hphase | hphase
  · simp only [Owned, hphase] at h
    simp only [Owned, hcaller, hphase]
    have hnext := hticketed ⟨h.2.1, h.2.2.1, h.2.2.2.1, h.2.2.2.2.1, h.2.2.2.2.2⟩
    exact ⟨honly h.1, hnext.1, hnext.2, hnext.3, hnext.4, hnext.5⟩
  · simp only [Owned, hphase] at h
    simp only [Owned, hcaller, hphase]
    exact ⟨honly h.1, hhanded h.2⟩

/-- The reason reaches a waiting worker. -/
theorem Lane.Waits.handed (h : lane.Waits captured) (reason : Option TerminationReason)
    (w : FatalWorker) :
    ({ lane with termination := some reason } : Lane E).Proceeds reason captured w [] 0 := by
  unfold Lane.Waits at h
  unfold Lane.Proceeds
  split at h
  · next hworker => simpa [hworker] using h
  · next hworker => simpa [hworker] using h
  · exact h.elim

/-- The other channels do not matter to a worker that has the reason. -/
theorem Lane.Proceeds.congr {lane' : Lane E} {starts commits}
    (h : lane.Proceeds reason captured w starts commits) (hworker : lane'.worker = lane.worker)
    (hslot : lane'.slot = lane.slot) (htermination : lane'.termination = lane.termination) :
    lane'.Proceeds reason captured w starts commits := by
  unfold Lane.Proceeds
  rw [hworker, hslot, htermination]
  exact h

section Steps

variable {pipeline : Pipeline W E} {services : Services W E}
  {emergency : EmergencyServices W E} {w : FatalWorker} {c : CapturedEvent E}

/-! ### The caller -/

section

variable (h : s.Owned reason captured)

include h

open CallerState

/-- From the handoff on the caller only changes channels the worker does not
read. -/
theorem owned_of_handed {caller : CallerState E} (hphase : s.caller.phase = .handed w)
    (hphase' : caller.phase = .handed w) {result ticket} :
    ((s.setLane w { s.lanes w with result := result, ticket := ticket }).setCaller
      caller).Owned reason captured := by
  simp only [Owned, hphase] at h
  simp only [Owned, setCaller, hphase']
  refine ⟨h.1.setLane _, ?_⟩
  rw [setLane_self]
  exact h.2.congr rfl rfl rfl

/-! ### The workers -/

theorem owned_take (hw : (s.lanes w).worker = .taking) (hslot : (s.lanes w).slot = some c) :
    (s.setLane w { s.lanes w with slot := none, worker := .receiving c }).Owned reason
      captured := by
  refine h.of_worker (w := w) (by simp [hw]) rfl (fun honly => honly.setLane _) ?_ ?_
  · intro ht
    have hwaits := ht.waits
    simp only [Lane.Waits, hw, hslot, Option.some.injEq, exists_eq_left'] at hwaits
    exact ⟨ht.starts, ht.commits, by simpa using ht.ticket, by simpa using ht.termination,
      by simpa [Lane.Waits] using hwaits⟩
  · intro hp
    simp only [Lane.Proceeds, hw, hslot, Option.some.injEq, exists_eq_left'] at hp
    simpa [Lane.Proceeds] using hp

theorem not_taking_of_empty (hslot : (s.lanes w).slot = none) : (s.lanes w).worker ≠ .taking := by
  intro hw
  rcases h.running (w := w) (by simp [hw]) with hphase | hphase
  · simp [Owned, hphase, Lane.Waits, hw, hslot] at h
  · simp [Owned, hphase, Lane.Proceeds, hw, hslot] at h

theorem owned_receive (hw : (s.lanes w).worker = .receiving c)
    {sent : Option TerminationReason} (hsent : (s.lanes w).termination = some sent) :
    (s.setLane w { s.lanes w with
      termination := none, worker := .calling (c.setTermination sent) }).Owned reason captured := by
  refine h.of_worker (w := w) (by simp [hw]) rfl (fun honly => honly.setLane _) ?_ ?_
  · intro ht
    cases hsent.symm.trans ht.termination
  intro hp
  simp only [Lane.Proceeds, hw, hsent, Option.some.injEq] at hp
  obtain ⟨hstarts, hcommits, hreason, his⟩ := hp
  simp only [setLane_self, Lane.Proceeds]
  exact ⟨hstarts, hcommits, his.setTermination sent, hreason⟩

/-- The reason is there before the ticket goes. -/
theorem not_receiving_of_closed (hsent : (s.lanes w).termination = none)
    (hticket : (s.lanes w).ticket = false) : (s.lanes w).worker ≠ .receiving c := by
  intro hw
  rcases h.running (w := w) (by simp [hw]) with hphase | hphase
  · simp [Owned, hphase, hticket] at h
  · simp [Owned, hphase, Lane.Proceeds, hw, hsent] at h

theorem owned_call (hw : (s.lanes w).worker = .calling c) :
    ((s.logStart (.worker w) c).setWorker w (.finalizing c)).Owned reason captured := by
  refine h.of_worker (w := w) (by simp [hw]) rfl (fun honly => honly.setLane _) ?_ ?_
  · intro ht
    have hwaits := ht.waits
    simp [Lane.Waits, hw] at hwaits
  · intro hp
    simp only [Lane.Proceeds, hw] at hp
    simpa [setWorker, setLane, logStart, Lane.Proceeds, hp.1] using hp.2

theorem owned_finalize (hw : (s.lanes w).worker = .finalizing c) {f : Finalized W}
    (hf : commitAttempts f.steps ≤ 1) {diagnostics} :
    ((s.afterFinalizer f).setWorker w (.answering diagnostics)).Owned reason captured := by
  refine h.of_worker (w := w) (by simp [hw]) rfl (fun honly => honly.setLane _) ?_ ?_
  · intro ht
    have hwaits := ht.waits
    simp [Lane.Waits, hw] at hwaits
  intro hp
  simp only [Lane.Proceeds, hw] at hp
  obtain ⟨hstarts, hcommits, hcomplete⟩ := hp
  simp only [setWorker, setLane_self, Lane.Proceeds]
  exact ⟨c, hstarts, by simpa [setLane, afterFinalizer, hcommits] using hf, hcomplete⟩

/-- The last two steps of a worker. -/
theorem owned_finish {lane : Lane E}
    (hw : (∃ d, (s.lanes w).worker = .answering d ∧ lane.worker = .signalling) ∨
      ((s.lanes w).worker = .signalling ∧ lane.worker = .exited)) :
    (s.setLane w lane).Owned reason captured := by
  rcases hw with ⟨d, hw, hlane⟩ | ⟨hw, hlane⟩
  all_goals
    refine h.of_worker (w := w) (by simp [hw]) rfl (fun honly => honly.setLane _) ?_ ?_
    · intro ht
      have hwaits := ht.waits
      simp [Lane.Waits, hw] at hwaits
    · intro hp
      simp only [Lane.Proceeds, hw] at hp
      simpa [Lane.Proceeds, hlane] using hp

/-- A step of the caller or of a worker keeps the owner. -/
theorem FatalState.Owned.step {s' : FatalState W E}
    (hstep : FatalStep pipeline services emergency reason s s') : s'.Owned reason captured := by
  cases hstep with
  | @start c hc =>
    simp only [Owned, hc, phase] at h
    exact ⟨(h.1.setLane .first rfl).setCaller _, by simp [setCaller, Lane.fresh],
      c, by simp [setCaller], h.2⟩
  | @spawned w hc =>
    simp only [Owned, hc, phase] at h
    obtain ⟨hblank, hnone, hslot⟩ := h
    cases w with
    | first | retried =>
      exact ⟨(hblank.only _).setLane _, hblank.starts, hblank.commits,
        by simp [setCaller], by simpa [setCaller] using hnone,
        by simpa [setCaller, Lane.Waits] using hslot⟩
  | notSpawned hc =>
    simp only [Owned, hc, phase] at h
    exact ⟨h.1.setCaller _, h.2.1, h.2.2⟩
  | @reclaim w c hc hslot =>
    simp only [Owned, hc, phase] at h
    obtain ⟨hblank, -, c', hslot', his⟩ := h
    have hsame : c' = c := Option.some.inj (hslot'.symm.trans hslot)
    subst hsame
    have hlane : (s.setLane w { s.lanes w with slot := none }).Blank :=
      hblank.setLane w (hblank.unspawned w)
    cases w with
    | first => exact ⟨hlane.setCaller _, his⟩
    | retried => exact ⟨hlane.setCaller _, (his.recordError _ _).setTermination reason, rfl⟩
  | reclaimPanic hc hslot => simp [Owned, hc, phase, hslot] at h
  | complete hc =>
    simp only [Owned, hc, phase] at h
    exact h
  | @retry c hc =>
    simp only [Owned, hc, phase] at h
    exact ⟨(h.1.setLane .retried rfl).setCaller _, by simp [setCaller, Lane.fresh],
      c.recordError "CrashFinalizer" spawnFailed, by simp [setCaller], h.2.recordError _ _⟩
  | @send w hc =>
    simp only [Owned, hc, phase] at h
    obtain ⟨honly, hstarts, hcommits, -, -, hwaits⟩ := h
    refine ⟨honly.setLane _, ?_⟩
    simpa [setCaller, setLane, hstarts, hcommits] using hwaits.handed reason w
  | received hc hresult | unanswered hc | join hc => exact owned_of_handed h (by rw [hc]; rfl) rfl
  | emergencyCall hc =>
    simp only [Owned, hc, phase] at h
    obtain ⟨hblank, hcomplete⟩ := h
    exact ⟨hblank.unspawned, by simp [setCaller, logStart, hblank.starts],
      hblank.commits, hcomplete⟩
  | @emergencyReturn c hc =>
    simp only [Owned, hc, phase] at h
    obtain ⟨hunspawned, hstarts, hcommits, hcomplete⟩ := h
    refine ⟨hunspawned, c, hstarts, ?_, hcomplete⟩
    simpa [setCaller, afterFinalizer, hcommits] using commitAttempts_emergency ..
  | take hw hslot => exact owned_take h hw hslot
  | takePanic hw hslot => exact absurd hw (not_taking_of_empty h hslot)
  | receive hw hsent => exact owned_receive h hw hsent
  | receiveFailed hw hsent hticket => exact absurd hw (not_receiving_of_closed h hsent hticket)
  | call hw => exact owned_call h hw
  | finalize hw =>
    exact owned_finalize h hw (course_finalizeCaptured pipeline services _ _).commitAttempts_le_one
  | answer hw => exact owned_finish h (.inl ⟨_, hw, rfl⟩)
  | signal hw => exact owned_finish h (.inr ⟨hw, rfl⟩)

end

end Steps

end Owned

/-! ## Every run ends -/

def WorkerState.rank : WorkerState E → Nat
  | .taking => 6
  | .receiving _ => 5
  | .calling _ => 4
  | .finalizing _ => 3
  | .answering _ => 2
  | .signalling => 1
  | _ => 0

/-- A caller that may still create a worker counts the worker's steps too. -/
def CallerState.rank : CallerState E → Nat
  | .starting _ => 40
  | .spawning .first => 39
  | .reclaiming .first => 38
  | .deferred _ => 37
  | .spawning .retried => 20
  | .reclaiming .retried => 19
  | .emergency _ => 18
  | .emergencyRunning _ => 17
  | .pending _ => 10
  | .sending _ => 9
  | .waiting _ => 8
  | .joining _ _ => 7
  | _ => 0

def FatalState.rank (s : FatalState W E) : Nat :=
  s.caller.rank + (s.lanes .first).worker.rank + (s.lanes .retried).worker.rank

section Run

variable {pipeline : Pipeline W E} {services : Services W E}
  {emergency : EmergencyServices W E} {reason : Option TerminationReason}
  {captured : CapturedEvent E} {s s' : FatalState W E}

open FatalState CallerState

theorem rank_setLane (w : FatalWorker) (lane : Lane E) :
    (s.setLane w lane).rank + (s.lanes w).worker.rank = s.rank + lane.worker.rank := by
  cases w with
  | first | retried => simp [FatalState.rank, setLane]; omega

theorem rank_lt_of_caller {w lane caller}
    (h : caller.rank + lane.worker.rank < s.caller.rank + (s.lanes w).worker.rank) :
    ((s.setLane w lane).setCaller caller).rank < s.rank := by
  have hlane := rank_setLane (s := s) w lane
  simp only [FatalState.rank, setCaller] at hlane ⊢
  have hcaller : (s.setLane w lane).caller = s.caller := rfl
  rw [hcaller] at hlane
  omega

theorem rank_lt_of_setCaller {caller} (h : caller.rank < s.caller.rank) :
    (s.setCaller caller).rank < s.rank := by
  simp only [FatalState.rank, setCaller]
  omega

theorem rank_lt_of_worker {w lane}
    (h : lane.worker.rank < (s.lanes w).worker.rank) : (s.setLane w lane).rank < s.rank := by
  have hlane := rank_setLane (s := s) w lane
  omega

/-- No run goes on for ever. -/
theorem rank_lt_of_step (hstep : FatalStep pipeline services emergency reason s s') :
    s'.rank < s.rank := by
  cases hstep with
  | start hc | retry hc =>
    exact rank_lt_of_caller (by simp [hc, CallerState.rank, WorkerState.rank, Lane.fresh]; omega)
  | @spawned w hc =>
    apply rank_lt_of_caller
    rw [hc]
    cases w <;> simp [CallerState.rank, WorkerState.rank, withTicket] <;> omega
  | @notSpawned w hc | @reclaimPanic w hc hslot =>
    apply rank_lt_of_setCaller
    rw [hc]
    cases w <;> simp [CallerState.rank]
  | @reclaim w c hc hslot =>
    apply rank_lt_of_caller
    rw [hc]
    cases w <;> simp [CallerState.rank, withCapture]
  | complete hc => exact rank_lt_of_setCaller (by simp [hc, CallerState.rank])
  | send hc | received hc hresult | unanswered hc | join hc =>
      exact rank_lt_of_caller (by simp [hc, CallerState.rank])
  | emergencyCall hc => exact rank_lt_of_setCaller (by simp [hc, CallerState.rank, logStart])
  | emergencyReturn hc =>
    exact rank_lt_of_setCaller (by simp [hc, CallerState.rank, afterFinalizer])
  | take hw hslot | takePanic hw hslot | receive hw hsent
  | receiveFailed hw hsent hticket => exact rank_lt_of_worker (by simp [hw, WorkerState.rank])
  | call hw => exact rank_lt_of_worker (by simp [hw, WorkerState.rank, logStart])
  | finalize hw => exact rank_lt_of_worker (by simp [hw, WorkerState.rank, afterFinalizer])
  | answer hw | signal hw => exact rank_lt_of_worker (by simp [hw, WorkerState.rank])

theorem owned_of_reach {world}
    (h : FatalReach pipeline services emergency reason captured world s) :
    s.Owned reason captured := by
  induction h with
  | refl => exact ⟨⟨fun _ => rfl, rfl, rfl⟩, rfl, rfl⟩
  | tail _ hstep ih => exact ih.step hstep

/-- The log of an owned state. -/
theorem FatalState.Owned.starts_cases (h : s.Owned reason captured) :
    (s.starts = [] ∧ s.commits = 0) ∨
    ∃ starter c, s.starts = [(starter, c)] ∧ s.commits ≤ 1 ∧ Complete reason captured c := by
  unfold Owned at h
  split at h
  · exact .inl ⟨h.1.starts, h.1.commits⟩
  · exact .inl ⟨h.1.starts, h.1.commits⟩
  · exact .inl ⟨h.2.1, h.2.2.1⟩
  · next w hphase =>
      have hproceeds := h.2
      unfold Lane.Proceeds at hproceeds
      split at hproceeds
      · exact .inl ⟨hproceeds.1, hproceeds.2.1⟩
      · exact .inl ⟨hproceeds.1, hproceeds.2.1⟩
      · exact .inl ⟨hproceeds.1, hproceeds.2.1⟩
      · exact .inr ⟨_, _, hproceeds.1, by omega, hproceeds.2.2⟩
      · exact .inr ⟨_, hproceeds⟩
      · exact .inr ⟨_, hproceeds⟩
      · exact .inr ⟨_, hproceeds⟩
      · exact hproceeds.elim
  · exact .inl ⟨h.1.starts, h.1.commits⟩
  · exact .inr ⟨_, _, h.2.1, by omega, h.2.2.2⟩
  · exact .inr ⟨_, h.2⟩
  · exact h.elim

/-- Until a finalizer was called somebody can go on. -/
theorem FatalState.Owned.progress (h : s.Owned reason captured) (hstarts : s.starts = []) :
    ∃ s', FatalStep pipeline services emergency reason s s' := by
  cases hc : s.caller with
  | starting c => exact ⟨_, .start hc⟩
  | spawning w => exact ⟨_, .notSpawned hc⟩
  | reclaiming w =>
    simp only [Owned, hc, phase] at h
    obtain ⟨-, -, c, hslot, -⟩ := h
    exact ⟨_, .reclaim hc hslot⟩
  | pending w => exact ⟨_, .complete hc⟩
  | deferred c => exact ⟨_, .retry hc⟩
  | sending w => exact ⟨_, .send hc⟩
  | waiting w => exact ⟨_, .unanswered hc⟩
  | joining w d => exact ⟨_, .join hc⟩
  | emergency c => exact ⟨_, .emergencyCall hc⟩
  | emergencyRunning c => exact ⟨_, .emergencyReturn hc⟩
  | returned through result =>
    cases through with
    | emergency => simp [Owned, hc, phase, hstarts] at h
    | worker w =>
      simp only [Owned, hc, phase, hstarts] at h
      have hproceeds := h.2
      unfold Lane.Proceeds at hproceeds
      split at hproceeds
      · next hw =>
          obtain ⟨-, -, -, c, hslot, -⟩ := hproceeds
          exact ⟨_, .take hw hslot⟩
      · next hw => exact ⟨_, .receive hw hproceeds.2.2.1⟩
      · next hw => exact ⟨_, .call hw⟩
      · next hw => exact ⟨_, .finalize hw⟩
      · next hw => exact ⟨_, .answer hw⟩
      · next hw => exact ⟨_, .signal hw⟩
      · obtain ⟨c, hsome, -⟩ := hproceeds
        cases hsome
      · exact hproceeds.elim
  | panicked => simp [Owned, hc, phase] at h

/-- A crash that is captured and completed with `reason`. In every state it
reaches at most one finalizer was called and at most one commit attempted, and
the finalizer got this capture with exactly that reason. Nobody panics. Every
run ends, and when nobody can go on one finalizer was called. -/
theorem fatal_capture_finalized_once (captured : CapturedEvent E) (world : W) (s : FatalState W E)
    (h : FatalReach pipeline services emergency reason captured world s) :
    s.starts.length ≤ 1 ∧ s.commits ≤ 1 ∧
      (∀ start ∈ s.starts, start.2.event.reportId = captured.event.reportId ∧
        start.2.event.termination = reason) ∧
      s.caller ≠ .panicked ∧ (∀ w, (s.lanes w).worker ≠ .panicked) ∧
      (∀ s', FatalStep pipeline services emergency reason s s' → s'.rank < s.rank) ∧
      ((∀ s', ¬ FatalStep pipeline services emergency reason s s') → s.starts.length = 1) := by
  have howned := owned_of_reach h
  have hcaller : s.caller ≠ .panicked := by
    intro hc
    simp [Owned, hc, phase] at howned
  have hworkers : ∀ w, (s.lanes w).worker ≠ .panicked := by
    intro w hw
    rcases howned.running (w := w) (by simp [hw]) with hphase | hphase
    · simp [Owned, hphase, Lane.Waits, hw] at howned
    · simp [Owned, hphase, Lane.Proceeds, hw] at howned
  rcases howned.starts_cases with ⟨hstarts, hcommits⟩ | ⟨starter, c, hstarts, hcommits, hcomplete⟩
  · refine ⟨by simp [hstarts], by omega, by simp [hstarts], hcaller, hworkers,
      fun s' hstep => rank_lt_of_step hstep, fun hfinal => ?_⟩
    have hnext : ∃ s', FatalStep pipeline services emergency reason s s' := howned.progress hstarts
    obtain ⟨s', hstep⟩ := hnext
    exact absurd hstep (hfinal s')
  · refine ⟨by simp [hstarts], hcommits, ?_, hcaller, hworkers,
      fun s' hstep => rank_lt_of_step hstep, fun _ => by simp [hstarts]⟩
    rw [hstarts, List.forall_mem_singleton]
    exact ⟨hcomplete.is.reportId, hcomplete.termination⟩

end Run

namespace NoThreads

def emergency : EmergencyServices Unit Unit where
  pendingDirPath := fun world => (.ok [], world)
  writeRawStage1 := fun _ world => (.ok ["raw"], world)
  writeRawShmStage1 := fun _ world => (.ok (), world)
  writeReport := fun _ _ _ world => (.ok ["report.json"], world)

def captured : CapturedEvent Unit := .plain OpenGate.event.reportId

end NoThreads

/-- Neither thread can be created, and the caller finalizes the capture. -/
theorem emergency_finalized_once : ∃ s,
    FatalReach OpenGate.pipeline OpenGate.services NoThreads.emergency none
      NoThreads.captured () s ∧ s.starts.length = 1 ∧ s.commits ≤ 1 := by
  have hfirst : FatalReach OpenGate.pipeline OpenGate.services NoThreads.emergency none
      NoThreads.captured () _ :=
    ((Relation.ReflTransGen.refl.tail (.start rfl)).tail (.notSpawned rfl)).tail (.reclaim rfl rfl)
  have hsecond : FatalReach OpenGate.pipeline OpenGate.services NoThreads.emergency none
      NoThreads.captured () _ :=
    (((hfirst.tail (.retry rfl)).tail (.notSpawned rfl)).tail (.reclaim rfl rfl)).tail
      (.emergencyCall rfl)
  exact ⟨_, hsecond, rfl, (fatal_capture_finalized_once _ _ _ hsecond).2.1⟩

end CrashMonitor.Pipeline
