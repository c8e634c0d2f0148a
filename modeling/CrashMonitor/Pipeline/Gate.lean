import CrashMonitor.Pipeline.Course
import CrashMonitor.Pipeline.Registry

/-!
# The gate in front of a plugin

A plugin is meant to run exactly if it is available and each of its hard
dependencies has already succeeded for the event. The loops of the pipeline
ask their own diagnostics object, and three of them do not ask at all. This
module follows one event through its capture and its finalization and says
for every plugin that is reached whether the gate held.
-/

namespace CrashMonitor.Pipeline

open Capture EventLoop Store List

variable {W E : Type}

/-! ## One event from capture to finalization -/

/-- Failures recorded beside the collectors: `CaptureSuspend`, `ShmSnapshot`
and the task-control failures. -/
def errorRecords (errors : List (String × String)) : Diagnostics :=
  errors.map fun e => (e.1, .error e.2)

/-- How the collectors of a capture run. -/
inductive CapturePath (W : Type) where
  /-- in a thread of the monitor, with the records made before and after -/
  | inProcess (before after : List (String × String)) (cancelled : W → Bool × W)
  /-- task collectors in a helper that completed; the others are deferred -/
  | isolated (after : List (String × String))
  /-- none: the capture ran out of time or failed -/
  | interrupted (failure : Option String) (deferred : Bool) (after : List (String × String))

/-- The status of the record `CaptureWorker` of a minimal capture. -/
def interruptedStatus : Option String → PluginStatus
  | none => .timedOut
  | some error => .error error

/-- What the capture hands to the finalization. -/
structure CaptureRun (W E : Type) where
  captured : CapturedEvent E
  world : W
  steps : List Step

section

variable (pipeline : Pipeline W E) (services : Services W E)

variable (event : CrashEvent) (context : Option ReportContext)

variable (task : Nat) (snapshot : Option Shm.OwnedShmSnapshot)

def captureInProcess (before after : List (String × String)) (cancelled : W → Bool × W)
    (world : W) : CaptureRun W E :=
  let collected := pipeline.collectSnapshotByAccess services .collect event task
    cancelled snapshot none (errorRecords before) world
  { captured := {
      event := event
      reportContext := context
      data := collected.1.locals.data
      rawShm := collected.2
      ownedShmSnapshot := none
      ownedCollectorsDeferred := false
      diagnostics := errorRecords before ++ collected.1.diagnostics ++ errorRecords after }
    world := collected.1.locals.world
    steps := collected.1.steps }

/-- A completed helper sends back the evidence of the task collectors. -/
def helperData (data : CollectedData E) : CollectedData E :=
  { (CollectedData.empty : CollectedData E) with
    raw := { (RawData.empty : RawData E) with
      threads := data.raw.threads
      images := data.raw.images
      memoryMap := data.raw.memoryMap
      heap := data.raw.heap } }

def captureIsolated (after : List (String × String)) (world : W) : CaptureRun W E :=
  let s := helperLoop services event task (pipeline.collectors.filter (·.access = .isolatedTask))
    (Progress.start world .empty [] [])
  { captured := {
      event := event
      reportContext := context
      data := helperData s.locals.data
      rawShm := rawShmFromSnapshot snapshot pipeline.collectionPolicy.persistRawShm
      ownedShmSnapshot := snapshot
      ownedCollectorsDeferred := true
      diagnostics := s.diagnostics ++ errorRecords after }
    world := services.releaseThreadPorts s.locals.data.raw.threads s.locals.world
    steps := s.steps }

def captureInterrupted (failure : Option String) (deferred : Bool)
    (after : List (String × String)) (world : W) : CaptureRun W E where
  captured := {
    event := event
    reportContext := context
    data := .empty
    rawShm := rawShmFromSnapshot snapshot pipeline.collectionPolicy.persistRawShm
    ownedShmSnapshot := if deferred then snapshot else none
    ownedCollectorsDeferred := deferred
    diagnostics := ("CaptureWorker", interruptedStatus failure) :: errorRecords after }
  world := world
  steps := []

def captureEvent (path : CapturePath W) (world : W) : CaptureRun W E :=
  match path with
  | .inProcess before after cancelled =>
    captureInProcess pipeline services event context task snapshot before after cancelled world
  | .isolated after => captureIsolated pipeline services event context task snapshot after world
  | .interrupted failure deferred after =>
    captureInterrupted pipeline event context snapshot failure deferred after world

/-- All steps of an event: those of its capture and of its finalization. -/
def eventSteps (path : CapturePath W) (world : W) : List Step :=
  let capture := captureEvent pipeline services event context task snapshot path world
  capture.steps ++ (pipeline.finalizeCaptured services capture.captured capture.world).steps

end

/-! ## The gate -/

namespace Visit

variable (v : Visit)

/-- Available, with every hard dependency recorded as a success. -/
def mayRun : Bool := v.plugin.isAvailable && depsSatisfied v.plugin.hardDependencies v.seen

/-- The gate held: the plugin ran exactly if it might, and was recorded as
skipped otherwise. -/
def Gated : Prop := (v.ran = true ↔ v.mayRun = true) ∧ (v.ran = false → v.Skipped)

/-- When the gate holds at a visit. The capture helper and the late copier
run whatever they reach; a deferred collector is run on what its own phase
recorded; and without a report file no notifier runs. -/
def Sound : Prop :=
  match v.stage with
  | .helper => v.mayRun = true
  | .attachmentCopier => v.mayRun = true
  | .unnotified => v.mayRun = false
  | .deferred => v.mayRun = true → depsSatisfied v.plugin.hardDependencies v.consulted = true
  | _ => True

/-- The loop's own records are the last ones of the event, and all of them
that matter unless the loop is the deferred one. -/
structure Sees : Prop where
  later : ∃ earlier, v.seen = earlier ++ v.consulted
  all : v.stage ≠ .deferred → ∀ name, succeeded v.seen name = succeeded v.consulted name

end Visit

section

variable {v : Visit} {deps : List String} {a b : Diagnostics} {stage : Stage}

theorem succeeded_append (a b : Diagnostics) (name : String) :
    succeeded (a ++ b) name = (succeeded a name || succeeded b name) := any_append

theorem succeeded_errorRecords (errors : List (String × String)) (name : String) :
    succeeded (errorRecords errors) name = false := by
  simp [succeeded, errorRecords, PluginStatus.succeeded]

theorem depsSatisfied_congr (h : ∀ name, succeeded a name = succeeded b name) :
    depsSatisfied deps a = depsSatisfied deps b := by
  simp only [depsSatisfied, h]

theorem depsSatisfied_append_right
    (h : depsSatisfied deps b = true) : depsSatisfied deps (a ++ b) = true := by
  rw [depsSatisfied, all_eq_true] at h ⊢
  intro name hmem
  rw [succeeded_append, h name hmem, Bool.or_true]

/-- A loop that asks its own records, where these are all that count, keeps
the gate. -/
theorem gated_of_asks (hran : v.ran = true ↔ v.plugin.isAvailable = true ∧
      depsSatisfied v.plugin.hardDependencies v.consulted = true)
    (hskip : v.ran = false → v.Skipped)
    (hall : ∀ name, succeeded v.seen name = succeeded v.consulted name) : v.Gated := by
  have hdeps : depsSatisfied v.plugin.hardDependencies v.seen =
      depsSatisfied v.plugin.hardDependencies v.consulted := depsSatisfied_congr hall
  exact ⟨by rw [hran, Visit.mayRun, Bool.and_eq_true, hdeps], hskip⟩

/-- Where a loop did its part and saw the event's records, the gate held
exactly at the sound visits. -/
theorem gated_iff_sound (hobeys : v.Obeys) (hsees : v.Sees) : v.Gated ↔ v.Sound := by
  unfold Visit.Sound
  unfold Visit.Obeys at hobeys
  split at hobeys
  · next hstage => simp [hstage, Visit.Gated, hobeys]
  · next hstage => simp [hstage, Visit.Gated, hobeys]
  · next hstage => simp [hstage, Visit.Gated, hobeys.1, hobeys.2]
  next h1 h2 h3 =>
  by_cases hstage : v.stage = .deferred
  · -- the deferred loop sees too little, never too much
    obtain ⟨earlier, hseen⟩ := hsees.later
    have hlater : depsSatisfied v.plugin.hardDependencies v.consulted = true →
        depsSatisfied v.plugin.hardDependencies v.seen = true := by
      rw [hseen]
      exact depsSatisfied_append_right
    simp only [hstage, Visit.Gated, hobeys.1, Visit.mayRun, Bool.and_eq_true]
    constructor
    · intro hgate hmay
      exact (hgate.1.mpr hmay).2
    · intro hsound
      exact ⟨⟨fun h => ⟨h.1, hlater h.2⟩, fun h => ⟨h.1, hsound h⟩⟩, hobeys.2⟩
  · have hgated : v.Gated := gated_of_asks hobeys.1 hobeys.2 (hsees.all hstage)
    split
    · contradiction
    · contradiction
    · contradiction
    · contradiction
    · exact iff_of_true hgated trivial

/-! ## Every visit of an event -/

section

variable {earlier : Diagnostics} (h : v.FromLoop stage earlier)
  (hall : stage ≠ .deferred → ∀ name, succeeded earlier name = false)
include earlier h hall

/-- A loop whose earlier records hold no success sees all that matters. -/
theorem Visit.FromLoop.sees : v.Sees where
  later := ⟨earlier, h.seen_eq⟩
  all := by
    intro hstage name
    rw [h.stage_eq] at hstage
    rw [h.seen_eq, succeeded_append, hall hstage name, Bool.false_or]

theorem Visit.FromLoop.gated_iff_sound : v.Gated ↔ v.Sound :=
  Pipeline.gated_iff_sound h.obeys (h.sees hall)

end

end

/-- The visits of a finalization are those of its loops: the deferred one
continues the records of the capture, the others have all records of the
event. -/
theorem Course.fromLoop {enabled captured steps}
    (h : Course enabled captured steps) {v} (hv : .reached v ∈ steps) :
    v.FromLoop .deferred captured ∨ ∃ stage, v.FromLoop stage [] := by
  have hopening : ∀ o : Opening captured, .reached v ∈ o.steps →
      v.FromLoop .deferred captured ∨ ∃ stage, v.FromLoop stage [] := by
    intro o hmem
    simp only [Opening.steps, mem_append, mem_cons, mem_map,
      Step.reached.injEq, exists_eq_right, reduceCtorEq, false_or] at hmem
    rcases hmem with hmem | hmem
    · exact .inl (o.deferred_from v hmem)
    · exact .inr ⟨_, o.filters_from v hmem⟩
  cases h with
  | disabled => simp at hv
  | rootUnresolved => simp at hv
  | notBegun _ error deferred hdeferred =>
    simp only [mem_append, mem_map, mem_singleton, Step.reached.injEq,
      exists_eq_right, reduceCtorEq, or_false] at hv
    exact .inl (hdeferred v hv)
  | rejected _ o => exact hopening o hv
  | duplicate _ o _ pre hpre =>
    simp only [mem_append, mem_map, mem_singleton, Step.reached.injEq,
      exists_eq_right, reduceCtorEq, or_false] at hv
    rcases hv with hv | hv
    · exact hopening o hv
    · exact .inr ⟨_, hpre v hv⟩
  | uncommitted _ o _ pre early hpre hearly =>
    simp only [mem_append, mem_cons, mem_map, Step.reached.injEq,
      exists_eq_right, reduceCtorEq, not_mem_nil, or_false, false_or] at hv
    rcases hv with hv | hv | hv
    · exact hopening o hv
    · exact .inr ⟨_, hpre v hv⟩
    · exact .inr ⟨_, (hearly v hv).2⟩
  | committed _ o _ pre early late hpre hearly hlate =>
    simp only [mem_append, mem_cons, mem_map, Step.reached.injEq,
      exists_eq_right, reduceCtorEq, false_or] at hv
    rcases hv with hv | hv | hv | hv
    · exact hopening o hv
    · exact .inr ⟨_, hpre v hv⟩
    · exact .inr ⟨_, (hearly v hv).2⟩
    · exact .inr ⟨_, (hlate v hv).2⟩

section

variable (pipeline : Pipeline W E) (services : Services W E) (event : CrashEvent)
  (context : Option ReportContext) (task : Nat) (snapshot : Option Shm.OwnedShmSnapshot)

/-- The records before an in-process collection are failures, and a helper
has none. -/
theorem captureEvent_steps {path world} :
    ∃ (stage : Stage) (before : List (String × String)) (visits : List Visit),
      (captureEvent pipeline services event context task snapshot path world).steps =
        visits.map .reached ∧ ∀ v ∈ visits, v.FromLoop stage (errorRecords before) := by
  cases path with
  | inProcess before after cancelled =>
    obtain ⟨visits, hsteps, hvisits⟩ := collectSnapshotByAccess_steps pipeline services
      (rfl : Stage.collect.asks = true) event task cancelled snapshot none
      (errorRecords before) world
    exact ⟨.collect, before, visits, hsteps, hvisits⟩
  | isolated after =>
    have hloop : Extends (Visit.FromLoop · .helper []) (.start world .empty [] [])
        (helperLoop services event task (pipeline.collectors.filter (·.access = .isolatedTask))
          (.start world .empty [] [])) := extends_helperLoop _ rfl
    obtain ⟨visits, hsteps, hvisits⟩ := hloop.visits
    exact ⟨.helper, [], visits, hsteps, hvisits⟩
  | interrupted failure deferred after => exact ⟨.collect, [], [], rfl, by simp⟩

/-- Whatever is registered and however the plugins of an event end, the gate
held at exactly the sound visits. -/
theorem gate_held_iff_sound (path : CapturePath W) (world : W) {v : Visit}
    (hv : .reached v ∈ eventSteps pipeline services event context task snapshot path world) :
    v.Gated ↔ v.Sound := by
  rcases mem_append.mp hv with hv | hv
  · obtain ⟨stage, before, visits, hsteps, hvisits⟩ :=
      captureEvent_steps pipeline services event context task snapshot
    rw [hsteps, mem_map] at hv
    obtain ⟨w, hw, heq⟩ := hv
    have hloop : v.FromLoop stage (errorRecords before) := Step.reached.inj heq ▸ hvisits w hw
    exact hloop.gated_iff_sound fun _ => succeeded_errorRecords before
  · have hcourse := course_finalizeCaptured pipeline services
      (captureEvent pipeline services event context task snapshot path world).captured
      (captureEvent pipeline services event context task snapshot path world).world
    rcases hcourse.fromLoop hv with hloop | ⟨stage, hloop⟩
    · exact hloop.gated_iff_sound fun hne => absurd rfl hne
    · exact hloop.gated_iff_sound fun _ _ => rfl

end

/-! ## A registry with an open gate -/

namespace OpenGate

def plugin (name : String) (hardDependencies : List String) (isAvailable : Bool) : Plugin :=
  { Plugin.plain name with hardDependencies := hardDependencies, isAvailable := isAvailable }

def finished : Invocation Unit := ⟨.ok (), none, false, true⟩

def collector (name : String) (hardDependencies : List String) (access : CollectorAccess) :
    Collector Unit Unit where
  toPlugin := plugin name hardDependencies true
  access := access
  collect := fun _ _ _ _ data world => (finished, data, world)

/-- The copier is not available, and a collector of owned data depends on the
task collector that runs in the helper. -/
def pipeline : Pipeline Unit Unit := { plain (E := Unit) [] with
  collectors := [collector "ThreadCollector" [] .isolatedTask,
    collector "BreadcrumbCollector" ["ThreadCollector"] .ownedSnapshot]
  preProcessors := [{
    toPlugin := plugin attachmentCopierName [] false
    process := fun _ _ data world => (finished, data, world) }] }

def services : Services Unit Unit := .plain fun world => (.error "commit failed", world)

def event : CrashEvent :=
  (CapturedEvent.plain (E := Unit)
    ⟨"0123456789abcdef0123456789abcdef", by decide +kernel⟩).event

def steps : List Step := eventSteps pipeline services event none 0 none (.isolated []) ()

/-- The task collector in the helper. -/
def helped : Visit where
  stage := .helper
  plugin := plugin "ThreadCollector" [] true
  consulted := []
  seen := []
  ran := true
  status := .ok

/-- The collector that the deferred phase passes over. -/
def skipped : Visit where
  stage := .deferred
  plugin := plugin "BreadcrumbCollector" ["ThreadCollector"] true
  consulted := []
  seen := [("ThreadCollector", .ok)]
  ran := false
  status := .skipped dependencyNotMet

/-- The copier, run in spite of its own answer. -/
def copied : Visit where
  stage := .attachmentCopier
  plugin := plugin attachmentCopierName [] false
  consulted := [("ThreadCollector", .ok), ("BreadcrumbCollector", .skipped dependencyNotMet)]
  seen := [("ThreadCollector", .ok), ("BreadcrumbCollector", .skipped dependencyNotMet)]
  ran := true
  status := .ok

theorem steps_eq : steps =
    [.reached helped, .reached skipped, .began (.ok ()), .duplicateCheck false,
      .reached copied, .commit (.error "commit failed")] := rfl

end OpenGate

open OpenGate

theorem gate_held_at_helper : .reached helped ∈ steps ∧ helped.Gated := by
  have hmem : .reached helped ∈ steps := by simp [steps_eq]
  exact ⟨hmem, (gate_held_iff_sound pipeline services event none 0 none (.isolated [])
    () hmem).mpr rfl⟩

/-- The registry is accepted, and in one event the copier runs although it is
not available, and a collector is skipped although the collector it depends on
has succeeded. -/
theorem open_gate : finishRegistration pipeline = .ok pipeline ∧
    (∃ v, .reached v ∈ steps ∧ v.ran = true ∧ v.plugin.isAvailable = false ∧ ¬ v.Gated) ∧
    ∃ v, .reached v ∈ steps ∧ v.ran = false ∧ v.mayRun = true ∧ ¬ v.Gated := by
  refine ⟨rfl, ⟨copied, by simp [steps_eq], rfl, rfl, ?_⟩, skipped, by simp [steps_eq], rfl, rfl,
    ?_⟩
  · intro hgated
    exact absurd (hgated.1.mp rfl) (by decide)
  · intro hgated
    exact absurd (hgated.1.mpr rfl) (by decide)

end CrashMonitor.Pipeline
