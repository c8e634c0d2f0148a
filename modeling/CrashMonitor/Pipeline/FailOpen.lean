import CrashMonitor.Pipeline.Course
import CrashMonitor.Store.Codec
import CrashMonitor.Store.Publication
import CrashMonitor.Store.Served

/-!
# A finalization is fail-open

A finalization attempts its commit unless it left at one of the five places
where the source means it to: nothing that a plugin or a writer does in
between can keep the report from being committed.
-/

namespace CrashMonitor.Pipeline

open Capture EventLoop Store Interleave List Progress

/-! ## Commits of a course -/

def Step.isCommit : Step → Bool
  | .commit _ => true
  | _ => false

/-- How often a commit was attempted. -/
def commitAttempts (steps : List Step) : Nat := steps.countP Step.isCommit

theorem commitAttempts_reached (visits : List Visit) :
    commitAttempts (visits.map .reached) = 0 := by
  simp [commitAttempts, Step.isCommit, Function.comp_def]

/-- No finalization attempts a second commit. -/
theorem Course.commitAttempts_le_one {enabled captured steps}
    (h : Course enabled captured steps) : commitAttempts steps ≤ 1 := by
  have hreached : ∀ visits : List Visit, (visits.map .reached).countP Step.isCommit = 0 :=
    commitAttempts_reached
  cases h with
  | disabled => simp [commitAttempts]
  | rootUnresolved => simp [commitAttempts, Step.isCommit]
  | notBegun => simp [commitAttempts, hreached, Step.isCommit]
  | rejected | duplicate | uncommitted =>
      simp [commitAttempts, Opening.steps, hreached, Step.isCommit]
  | committed => simp [commitAttempts, Opening.steps, hreached, Step.isCommit, countP_cons]

/-! ## The way to the commit -/

section Finalization

variable {W E : Type} (pipeline : Pipeline W E) (services : Services W E)

section Way

variable (captured : CapturedEvent E) (world : W) (context : ReportContext)

/-- The run after the deferred collectors. -/
def collected : Progress W E :=
  pipeline.runDeferredCollectors services captured
    (.start (pipeline.resolveReportContext services captured world).2 captured.data []
      captured.diagnostics)

/-- The answer of the artifact store to the beginning of a transaction. -/
def beginning : Except String Unit × W :=
  services.beginShared context (collected pipeline services captured world).locals.world

/-- The run of the transaction. -/
def begun : Progress W E :=
  let began := beginning pipeline services captured world context
  ((collected pipeline services captured world).setWorld began.2).note (.began began.1)

/-- The run after the first writers. -/
def firstStage : Option Path × Progress W E :=
  writeStage1 services captured.rawShm (begun pipeline services captured world context)

/-- The run after the filters, and whether they let the event pass. -/
def filtered : Progress W E × Bool :=
  runFilters services captured.event pipeline.filters
    (firstStage pipeline services captured world context).2

/-- The run after the pre-processors. -/
def preProcessed : Progress W E :=
  runPreProcessors services captured.event pipeline.preProcessors
    (filtered pipeline services captured world context).1

/-- None of the five places at which a finalization leaves without a commit is
taken: the answers of the system and of the plugins there. -/
structure Proceeds : Prop where
  enabled : pipeline.reportEnabled captured.event.reportType = true
  resolved : (pipeline.resolveReportContext services captured world).1 = .ok context
  began : (beginning pipeline services captured world context).1 = .ok ()
  passed : (filtered pipeline services captured world context).2 = true
  unseen : (preProcessed pipeline services captured world context).locals.data.duplicateDetected =
    false

end Way

section Eq

variable {pipeline services} {captured : CapturedEvent E} {world : W} {context : ReportContext}

section

variable (henabled : pipeline.reportEnabled captured.event.reportType = true)
  (hresolved : (pipeline.resolveReportContext services captured world).1 = .ok context)
include henabled hresolved

end

end Eq

/-! ## The commit in the steps -/

/-- A run that has not come to its commit. -/
structure Uncommitted (s : Progress W E) : Prop where
  earlier : s.earlier = []
  steps : ∀ result, .commit result ∉ s.steps

namespace Uncommitted

variable {s s' : Progress W E}

theorem note (h : Uncommitted s) {step} (hstep : ∀ result, step ≠ .commit result) :
    Uncommitted (s.note step) := by
  refine ⟨h.earlier, fun result hmem => ?_⟩
  rcases mem_append.mp hmem with hmem | hmem
  · exact h.steps result hmem
  · exact hstep result (mem_singleton.mp hmem).symm

end Uncommitted

section

variable {pipeline services} {captured : CapturedEvent E} {world : W} {context : ReportContext}

end

/-! ## No commit -/

section Independent

variable (commit : W → Except String CommittedReport × W)

variable (captured : CapturedEvent E) (world : W) (context : ReportContext)

end Independent

/-! ## The commit of the store -/

/-- How the world of the pipeline holds the artifact store. -/
structure StoreView (W : Type) where
  store : W → World
  transaction : W → Token
  outputRoot : W → Path
  caller : W → Caller

end Finalization

/-! ## A report of failing plugins -/

namespace FailingPlugins

def id : ReportId := ⟨"66666666666666666666666666666666", by decide +kernel⟩
def root : Path := ["data", "crashes"]
def transaction : Token := ⟨0, 0⟩

def known : List String :=
  [stagingName id, id.text, manifestFileName, ".manifest.json.a.tmp", "report.json"]

theorem known_nodup : known.Nodup := by decide +kernel

def core : TransactionCore where
  context := ⟨id, .crash, 1, "app", 1000⟩
  directory := 1
  destinationRoot := root
  artifacts := Lib.SortedMap.empty.insert "report.json" .report
  durabilityWarnings := []
  state := .opened
  activeOperations := 0
  committedReport := none
  publicationLease := none
  borrowers := []

/-- A filter that fails, a pre-processor that panics and a post-processor that
is too slow. -/
def pipeline : Pipeline (ServedWorld known) Unit := { plain root with
  filters := [{
    toPlugin := .plain "Filter"
    shouldProcess := fun _ _ w => (⟨.err "broken", none, false, true⟩, w) }]
  preProcessors := [{
    toPlugin := .plain "PreProcessor"
    process := fun _ _ data w => (⟨.panic "index out of bounds", none, false, true⟩, data, w) }]
  postProcessors := [{
    toPlugin := .plain "PostProcessor"
    phase := .beforeCommit
    process := fun _ _ result w => (⟨.ok (), none, true, true⟩, result, w) }] }

/-- Both writers fail; the commit is the one of the store. -/
def services : Services (ServedWorld known) Unit := { Services.plain
    ((Store.commit plainCodec root ⟨0, .commit transaction⟩ transaction).run.exec
      (served known_nodup false)) with
  writeRawStage1 := fun _ w => (⟨.err "disk full", none, false, true⟩, w)
  writeRawShmStage1 := fun _ w => (⟨.err "disk full", none, false, true⟩, w)
  writeReport := fun _ _ _ _ w => (⟨.err "disk full", none, false, true⟩, w) }

def captured : CapturedEvent Unit := .plain id

/-- A transaction with its report in the staging directory. -/
def world : ServedWorld known :=
  ⟨.staged root (stagingName id) [("report.json", [123, 125])] fun t =>
    if t = transaction then some core else none,
    supported_staged (by decide +kernel) (by simp [known])⟩

def view : StoreView (ServedWorld known) where
  store w := w.1
  transaction _ := transaction
  outputRoot _ := root
  caller _ := ⟨0, .commit transaction⟩

end FailingPlugins

open FailingPlugins

end CrashMonitor.Pipeline
