import CrashMonitor.Capture.TaskControl
import CrashMonitor.Report.Summary

/-!
# The diagnostics of a report

`build_diagnostics_json` turns the list of plugin records into an object with
one member per plugin NAME, and `diagnostics_summary` tallies its members. A
record is therefore lost when a later one has its name, and a panic is in the
object but in none of the four tallies.
-/

namespace CrashMonitor.Report

open Lib Lib.Decode Lib.CompactText Capture Json List

/-! ## The document -/

structure PluginDiagnostic where
  name : String
  status : PluginStatus
  durationMs : Nat
  reportId : Option String
  startedOffsetMs : Nat
  finishedOffsetMs : Nat
  deriving DecidableEq, Repr

/-- The status of a record as the document spells it. -/
def statusName : PluginStatus → String
  | .ok => "ok"
  | .partially _ => "partial"
  | .rejected _ => "rejected"
  | .error _ => "error"
  | .panic _ => "panic"
  | .timedOut => "timed_out"
  | .skipped _ => "skipped"

/-- The text of a record, under its member name. -/
def statusText : PluginStatus → Option (String × String)
  | .ok | .timedOut => none
  | .partially reason | .rejected reason | .skipped reason => some ("reason", reason)
  | .error error => some ("error", error)
  | .panic payload => some ("payload", payload)

variable (d : PluginDiagnostic)

section

variable (pipelineDurationMs : Nat) (plugins : List PluginDiagnostic)

/-- A skipped plugin has no duration. -/
def durationMember : List (String × Json) :=
  match d.status with
  | .skipped _ => []
  | _ => [("duration_ms", .number d.durationMs)]

def pluginEntry : Json := .object
    ([("status", .string (statusName d.status))] ++
      (statusText d.status).toList.map (fun text => (text.1, .string text.2)) ++
      durationMember d ++ [("started_offset_ms", .number d.startedOffsetMs),
        ("finished_offset_ms", .number d.finishedOffsetMs)] ++
      Json.stringMember "report_id" d.reportId)

def pluginPairs : List (String × Json) := plugins.map fun d => (d.name, pluginEntry d)

def buildDiagnosticsJson : Option Json :=
  if plugins.isEmpty then none
  else
    some (.object [("pipeline_duration_ms", .number pipelineDurationMs),
      ("plugins", .object (Json.collectMembers (pluginPairs plugins)))])

/-! ## Failures -/

/-- `Error`, `Panic` and `TimedOut`. -/
def failed : PluginStatus → Bool
  | .error _ | .panic _ | .timedOut => true
  | _ => false

/-- The failures that are among the tallies of the summary. -/
def tallied : PluginStatus → Bool
  | .error _ | .timedOut => true
  | _ => false

/-- The document has the status and the text of the record. -/
def Documents (doc : Json) (d : PluginDiagnostic) : Prop :=
  ∃ entry, (d.name, entry) ∈ pluginEntries (member? "plugins" doc) ∧
    member? "status" entry = some (.string (statusName d.status)) ∧
    ∀ text ∈ statusText d.status, member? text.1 entry = some (.string text.2)

/-- The numbers of errors and of timeouts in the summary of a report. -/
def Tallies (report : CrashReport) (errors timedOut : Nat) : Prop :=
  ∃ okCount skipped totalMs : Nat, diagnosticsSummary report =
    some ["Pipeline: ", decimal okCount, " ok, ", decimal errors, " error, ",
      decimal timedOut, " timed out, ", decimal skipped, " skipped  (", decimal totalMs,
      "ms total)"]

/-- The document has every failure, and the summary of a report with it counts
each one. -/
def NoFailureLost : Prop := ∀ doc, buildDiagnosticsJson pipelineDurationMs plugins = some doc →
    (∀ d ∈ plugins, failed d.status → Documents doc d) ∧
    ∀ report : CrashReport, report.diagnostics = some doc →
      ∃ errors timedOut, Tallies report errors timedOut ∧
        errors + timedOut = plugins.countP (failed ·.status)

theorem member_status :
    member? "status" (pluginEntry d) = some (.string (statusName d.status)) := by
  obtain ⟨name, status, ms, reportId, started, finished⟩ := d
  cases status <;> cases reportId <;> rfl

theorem member_text (text : String × String) (htext : text ∈ statusText d.status) :
    member? text.1 (pluginEntry d) = some (.string text.2) := by
  obtain ⟨name, status, ms, reportId, started, finished⟩ := d
  cases status with
  | ok | timedOut => simp [statusText] at htext
  | partially reason | rejected reason | skipped reason | error reason | panic reason =>
    obtain rfl : _ = text := by simpa [statusText] using htext
    cases reportId <;> rfl

theorem documents_of_mem {doc d}
    (hmem : (d.name, pluginEntry d) ∈ pluginEntries (member? "plugins" doc)) : Documents doc d :=
  ⟨pluginEntry d, hmem, member_status d, member_text d⟩

theorem decimal_injective {m n} (h : decimal m = decimal n) : m = n := by
  have hdigits : writeNat m = writeNat n := String.ofList_injective h
  have := congrArg (Nat.ofDigitChars 10 · 0) hdigits
  simpa [writeNat, Nat.ofDigitChars_ten_toDigits] using this

/-- The member of a record counts as one of the two tallied kinds. -/
def countsAsFailure (plugin : String × Json) : Bool :=
  (member? "status" plugin.2).bind Decode.text = some "error" ||
    (member? "status" plugin.2).bind Decode.text = some "timed_out"

theorem statusCount_add (plugins : List (String × Json)) :
    statusCount plugins "error" + statusCount plugins "timed_out" =
      plugins.countP countsAsFailure := by
  induction plugins with
  | nil => rfl
  | cons plugin plugins ih =>
    simp only [statusCount, countP_cons, countsAsFailure] at ih ⊢
    by_cases herror : (member? "status" plugin.2).bind Decode.text = some "error"
    · simp [herror]
      omega
    by_cases htime : (member? "status" plugin.2).bind Decode.text = some "timed_out"
    · simp [htime]
      omega
    · simp [herror, htime, ih]

theorem countsAsFailure_entry : countsAsFailure (d.name, pluginEntry d) = tallied d.status := by
  simp only [countsAsFailure, member_status, Option.bind_some, Decode.text]
  cases d.status with
  | ok | partially _ | rejected _ | error _ | panic _ | timedOut | skipped _ =>
    simp [statusName, tallied]

theorem countP_pluginPairs :
    (pluginPairs plugins).countP countsAsFailure = plugins.countP (tallied ·.status) := by
  rw [pluginPairs, countP_map]
  exact countP_congr fun d _ => by simp [countsAsFailure_entry]

theorem countP_tallied_le :
    plugins.countP (tallied ·.status) ≤ plugins.countP (failed ·.status) := by
  apply countP_mono_left
  intro d _ h
  cases hs : d.status <;> simp_all [tallied, failed]

end

theorem countP_tallied_eq_iff {plugins : List PluginDiagnostic} :
    plugins.countP (tallied ·.status) = plugins.countP (failed ·.status) ↔
      ∀ d ∈ plugins, ∀ payload, d.status ≠ .panic payload := by
  induction plugins with
  | nil => simp
  | cons d plugins ih =>
    have hle := countP_tallied_le plugins
    rw [countP_cons, countP_cons, forall_mem_cons]
    cases hs : d.status with
    | panic payload =>
      have htallied : tallied (.panic payload) = false := rfl
      have hfailed : failed (.panic payload) = true := rfl
      simp [htallied, hfailed]
      omega
    | ok | partially _ | rejected _ | error _ | timedOut | skipped _ =>
      simpa [tallied, failed] using ih

section

variable {pipelineDurationMs : Nat} {plugins : List PluginDiagnostic} {doc : Json}
  {report : CrashReport}

theorem pluginEntries_build (hdoc : buildDiagnosticsJson pipelineDurationMs plugins = some doc) :
    pluginEntries (member? "plugins" doc) = Json.collectMembers (pluginPairs plugins) := by
  rw [buildDiagnosticsJson] at hdoc
  split at hdoc
  · cases hdoc
  · cases hdoc
    rfl

theorem tallies_iff (hreport : report.diagnostics = some doc) {errors timedOut} :
    Tallies report errors timedOut ↔
      errors = statusCount (pluginEntries (member? "plugins" doc)) "error" ∧
        timedOut = statusCount (pluginEntries (member? "plugins" doc)) "timed_out" := by
  constructor
  · rintro ⟨okCount, skipped, totalMs, hsummary⟩
    simp only [diagnosticsSummary, hreport, Option.map_some, Option.some.injEq,
      List.cons.injEq] at hsummary
    exact ⟨(decimal_injective hsummary.2.2.2.1).symm, (decimal_injective hsummary.2.2.2.2.2.1).symm⟩
  · rintro ⟨rfl, rfl⟩
    simp only [Tallies, diagnosticsSummary, hreport, Option.map_some]
    exact ⟨_, _, _, rfl⟩

/-- The summary's failures are the collected members that count as one. -/
theorem exists_tallies_iff (hdoc : buildDiagnosticsJson pipelineDurationMs plugins = some doc)
    (hreport : report.diagnostics = some doc) {n} :
    (∃ errors timedOut, Tallies report errors timedOut ∧ errors + timedOut = n) ↔
      (lastPairs (pluginPairs plugins)).countP countsAsFailure = n := by
  have hcount := statusCount_add (pluginEntries (member? "plugins" doc))
  rw [pluginEntries_build hdoc] at hcount
  rw [← (collectMembers_perm _).countP_eq, ← hcount]
  simp only [tallies_iff hreport, pluginEntries_build hdoc]
  constructor
  · rintro ⟨errors, timedOut, ⟨rfl, rfl⟩, hsum⟩
    exact hsum
  · intro hsum
    exact ⟨_, _, ⟨rfl, rfl⟩, hsum⟩

theorem kept_iff : Kept countsAsFailure (pluginPairs plugins) ↔
    plugins.Pairwise fun d later => tallied d.status → d.name ≠ later.name := by
  rw [Kept, pluginPairs, pairwise_map]
  simp only [countsAsFailure_entry]

theorem failed_iff_tallied (hpanic : ∀ d ∈ plugins, ∀ payload, d.status ≠ .panic payload)
    {d} (hd : d ∈ plugins) : failed d.status = tallied d.status := by
  cases hs : d.status with
  | panic payload => exact absurd hs (hpanic d hd payload)
  | ok | partially _ | rejected _ | error _ | timedOut | skipped _ => rfl

theorem counts_eq_iff :
    (lastPairs (pluginPairs plugins)).countP countsAsFailure =
        plugins.countP (failed ·.status) ↔
      (∀ d ∈ plugins, ∀ payload, d.status ≠ .panic payload) ∧
        plugins.Pairwise fun d later => tallied d.status → d.name ≠ later.name := by
  have hkept := countP_lastPairs_le countsAsFailure (pluginPairs plugins)
  have hle := countP_tallied_le plugins
  rw [← countP_tallied_eq_iff, ← kept_iff, ← countP_lastPairs_eq_iff, ← countP_pluginPairs] at *
  omega

theorem NoFailureLost.count_eq (h : NoFailureLost pipelineDurationMs plugins) :
    (lastPairs (pluginPairs plugins)).countP countsAsFailure =
      plugins.countP (failed ·.status) := by
  cases hdoc : buildDiagnosticsJson pipelineDurationMs plugins with
  | none =>
    have hempty : plugins = [] := by simpa [buildDiagnosticsJson] using hdoc
    subst hempty
    rfl
  | some doc =>
    have hsummary := (h doc hdoc).2 { crashReport "" with diagnostics := some doc } rfl
    exact (exists_tallies_iff hdoc rfl).mp hsummary

/-- No failure is lost exactly if nothing panicked and no failure shares its
name with a later record. -/
theorem no_failure_lost_iff (pipelineDurationMs : Nat) (plugins : List PluginDiagnostic) :
    NoFailureLost pipelineDurationMs plugins ↔
      (∀ d ∈ plugins, ∀ payload, d.status ≠ .panic payload) ∧
        plugins.Pairwise fun d later => tallied d.status → d.name ≠ later.name := by
  constructor
  · intro h
    exact counts_eq_iff.mp h.count_eq
  intro h doc hdoc
  refine ⟨fun d hd hfailed => documents_of_mem ?_, fun report hreport => ?_⟩
  · rw [pluginEntries_build hdoc, (collectMembers_perm _).mem_iff]
    apply (kept_iff.mpr h.2).mem_lastPairs (mem_map_of_mem hd)
    rw [countsAsFailure_entry, ← failed_iff_tallied h.1 hd]
    exact hfailed
  · exact (exists_tallies_iff hdoc hreport).mpr (counts_eq_iff.mpr h)

/-- An error recorded by `drain_into` or by the commit. -/
def immediateError (name error : String) : PluginDiagnostic where
  name
  status := .error error
  durationMs := 0
  reportId := none
  startedOffsetMs := 0
  finishedOffsetMs := 0

theorem second_durability_warning_hides_first :
    ¬ NoFailureLost 0 [immediateError "ArtifactDurability" "directory not synced",
      immediateError "ArtifactDurability" "manifest not synced"] := by
  intro h
  exact absurd h.count_eq (by decide)

end

end CrashMonitor.Report
