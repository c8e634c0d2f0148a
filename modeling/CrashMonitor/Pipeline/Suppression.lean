import CrashMonitor.Pipeline.Course
import CrashMonitor.Pipeline.Gate
import CrashMonitor.Pipeline.DuplicateDetector

/-!
# Duplicate suppression over a history of events

A pipeline with the duplicate detector serves one event after the other. The
memory of the detector only changes when an event reaches it, and an event is
dropped only on its word. So a dropped event has an earlier one with the same
key, less than one window older, that the detector let through. Whether that
one was committed is decided later, and the detector never learns of it.
-/

namespace CrashMonitor.Pipeline

open Capture EventLoop Store List

variable {V E : Type}

/-! ## What leaves the detector alone -/

namespace DetectorWorld

/-- The memory and the log are the same. -/
structure Same (w w' : DetectorWorld V) : Prop where
  recent : w'.recent = w.recent
  sightings : w'.sightings = w.sightings

theorem Same.refl (w : DetectorWorld V) : Same w w := ⟨rfl, rfl⟩

theorem Same.trans {w w' w'' : DetectorWorld V} (h : Same w w') (h' : Same w' w'') : Same w w'' :=
  ⟨h'.recent.trans h.recent, h'.sightings.trans h.sightings⟩

end DetectorWorld

open DetectorWorld

/-- The values of a run moved on without the detector. -/
structure Locals.Kept (l l' : Locals (DetectorWorld V) E) : Prop where
  same : Same l.world l'.world
  flag : l'.data.duplicateDetected = l.data.duplicateDetected

namespace Locals.Kept

variable {l l' l'' : Locals (DetectorWorld V) E}

theorem refl (l : Locals (DetectorWorld V) E) : l.Kept l := ⟨.refl _, rfl⟩

theorem trans (h : l.Kept l') (h' : l'.Kept l'') : l.Kept l'' :=
  ⟨h.same.trans h'.same, h'.flag.trans h.flag⟩

end Locals.Kept

def Body.Keeps {α : Type} (body : Body (DetectorWorld V) E α) : Prop :=
  ∀ timeout (l : Locals (DetectorWorld V) E), l.Kept (body timeout l).2

/-- Apart from the detector nothing touches its memory or sets the flag. -/
structure Undisturbed (pipeline : Pipeline (DetectorWorld V) E)
    (services : Services (DetectorWorld V) E)
    (others : List (PreProcessor (DetectorWorld V) E)) : Prop where
  filters : ∀ p ∈ pipeline.filters, ∀ event, Body.Keeps (E := E) (p.body event)
  collectors : ∀ p ∈ pipeline.collectors, ∀ event task snapshot,
    Body.Keeps (p.body event task snapshot)
  preProcessors : ∀ p ∈ others, ∀ event, Body.Keeps (p.body event)
  postProcessors : ∀ p ∈ pipeline.postProcessors, ∀ event, Body.Keeps (E := E) (p.body event)
  notifiers : ∀ p ∈ pipeline.notifiers, ∀ path, Body.Keeps (E := E) (p.body path)
  isTimedOut : ∀ timeout w, Same w (services.isTimedOut timeout w).2
  pendingDir : ∀ w, Same w (services.pendingDir w).2
  beginShared : ∀ context w, Same w (services.beginShared context w).2
  writeRawStage1 : ∀ threads w, Same w (services.writeRawStage1 threads w).2
  writeRawShmStage1 : ∀ rawShm w, Same w (services.writeRawShmStage1 rawShm w).2
  writeReport : ∀ event data diagnostics screenshots w,
    Same w (services.writeReport event data diagnostics screenshots w).2
  commit : ∀ w, Same w (services.commit w).2
  persistFinalDiagnostics : ∀ report diagnostics w,
    Same w (services.persistFinalDiagnostics report diagnostics w).2
  releaseThreadPorts : ∀ threads w, Same w (services.releaseThreadPorts threads w)
  releasePublicationLease : ∀ w, Same w (services.releasePublicationLease w)
  dropTransaction : ∀ w, Same w (services.dropTransaction w)

section Kept

variable {services : Services (DetectorWorld V) E}
  (hclock : ∀ timeout w, Same w (services.isTimedOut timeout w).2)
  {s : Progress (DetectorWorld V) E}

include hclock

theorem kept_runBody {α : Type} {body : Body (DetectorWorld V) E α} (hbody : Body.Keeps body)
    (name : String) (execution : PluginExecution) (timeout : Option Nat)
    (l : Locals (DetectorWorld V) E) :
    l.Kept (runBody services name execution timeout body l).2 := by
  have hcheck : l.Kept { l with world := (services.isTimedOut timeout l.world).2 } :=
    ⟨hclock timeout l.world, rfl⟩
  unfold runBody runStage
  dsimp only
  split
  · exact hcheck
  · exact hcheck.trans (hbody _ _)

theorem kept_visit {body : Body (DetectorWorld V) E Unit} (hbody : Body.Keeps body)
    {stage unmet plugin categoryDefault} :
    s.locals.Kept (visit services stage unmet plugin categoryDefault body s).locals := by
  unfold visit
  split
  · exact .refl _
  split
  · exact .refl _
  · exact kept_runBody hclock hbody _ _ _ _

end Kept

variable (s : Progress (DetectorWorld V) E)

/-- A loop over plugins that each leave the detector alone. -/
theorem kept_foldl {P : Type} {step} {l : List P}
    (hstep : ∀ p ∈ l, ∀ s : Progress (DetectorWorld V) E, s.locals.Kept (step s p).locals) :
    s.locals.Kept (l.foldl step s).locals := by
  induction l generalizing s with
  | nil => exact .refl _
  | cons p l ih =>
    have hp : s.locals.Kept (step s p).locals := hstep p mem_cons_self s
    exact hp.trans (ih _ fun q hq => hstep q (mem_cons_of_mem _ hq))

/-- Warnings are only recorded. -/
theorem recordWarnings_locals (report : CommittedReport) :
    (recordWarnings report s).locals = s.locals := by
  unfold recordWarnings
  induction report.durabilityWarnings generalizing s with
  | nil => rfl
  | cons warning rest ih => exact ih (s.record "ArtifactDurability" (.error warning))

section Stages

variable {pipeline : Pipeline (DetectorWorld V) E} {services : Services (DetectorWorld V) E}
  {others : List (PreProcessor (DetectorWorld V) E)} (h : Undisturbed pipeline services others)
  (event : CrashEvent) (staging : Path) (rawPath : Option Path)

include h

theorem kept_collectLoop {stage task snapshot access collectors}
    (hcollectors : ∀ p ∈ collectors, p ∈ pipeline.collectors) :
    s.locals.Kept (collectLoop services stage event task (fun world => (false, world))
      snapshot access collectors s).locals := by
  induction collectors generalizing s with
  | nil => exact .refl _
  | cons collector rest ih =>
    have hrest : ∀ p ∈ rest, p ∈ pipeline.collectors :=
      fun p hp => hcollectors p (mem_cons_of_mem _ hp)
    unfold collectLoop
    split
    · exact ih s hrest
    have hbody : Body.Keeps (collector.body event task snapshot) :=
      h.collectors collector (hcollectors collector mem_cons_self) event task snapshot
    exact (kept_visit h.isTimedOut hbody).trans (ih _ hrest)

theorem kept_runFilters {filters : List (Filter (DetectorWorld V))}
    (hfilters : ∀ p ∈ filters, p ∈ pipeline.filters) :
    s.locals.Kept (runFilters services event filters s).1.locals := by
  induction filters generalizing s with
  | nil => exact .refl _
  | cons filter rest ih =>
    have hrest : ∀ p ∈ rest, p ∈ pipeline.filters := fun p hp => hfilters p (mem_cons_of_mem _ hp)
    have hskip : ∀ reason, s.locals.Kept (runFilters services event rest
        (s.skip .filter filter.toPlugin reason)).1.locals :=
      fun reason => ih (s.skip .filter filter.toPlugin reason) hrest
    unfold runFilters
    split
    · exact hskip _
    split
    · exact hskip _
    have hbody : Body.Keeps (E := E) (filter.body event) :=
      h.filters filter (hfilters filter mem_cons_self) event
    have hrun := kept_runBody h.isTimedOut hbody filter.name filter.execution
      (filter.timeout.resolve filterTimeout) s.locals
    dsimp only
    split
    · exact hrun.trans (ih (s.reach ..) hrest)
    · exact hrun

theorem kept_runPreProcessors {processors} (hprocessors : ∀ p ∈ processors, p ∈ others) :
    s.locals.Kept (runPreProcessors services event processors s).locals :=
  kept_foldl s fun p hp _ => kept_visit h.isTimedOut
    (h.preProcessors p (hprocessors p (mem_of_mem_filter hp)) event)

theorem kept_runPostProcessors (phase : PostProcessorPhase) :
    s.locals.Kept (runPostProcessors services event phase pipeline.postProcessors s).locals :=
  kept_foldl s fun p hp _ => kept_visit h.isTimedOut
    (h.postProcessors p (mem_of_mem_filter hp) event)

theorem kept_runNotifiers : s.locals.Kept (runNotifiers services pipeline.notifiers s).locals := by
  unfold runNotifiers
  split
  · exact kept_foldl s fun p hp _ => kept_visit h.isTimedOut (h.notifiers p hp _)
  · exact kept_foldl s fun _ _ s => .refl s.locals

theorem kept_runWriter {α : Type} (name : String)
    {write : DetectorWorld V → Invocation α × DetectorWorld V} (hwrite : ∀ w, Same w (write w).2) :
    s.locals.Kept (runWriter services name write s).2.locals :=
  kept_runBody h.isTimedOut (fun _ l => ⟨hwrite l.world, rfl⟩) _ _ _ _

theorem kept_writeStage1 (rawShm : Option RawShmSnapshot) :
    s.locals.Kept (writeStage1 services rawShm s).2.locals := by
  have hraw := kept_runWriter s h "Stage1Raw" (h.writeRawStage1 s.locals.data.raw.threads)
  cases rawShm with
  | none => exact hraw
  | some rawShm => exact hraw.trans (kept_runWriter _ h _ (h.writeRawShmStage1 rawShm))

theorem kept_runDeferredCollectors (captured : CapturedEvent E) :
    s.locals.Kept (pipeline.runDeferredCollectors services captured s).locals := by
  unfold runDeferredCollectors
  split
  · refine ⟨?_, rfl⟩
    unfold collectSnapshotByAccess
    split
    · exact .refl _
    exact (kept_collectLoop (.start s.locals.world .empty s.recorded []) h captured.event
      fun p hp => hp).same.trans (h.releaseThreadPorts _ _)
  · exact .refl _

theorem same_leave : Same s.locals.world (s.leave services).world := h.dropTransaction _

theorem same_persistFinalDiagnostics {report} :
    Same s.locals.world (persistFinalDiagnostics services report s).locals.world := by
  have hpersist := h.persistFinalDiagnostics report s.diagnostics s.locals.world
  unfold persistFinalDiagnostics
  split
  · exact .refl _
  dsimp only
  split
  · exact hpersist
  · exact hpersist

theorem same_runCommittedStages :
    Same s.locals.world (pipeline.runCommittedStages services event s).locals.world := by
  have hpost := (kept_runPostProcessors · h event)
  exact ((hpost s .afterCommit).trans ((kept_runNotifiers _ h).trans
    ((hpost _ .afterNotify).trans (hpost _ .finalCleanup)))).same

theorem same_afterCommit (report : CommittedReport) :
    Same s.locals.world (pipeline.afterCommit services event staging report s).world := by
  have hwarned : Same s.locals.world ((recordWarnings report s).setResult (remapResult
      (recordWarnings report s).locals.result staging (reportDir report))).locals.world := by
    rw [Progress.setResult, recordWarnings_locals]
    exact .refl _
  exact hwarned.trans ((same_runCommittedStages _ h event).trans
    ((same_persistFinalDiagnostics _ h).trans
      ((h.releasePublicationLease _).trans (h.dropTransaction _))))

theorem same_commitReport :
    Same s.locals.world (pipeline.commitReport services event staging s).world := by
  unfold commitReport
  dsimp only
  cases (services.commit s.locals.world).1 with
  | error error => exact (h.commit _).trans (h.dropTransaction _)
  | ok report =>
    exact (h.commit _).trans (same_afterCommit
      ((s.setWorld (services.commit s.locals.world).2).note (.commit (.ok report))) h event ..)

theorem kept_writeStage2 : s.locals.Kept (writeStage2 services event rawPath s).locals := by
  let data := { s.locals.data with raw := { s.locals.data.raw with screenshots := [] } }
  have hwritten := kept_runWriter (s.setData data) h "Stage2Json"
    (h.writeReport event data s.diagnostics s.locals.data.raw.screenshots)
  exact ⟨hwritten.same, hwritten.flag⟩

section

variable (hcopier : ∀ p ∈ pipeline.preProcessors, p.name = attachmentCopierName → p ∈ others)
include hcopier

/-- The copier is one of the other pre-processors. -/
theorem kept_runAttachmentCopier :
    s.locals.Kept (runAttachmentCopier services event pipeline.preProcessors s).locals := by
  apply kept_foldl
  intro p hp s
  obtain ⟨hmem, hname⟩ := mem_filter.mp hp
  exact kept_runBody h.isTimedOut
    (h.preProcessors p (hcopier p hmem (of_decide_eq_true hname)) event) _ _ _ _

theorem same_publish :
    Same s.locals.world (pipeline.publish services event staging rawPath s).world := by
  have hcopied := kept_runAttachmentCopier s h event hcopier
  have hwritten := hcopied.trans (kept_writeStage2 _ h event rawPath)
  have hprocessed := hwritten.trans (kept_runPostProcessors _ h event .beforeCommit)
  exact hprocessed.same.trans (same_commitReport _ h event staging)

end

end Stages

/-! ## The detector among the pre-processors -/

section

variable (window : Nat) (event : CrashEvent) (l l' : Locals (DetectorWorld V) E)

/-- The values before and after a run of the detector. -/
structure Locals.Consulted (run : DetectorRun) (data : CollectedData E) : Prop where
  before : data.duplicateDetected = l.data.duplicateDetected
  recent : l'.world.recent = (processAt window run event data l.world.recent).recent
  sightings : l'.world.sightings = l.world.sightings ++
    (processAt window run event data l.world.recent).sighting.toList
  flag : l'.data.duplicateDetected =
    (processAt window run event data l.world.recent).data.duplicateDetected

/-- The values before and after the pre-processors: the detector was not run,
or once. -/
def Locals.Passed : Prop := l.Kept l' ∨ ∃ run data, l.Consulted window event l' run data

end

namespace Locals.Passed

variable {window : Nat} {event : CrashEvent} {l l' l'' : Locals (DetectorWorld V) E}

theorem after (h : l'.Passed window event l'') (hkept : l.Kept l') : l.Passed window event l'' := by
  rcases h with h | ⟨run, data, h⟩
  · exact .inl (hkept.trans h)
  refine .inr ⟨run, data, h.before.trans hkept.flag, ?_, ?_, ?_⟩
  · rw [h.recent, hkept.same.recent]
  · rw [h.sightings, hkept.same.recent, hkept.same.sightings]
  · rw [h.flag, hkept.same.recent]

theorem before (h : l.Passed window event l') (hkept : l'.Kept l'') :
    l.Passed window event l'' := by
  rcases h with h | ⟨run, data, h⟩
  · exact .inl (h.trans hkept)
  · exact .inr ⟨run, data, h.before, hkept.same.recent.trans h.recent,
      hkept.same.sightings.trans h.sightings, hkept.flag.trans h.flag⟩

end Locals.Passed

section Detector

variable (window : Nat) (meets : V → DetectorRun × V)
  {pipeline : Pipeline (DetectorWorld V) E} {services : Services (DetectorWorld V) E}
  {before after : List (PreProcessor (DetectorWorld V) E)}
  (h : Undisturbed pipeline services (before ++ after))

/-- The round of the pre-processor loop that reaches the detector. -/
def visitDetector (services : Services (DetectorWorld V) E) (event : CrashEvent)
    (s : Progress (DetectorWorld V) E) : Progress (DetectorWorld V) E :=
  visit services .preProcess dependencyNotMet
    (duplicateDetector window meets : PreProcessor (DetectorWorld V) E).toPlugin
    preprocTimeout ((duplicateDetector window meets).body event) s

variable (event : CrashEvent)

theorem runPreProcessors_split :
    runPreProcessors services event (before ++ duplicateDetector window meets :: after) s =
      runPreProcessors services event after (visitDetector window meets services event
        (runPreProcessors services event before s)) := by
  unfold runPreProcessors
  rw [filter_append, foldl_append, filter_cons_of_pos rfl, foldl_cons]
  rfl

include h

theorem passed_visitDetector :
    s.locals.Passed window event (visitDetector window meets services event s).locals := by
  unfold visitDetector visit
  split
  · exact .inl (.refl _)
  split
  · exact .inl (.refl _)
  unfold runPlugin runBody runStage
  dsimp only [Progress.reach]
  have hclock : s.locals.Kept { s.locals with world := (services.isTimedOut
      ((duplicateDetector (E := E) window meets).timeout.resolve preprocTimeout)
        s.locals.world).2 } := ⟨h.isTimedOut _ _, rfl⟩
  split
  · exact .inl hclock
  · exact .after (.inr ⟨_, _, rfl, rfl, rfl, rfl⟩) hclock

theorem passed_runPreProcessors : s.locals.Passed window event (runPreProcessors services event
      (before ++ duplicateDetector window meets :: after) s).locals := by
  have hbefore := kept_runPreProcessors s h event fun p hp => mem_append_left after hp
  have hvisit := passed_visitDetector (runPreProcessors services event before s) window meets h
    event
  have hafter := kept_runPreProcessors (visitDetector window meets services event
    (runPreProcessors services event before s)) h event fun p hp => mem_append_right before hp
  rw [runPreProcessors_split]
  exact (hvisit.after hbefore).before hafter

end Detector

/-! ## One finalization -/

def Step.isDuplicate : Step → Bool
  | .duplicateCheck detected => detected
  | _ => false

def Step.isCommitted : Step → Bool
  | .commit (.ok _) => true
  | _ => false

/-- The event was left as a duplicate. -/
def dropped (steps : List Step) : Bool := steps.any Step.isDuplicate

/-- A report of the event was committed. -/
def committed (steps : List Step) : Bool := steps.any Step.isCommitted

/-- Reaching plugins drops nothing. -/
theorem dropped_append_reached (steps : List Step) (visits : List Visit) :
    dropped (steps ++ visits.map .reached) = dropped steps := by
  simp [dropped, Step.isDuplicate]

section Finalization

variable {W : Type} (pipeline : Pipeline W E) (services : Services W E)

theorem Extends.dropped_eq {kind} {s s' : Progress W E}
    (h : Extends kind s s') : dropped s'.steps = dropped s.steps := by
  obtain ⟨vs, hsteps, -⟩ := h.visits
  rw [hsteps, dropped_append_reached]

theorem Filtered.dropped_eq {s} {outcome : Progress W E × Bool}
    (h : Filtered s outcome) : dropped outcome.1.steps = dropped s.steps := by
  obtain ⟨vs, hsteps, -⟩ := h.visits
  rw [hsteps, dropped_append_reached]

/-- From the duplicate check on an event is dropped exactly if its flag is
set. -/
theorem dropped_publishUnlessDuplicate {s} {event : CrashEvent} {staging rawPath}
    (hs : s.earlier = []) (hdropped : dropped s.steps = false) :
    dropped (pipeline.publishUnlessDuplicate services event staging rawPath s).steps =
      s.locals.data.duplicateDetected := by
  unfold publishUnlessDuplicate
  cases s.locals.data.duplicateDetected with
  | true => simp [dropped, Progress.note, Progress.leave, Step.isDuplicate]
  | false =>
    have hbefore := extends_beforeCommit pipeline services event rawPath
      (s := s.note (.duplicateCheck false)) hs
    have hnoted : dropped (s.note (.duplicateCheck false)).steps = false := by
      simpa [dropped, Progress.note, Step.isDuplicate] using hdropped
    have heq := hbefore.dropped_eq.trans hnoted
    rcases commitReport_steps pipeline services event staging (hbefore.earlier.trans hs) with
      ⟨error, hcommit⟩ | ⟨report, late, hcommit, -⟩
    all_goals
      simp only [publish, Bool.false_eq_true, if_false, hcommit]
      simpa [dropped, Step.isDuplicate] using heq

end Finalization

/-- A finalization passed the detector if it started from `l`, and is a drop
exactly if the flag is set then. -/
def Finalized.Passed (window : Nat) (event : CrashEvent) (l : Locals (DetectorWorld V) E)
    (f : Finalized (DetectorWorld V)) : Prop :=
  ∃ l', l.Passed window event l' ∧ Same l'.world f.world ∧
    dropped f.steps = l'.data.duplicateDetected

section Passed

variable {window : Nat} {meets : V → DetectorRun × V}
  {pipeline : Pipeline (DetectorWorld V) E} {services : Services (DetectorWorld V) E}
  {before after : List (PreProcessor (DetectorWorld V) E)}
  (hpre : pipeline.preProcessors = before ++ duplicateDetector window meets :: after)
  (h : Undisturbed pipeline services (before ++ after))

include hpre h

theorem passed_publishUnlessDuplicate {event staging rawPath s} (hs : s.earlier = [])
    (hdropped : dropped s.steps = false) : Same s.locals.world
        (pipeline.publishUnlessDuplicate services event staging rawPath s).world ∧
      dropped (pipeline.publishUnlessDuplicate services event staging rawPath s).steps =
        s.locals.data.duplicateDetected := by
  -- the detector does not have the copier's name
  have hcopier : ∀ p ∈ pipeline.preProcessors, p.name = attachmentCopierName →
      p ∈ before ++ after := by
    intro p hp hname
    rw [hpre, mem_append, mem_cons] at hp
    rcases hp with hp | rfl | hp
    · exact mem_append_left _ hp
    · have hother : "DuplicateDetector" ≠ attachmentCopierName := by decide
      exact absurd hname hother
    · exact mem_append_right _ hp
  refine ⟨?_, dropped_publishUnlessDuplicate pipeline services hs hdropped⟩
  unfold publishUnlessDuplicate
  dsimp only
  split
  · exact same_leave _ h
  · exact same_publish (s.note (.duplicateCheck s.locals.data.duplicateDetected)) h event staging
      rawPath hcopier

theorem passed_finalizeTransaction {captured} {staging : Path} {s} (hs : s.earlier = [])
    (hflag : s.locals.data.duplicateDetected = false) (hdropped : dropped s.steps = false) :
    (pipeline.finalizeTransaction services captured staging s).Passed window captured.event
      s.locals := by
  have hwritten := kept_writeStage1 s h captured.rawShm
  have hfiltered := filtered_runFilters services captured.event pipeline.filters
    (writeStage1 services captured.rawShm s).2
  have hkept := hwritten.trans (kept_runFilters _ h captured.event fun p hp => hp)
  have hsteps := hfiltered.dropped_eq
  have hearlier := hfiltered.earlier
  rw [writeStage1_steps, hdropped] at hsteps
  rw [writeStage1_earlier, hs] at hearlier
  unfold finalizeTransaction
  dsimp only
  split
  · have hran := extends_runPreProcessors services captured.event pipeline.preProcessors hearlier
    have hpassed := (passed_runPreProcessors _ window meets h captured.event).after hkept
    rw [← hpre] at hpassed
    obtain ⟨hsame, hdrop⟩ := passed_publishUnlessDuplicate hpre h (hran.earlier.trans hearlier)
      (hran.dropped_eq.trans hsteps)
    exact ⟨_, hpassed, hsame, hdrop⟩
  · exact ⟨_, .inl hkept, same_leave _ h, hsteps.trans (hkept.flag.trans hflag).symm⟩

theorem passed_finalizeCaptured {captured : CapturedEvent E}
    (hflag : captured.data.duplicateDetected = false) {world} :
    (pipeline.finalizeCaptured services captured world).Passed window captured.event
      ⟨world, captured.data, .empty⟩ := by
  have hleft : ∀ f : Finalized (DetectorWorld V), Same world f.world → dropped f.steps = false →
      f.Passed window captured.event ⟨world, captured.data, .empty⟩ :=
    fun f hsame hdropped => ⟨_, .inl (.refl _), hsame, hdropped.trans hflag.symm⟩
  unfold finalizeCaptured
  split
  · exact hleft _ (.refl _) rfl
  have hresolved : Same world (pipeline.resolveReportContext services captured world).2 := by
    unfold resolveReportContext
    split
    · exact .refl _
    split
    · exact .refl _
    · exact h.pendingDir world
  generalize pipeline.resolveReportContext services captured world = resolved at hresolved ⊢
  obtain ⟨context, world'⟩ := resolved
  cases context with
  | error error => exact hleft _ hresolved rfl
  | ok context =>
    obtain ⟨deferred, hsteps, -⟩ := runDeferredCollectors_steps pipeline services captured world'
    have hearlier := runDeferredCollectors_earlier pipeline services captured
      (.start world' captured.data [] captured.diagnostics)
    have hkept := kept_runDeferredCollectors
      (.start world' captured.data [] captured.diagnostics) h captured
    dsimp only
    generalize pipeline.runDeferredCollectors services captured
      (.start world' captured.data [] captured.diagnostics) = s at hsteps hearlier hkept ⊢
    have hbegan := hresolved.trans (hkept.same.trans (h.beginShared context s.locals.world))
    have hundropped : ∀ result, dropped (s.steps ++ [.began result]) = false := by
      simp [hsteps, dropped, Step.isDuplicate]
    cases (services.beginShared context s.locals.world).1 with
    | error error => exact hleft _ hbegan (hundropped _)
    | ok result =>
      obtain ⟨l', hpassed, hsame, hdrop⟩ := passed_finalizeTransaction hpre h (s := (s.setWorld
          (services.beginShared context s.locals.world).2).note (.began (.ok result)))
        hearlier (hkept.flag.trans hflag) (hundropped _)
      exact ⟨l', hpassed.after ⟨hbegan, hkept.flag⟩, hsame, hdrop⟩

end Passed

/-! ## A history of events -/

/-- What is known of a finalized event: the lookup of the detector, whether
it was dropped, and whether its report was committed. -/
structure Outcome where
  sighting : Option Sighting
  dropped : Bool
  committed : Bool
  deriving DecidableEq

def Outcome.of (world : DetectorWorld V) (f : Finalized (DetectorWorld V)) : Outcome where
  sighting := (f.world.sightings.drop world.sightings.length).head?
  dropped := Pipeline.dropped f.steps
  committed := Pipeline.committed f.steps

/-- The events a monitor has finalized since it started. Between two of them
the world moves on without the detector. -/
inductive Served (pipeline : Pipeline (DetectorWorld V) E)
    (services : Services (DetectorWorld V) E) : List Outcome → DetectorWorld V → Prop where
  | start (rest : V) : Served pipeline services [] ⟨rest, [], []⟩
  | wait {past world world'} (h : Served pipeline services past world) (hsame : Same world world') :
      Served pipeline services past world'
  | event {past world} (h : Served pipeline services past world) (captured : CapturedEvent E)
      (hflag : captured.data.duplicateDetected = false) : Served pipeline services
        (past ++ [Outcome.of world (pipeline.finalizeCaptured services captured world)])
        (pipeline.finalizeCaptured services captured world).world

/-- The event was looked at and let through. -/
def Outcome.LetThrough (o : Outcome) (key : DuplicateKey) (time : Nat) : Prop :=
  o.sighting = some ⟨key, time, false⟩

/-- A dropped event follows one with the same key, less than one window
older, that was let through. -/
def Justified (window : Nat) (past : List Outcome) : Prop :=
  ∀ xs o ys, past = xs ++ o :: ys → o.dropped = true →
    ∃ key time first, o.sighting = some ⟨key, time, true⟩ ∧
      ∃ o' ∈ xs, o'.LetThrough key first ∧ time - first < window

/-- The lookups of the log are those of the events, the memory is justified by
them, and so is every drop. -/
structure Accounted (window : Nat) (past : List Outcome) (world : DetectorWorld V) : Prop where
  log : world.sightings = past.filterMap (·.sighting)
  remembers : Remembers world.sightings world.recent
  justified : Justified window past

namespace Accounted

variable {window : Nat} {past : List Outcome} {world world' : DetectorWorld V}

theorem start (rest : V) : Accounted window [] (⟨rest, [], []⟩ : DetectorWorld V) where
  log := rfl
  remembers := fun _ h => nomatch h
  justified := fun xs o ys h => by simp at h

theorem wait (h : Accounted window past world) (hsame : Same world world') :
    Accounted window past world' where
  log := hsame.sightings.trans h.log
  remembers := by
    rw [hsame.sightings, hsame.recent]
    exact h.remembers
  justified := h.justified

end Accounted

/-- One more event that was not dropped, or dropped for a reason in the
past. -/
theorem Justified.snoc {window past} (h : Justified window past) {o} (ho : o.dropped = true →
      ∃ key time first, o.sighting = some ⟨key, time, true⟩ ∧
        ∃ o' ∈ past, o'.LetThrough key first ∧ time - first < window) :
    Justified window (past ++ [o]) := by
  intro xs o' ys heq hdropped
  rcases eq_nil_or_concat ys with hys | ⟨zs, last, hys⟩
  · rw [hys] at heq
    obtain ⟨hxs, hlast⟩ := append_inj' heq rfl
    rw [singleton_inj] at hlast
    rw [← hlast] at hdropped ⊢
    rw [← hxs]
    exact ho hdropped
  · rw [hys, concat_eq_append, ← cons_append, ← append_assoc] at heq
    exact h xs o' zs (append_inj' heq rfl).1 hdropped

theorem Accounted.event {window : Nat} {past world} (h : Accounted window past world) {event}
    {data : CollectedData E} (hflag : data.duplicateDetected = false)
    {f : Finalized (DetectorWorld V)} (hpassed : f.Passed window event ⟨world, data, .empty⟩) :
    Accounted window (past ++ [Outcome.of world f]) f.world := by
  obtain ⟨l', hkept | ⟨run, data', hc⟩, hsame, hdrop⟩ := hpassed
  · have hworld : Same world f.world := hkept.same.trans hsame
    have hsighting : (Outcome.of world f).sighting = none := by simp [Outcome.of, hworld.sightings]
    refine ⟨?_, (h.wait hworld).remembers, h.justified.snoc fun hdropped => ?_⟩
    · rw [hworld.sightings, h.log]
      simp [hsighting]
    · have hfalse : dropped f.steps = false := hdrop.trans (hkept.flag.trans hflag)
      exact absurd (hfalse.symm.trans hdropped) (by decide)
  · have hlog : f.world.sightings = world.sightings ++
        (processAt window run event data' world.recent).sighting.toList :=
      hsame.sightings.trans hc.sightings
    have hsighting : (Outcome.of world f).sighting =
        (processAt window run event data' world.recent).sighting := by
      simp [Outcome.of, hlog]
    refine ⟨?_, ?_, h.justified.snoc fun hdropped => ?_⟩
    · rw [hlog, h.log, filterMap_append, ← hsighting]
      cases hlookup : (Outcome.of world f).sighting with
      | none => simp [hlookup]
      | some sighting => simp [hlookup]
    · rw [hlog, hsame.recent, hc.recent]
      exact h.remembers.processAt
    · obtain ⟨key, hkey, entry, hentry, hentryKey, hwindow⟩ :=
        exists_of_flagged (hc.before.trans hflag) (hc.flag.symm.trans (hdrop.symm.trans hdropped))
      have hmem := h.remembers entry hentry
      rw [h.log, hentryKey] at hmem
      obtain ⟨o', ho', hsighted⟩ := mem_filterMap.mp hmem
      exact ⟨key, run.now, entry.2.firstSeen, hsighting.trans hkey, o', ho', hsighted, hwindow⟩

section History

variable {window : Nat} {meets : V → DetectorRun × V}
  {pipeline : Pipeline (DetectorWorld V) E} {services : Services (DetectorWorld V) E}
  {before after : List (PreProcessor (DetectorWorld V) E)}

/-- Every history is accounted for. -/
theorem accounted_of_served
    (hpre : pipeline.preProcessors = before ++ duplicateDetector window meets :: after)
    (hothers : Undisturbed pipeline services (before ++ after)) {past world}
    (h : Served pipeline services past world) : Accounted window past world := by
  induction h with
  | start rest => exact .start rest
  | wait _ hsame ih => exact ih.wait hsame
  | event _ captured hflag ih => exact ih.event hflag (passed_finalizeCaptured hpre hothers hflag)

/-- In a history in which every event that the detector let through was
committed, a dropped event has an earlier one with the same key, less than one
window older, whose report was committed. -/
theorem dropped_after_commit
    (hpre : pipeline.preProcessors = before ++ duplicateDetector window meets :: after)
    (hothers : Undisturbed pipeline services (before ++ after))
    {past : List Outcome} {world : DetectorWorld V} (h : Served pipeline services past world)
    (hcommits : ∀ o ∈ past, ∀ key time, o.LetThrough key time → o.committed = true)
    (xs ys : List Outcome) (o : Outcome) (hpast : past = xs ++ o :: ys)
    (hdropped : o.dropped = true) :
    ∃ key time first, o.sighting = some ⟨key, time, true⟩ ∧
      ∃ o' ∈ xs, o'.LetThrough key first ∧ time - first < window ∧ o'.committed = true := by
  obtain ⟨key, time, first, hsighting, o', ho', hthrough, hwindow⟩ :=
    (accounted_of_served hpre hothers h).justified xs o ys hpast hdropped
  have hmem : o' ∈ past := hpast ▸ mem_append_left _ ho'
  exact ⟨key, time, first, hsighting, o', ho', hthrough, hwindow,
    hcommits o' hmem key first hthrough⟩

end History

/-! ## Two equal crashes -/

namespace EqualCrashes

/-- Every event gets the same fingerprint. -/
def fingerprinter : PreProcessor (DetectorWorld Nat) Unit where
  toPlugin := .plain "Fingerprinter"
  process := fun _ _ data world =>
    (⟨.ok (), none, false, true⟩, { data with fingerprint := some "f" }, world)

/-- The rest of the world is a clock, which the detector reads. -/
def meets (now : Nat) : DetectorRun × Nat := (⟨now, fun _ => false, .ok (), false⟩, now + 1)

def pipeline : Pipeline (DetectorWorld Nat) Unit :=
  { plain [] with preProcessors := [fingerprinter, duplicateDetector 60 meets] }

variable (result : Except String CommittedReport)

def services : Services (DetectorWorld Nat) Unit := .plain fun world => (result, world)

theorem undisturbed : Undisturbed pipeline (services result) ([fingerprinter] ++ []) where
  filters := fun _ h => nomatch h
  collectors := fun _ h => nomatch h
  preProcessors := by
    intro p hp event timeout l
    rw [append_nil, mem_singleton] at hp
    subst hp
    exact ⟨.refl _, rfl⟩
  postProcessors := fun _ h => nomatch h
  notifiers := fun _ h => nomatch h
  isTimedOut := fun _ w => .refl w
  pendingDir := .refl
  beginShared := fun _ w => .refl w
  writeRawStage1 := fun _ w => .refl w
  writeRawShmStage1 := fun _ w => .refl w
  writeReport := fun _ _ _ _ w => .refl w
  commit := .refl
  persistFinalDiagnostics := fun _ _ w => .refl w
  releaseThreadPorts := fun _ w => .refl w
  releasePublicationLease := .refl
  dropTransaction := .refl

def captured : CapturedEvent Unit := .plain OpenGate.event.reportId

def first : Finalized (DetectorWorld Nat) :=
  pipeline.finalizeCaptured (services result) captured ⟨0, [], []⟩

def second : Finalized (DetectorWorld Nat) :=
  pipeline.finalizeCaptured (services result) captured (first result).world

/-- The outcomes of the two crashes. -/
def past : List Outcome :=
  [Outcome.of ⟨0, [], []⟩ (first result), .of (first result).world (second result)]

theorem served : Served pipeline (services result) (past result) (second result).world :=
  .event (.event (.start 0) captured rfl) captured rfl

def key : DuplicateKey := ⟨"f", .crash, "fatal", "app", "unknown-build"⟩

theorem past_failed : past (.error "disk full") =
    [⟨some ⟨key, 0, false⟩, false, false⟩, ⟨some ⟨key, 1, true⟩, true, false⟩] := by
  decide +kernel

def report : CommittedReport := ⟨captured.event.reportId, [], []⟩

theorem past_committed : past (.ok report) =
    [⟨some ⟨key, 0, false⟩, false, true⟩, ⟨some ⟨key, 1, true⟩, true, false⟩] := by
  decide +kernel

end EqualCrashes

open EqualCrashes

theorem equal_crash_dropped_after_commit : ∃ time first,
    ∃ o ∈ [(⟨some ⟨key, 0, false⟩, false, true⟩ : Outcome)],
      o.LetThrough key first ∧ time - first < 60 ∧ o.committed = true := by
  have hcommits : ∀ o ∈ past (.ok report), ∀ key time,
      o.LetThrough key time → o.committed = true := by
    simp [past_committed, Outcome.LetThrough]
  have hpre : pipeline.preProcessors = [fingerprinter] ++ duplicateDetector 60 meets :: [] := rfl
  obtain ⟨key, time, first, hsighting, hearlier⟩ := dropped_after_commit hpre
    (undisturbed _) (served (.ok report)) hcommits [_] [] _ past_committed rfl
  simp only [Option.some.injEq, Sighting.mk.injEq] at hsighting
  exact ⟨time, first, hsighting.1 ▸ hearlier⟩

/-- The report of the first crash cannot be committed; the second crash is
dropped as its duplicate, and no report is left of either. -/
theorem only_report_lost : ∃ past world,
    Served pipeline (services (.error "disk full")) past world ∧
      (∃ o ∈ past, o.dropped = true) ∧ ∀ o ∈ past, o.committed = false := by
  refine ⟨past (.error "disk full"), _, served _, ?_, ?_⟩
  · simp [past_failed]
  · simp [past_failed]

end CrashMonitor.Pipeline
