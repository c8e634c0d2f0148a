import CrashMonitor.Pipeline.Finalize

/-!
# The course of a finalization

Whatever the plugins do, `finalize_captured` takes one of a few courses. Each
loop only adds the plugins it reached to the steps of the run, so the list of
steps of a whole finalization has one of seven shapes, one for each place at
which the function can return.
-/

namespace CrashMonitor.Pipeline

open Capture EventLoop Store List Progress

variable {W E : Type}

/-! ## Plugins reached by a loop -/

namespace Visit

variable (v : Visit)

def Skipped : Prop := ∃ reason, v.status = .skipped reason

/-- What the loop of a stage does with a plugin. -/
def Obeys : Prop :=
  match v.stage with
  | .helper => v.ran = true
  | .attachmentCopier => v.ran = true
  | .unnotified => v.ran = false ∧ v.Skipped
  | _ => (v.ran = true ↔ v.plugin.isAvailable = true ∧
        depsSatisfied v.plugin.hardDependencies v.consulted = true) ∧ (v.ran = false → v.Skipped)

/-- A visit of the loop of a stage, in a run that continues the records
`earlier`. -/
structure FromLoop (stage : Stage) (earlier : Diagnostics) : Prop where
  stage_eq : v.stage = stage
  obeys : v.Obeys
  seen_eq : v.seen = earlier ++ v.consulted

/-- A filter completed with the answer `false`. -/
def Rejected : Prop := v.stage = .filter ∧ ∃ reason, v.status = .rejected reason

end Visit

/-- The stages that gate their plugins by their own records. -/
def Stage.asks : Stage → Bool
  | .helper => false
  | .attachmentCopier => false
  | .unnotified => false
  | _ => true

open Visit

open Stage

theorem Visit.obeys_of_asks {v : Visit} (hstage : v.stage.asks = true)
    (hran : v.ran = (v.plugin.isAvailable && depsSatisfied v.plugin.hardDependencies v.consulted))
    (hskipped : v.ran = false → v.Skipped) : v.Obeys := by
  unfold Obeys
  split
  · next heq => simp [heq, asks] at hstage
  · next heq => simp [heq, asks] at hstage
  · next heq => simp [heq, asks] at hstage
  · exact ⟨by rw [hran, Bool.and_eq_true], hskipped⟩

/-- The run went from `s` to `s'` by reaching plugins, all of the given
kind. -/
structure Extends (kind : Visit → Prop) (s s' : Progress W E) : Prop where
  earlier : s'.earlier = s.earlier
  visits : ∃ vs : List Visit, s'.steps = s.steps ++ vs.map .reached ∧ ∀ v ∈ vs, kind v

namespace Extends

variable {kind other : Visit → Prop} {s s' s'' : Progress W E}

theorem refl (s : Progress W E) : Extends kind s s := ⟨rfl, [], by simp, by simp⟩

theorem of_eq (hsteps : s'.steps = s.steps) (hearlier : s'.earlier = s.earlier) :
    Extends kind s s' := ⟨hearlier, [], by simp [hsteps], by simp⟩

theorem trans (h : Extends kind s s') (h' : Extends kind s' s'') : Extends kind s s'' := by
  obtain ⟨vs, hvs, hkind⟩ := h.visits
  obtain ⟨vs', hvs', hkind'⟩ := h'.visits
  exact ⟨h'.earlier.trans h.earlier, vs ++ vs', by simp [hvs', hvs],
    forall_mem_append.mpr ⟨hkind, hkind'⟩⟩

theorem andThen {e} (h : Extends kind s s') (hs : s.earlier = e)
    (next : s'.earlier = e → Extends kind s' s'') : Extends kind s s'' :=
  h.trans (next (h.earlier.trans hs))

theorem mono (h : Extends kind s s') (hle : ∀ v, kind v → other v) : Extends other s s' := by
  obtain ⟨vs, hvs, hkind⟩ := h.visits
  exact ⟨h.earlier, vs, hvs, fun v hv => hle v (hkind v hv)⟩

/-- A loop of such steps is such a step; none of them changes the earlier
records. -/
theorem foldl {P : Type} {step e} (hstep : ∀ s p, s.earlier = e → Extends kind s (step s p))
    (l : List P) (hs : s.earlier = e) : Extends kind s (l.foldl step s) := by
  induction l generalizing s with
  | nil => exact refl s
  | cons p l ih =>
    have h := hstep s p hs
    exact h.trans (ih (h.earlier.trans hs))

end Extends

section Loops

variable {services : Services W E} {s : Progress W E} {e : Diagnostics}
variable {stage : Stage} {plugin : Plugin} {event : CrashEvent}

/-- Reaching one plugin. -/
theorem extends_of_reach {kind ran status l}
    (h : kind ⟨stage, plugin, s.diagnostics, s.recorded, ran, status⟩) :
    Extends kind s (s.reach stage plugin ran status l) := by
  exact ⟨rfl, [⟨stage, plugin, s.diagnostics, s.recorded, ran, status⟩], rfl,
    forall_mem_singleton.mpr h⟩

theorem extends_reach {ran status} (hs : s.earlier = e) {l}
    (hobeys : Obeys ⟨stage, plugin, s.diagnostics, s.recorded, ran, status⟩) :
    Extends (FromLoop · stage e) s (s.reach stage plugin ran status l) :=
  extends_of_reach ⟨rfl, hobeys, by rw [← hs]; rfl⟩

theorem extends_visit {unmet : String} {categoryDefault body}
    (hstage : stage.asks = true) (hs : s.earlier = e) : Extends (FromLoop · stage e) s
      (visit services stage unmet plugin categoryDefault body s) := by
  unfold visit
  split
  · exact extends_reach hs (obeys_of_asks hstage (by simp_all) fun _ => ⟨_, rfl⟩)
  split
  · exact extends_reach hs (obeys_of_asks hstage (by simp_all) fun _ => ⟨_, rfl⟩)
  · exact extends_reach hs (obeys_of_asks hstage (by simp_all) nofun)

theorem extends_collectLoop (hstage : stage.asks = true) {task cancelled snapshot access collectors}
    (hs : s.earlier = e) :
    Extends (FromLoop · stage e) s
      (collectLoop services stage event task cancelled snapshot access collectors s) := by
  induction collectors generalizing s with
  | nil => exact .refl s
  | cons collector rest ih =>
    unfold collectLoop
    split
    · exact ih hs
    dsimp only
    split
    · exact .of_eq rfl rfl
    have hworld : Extends (FromLoop · stage e) s
        (s.setWorld (cancelled s.locals.world).2) := .of_eq rfl rfl
    exact hworld.andThen hs fun hs => (extends_visit hstage hs).andThen hs ih

theorem extends_helperLoop {task} (collectors : List (Collector W E)) (hs : s.earlier = e) :
    Extends (FromLoop · .helper e) s (helperLoop services event task collectors s) := by
  induction collectors generalizing s with
  | nil => exact .refl s
  | cons collector rest ih => exact (extends_reach hs (by simp [Obeys])).andThen hs ih

theorem extends_runPreProcessors (services : Services W E) (event : CrashEvent)
    (processors : List (PreProcessor W E)) (hs : s.earlier = e) :
    Extends (FromLoop · .preProcess e) s (runPreProcessors services event processors s) :=
  .foldl (fun _ _ hs => extends_visit rfl hs) _ hs

theorem extends_runAttachmentCopier {processors} (hs : s.earlier = e) :
    Extends (FromLoop · .attachmentCopier e) s (runAttachmentCopier services event processors s) :=
  .foldl (fun _ _ hs => extends_reach hs (by simp [Obeys])) _ hs

theorem extends_runPostProcessors {event phase processors} (hs : s.earlier = e) :
    Extends (FromLoop · (.postProcess phase) e) s
      (runPostProcessors services event phase processors s) :=
  .foldl (fun _ _ hs => extends_visit rfl hs) _ hs

/-- The notifiers are all run through the gate or all passed over. -/
theorem extends_runNotifiers {notifiers} (hs : s.earlier = e) :
    Extends (fun v => v.FromLoop .notify e ∨ v.FromLoop .unnotified e) s
      (runNotifiers services notifiers s) := by
  unfold runNotifiers
  split
  · refine .mono ?_ fun v hv => .inl hv
    exact .foldl (fun _ _ hs => extends_visit rfl hs) _ hs
  · refine .mono ?_ fun v hv => .inr hv
    exact .foldl (fun _ _ hs => extends_reach hs (by exact ⟨rfl, _, rfl⟩)) _ hs

/-! ## Filters -/

/-- Only the answer `false` of a completed filter counts as a rejection. -/
theorem filterStatus_rejected_iff {name result} :
    (∃ reason, filterStatus name result = .rejected reason) ↔
      result.intoOption.getD true = false := by
  cases result with
  | completed answer => cases answer <;> simp [filterStatus, PluginRunResult.intoOption]
  | failed error | panicked message | timedOut => simp [filterStatus, PluginRunResult.intoOption]

/-- The filters reached, and that the event passed exactly if none of them
rejected it. -/
structure Filtered (s : Progress W E) (outcome : Progress W E × Bool) : Prop where
  earlier : outcome.1.earlier = s.earlier
  visits : ∃ vs : List Visit, outcome.1.steps = s.steps ++ vs.map .reached ∧
    (∀ v ∈ vs, v.FromLoop .filter s.earlier) ∧ (outcome.2 = true ↔ ∀ v ∈ vs, ¬ v.Rejected)

/-- A filter that did not reject leaves the answer to the rest. -/
theorem Filtered.cons {s' outcome}
    (h : Extends (fun v => v.FromLoop .filter s.earlier ∧ ¬ v.Rejected) s s')
    (hrest : Filtered s' outcome) : Filtered s outcome := by
  obtain ⟨vs, hvs, hkind⟩ := h.visits
  obtain ⟨ws, hws, hloop, hpass⟩ := hrest.visits
  rw [h.earlier] at hloop
  refine ⟨hrest.earlier.trans h.earlier, vs ++ ws, by simp [hws, hvs],
    forall_mem_append.mpr ⟨fun v hv => (hkind v hv).1, hloop⟩, ?_⟩
  rw [hpass, forall_mem_append]
  exact (and_iff_right fun v hv => (hkind v hv).2).symm

/-- A skipped filter does not reject. -/
theorem extends_skipFilter {reason}
    (hobeys : Obeys ⟨.filter, plugin, s.diagnostics, s.recorded, false, .skipped reason⟩) :
    Extends (fun v => v.FromLoop .filter s.earlier ∧ ¬ v.Rejected) s
      (s.skip .filter plugin reason) := extends_of_reach ⟨⟨rfl, hobeys, rfl⟩, by simp [Rejected]⟩

theorem filtered_runFilters (services : Services W E) (event : CrashEvent)
    (filters : List (Filter W))
    (s : Progress W E) : Filtered s (runFilters services event filters s) := by
  induction filters generalizing s with
  | nil => exact ⟨rfl, [], by simp [runFilters], by simp, by simp [runFilters]⟩
  | cons filter rest ih =>
    unfold runFilters
    split
    · exact .cons (extends_skipFilter (obeys_of_asks rfl (by simp_all) fun _ => ⟨_, rfl⟩)) (ih _)
    split
    · exact .cons (extends_skipFilter (obeys_of_asks rfl (by simp_all) fun _ => ⟨_, rfl⟩)) (ih _)
    dsimp only
    generalize runBody services filter.name filter.execution
      (filter.timeout.resolve filterTimeout) (filter.body event) s.locals = run
    have hobeys : Obeys ⟨.filter, filter.toPlugin, s.diagnostics, s.recorded, true,
        filterStatus filter.name run.1⟩ := obeys_of_asks rfl (by simp_all) nofun
    split
    · next hpass =>
      refine .cons (extends_of_reach ⟨⟨rfl, hobeys, rfl⟩, ?_⟩) (ih _)
      intro hrejected
      have hfail := filterStatus_rejected_iff.mp hrejected.2
      simp [hpass] at hfail
    · next hfail =>
      refine ⟨rfl, [_], rfl, forall_mem_singleton.mpr ⟨rfl, hobeys, rfl⟩, ?_⟩
      have hrejected : ∃ reason, filterStatus filter.name run.1 = .rejected reason :=
        filterStatus_rejected_iff.mpr (by simpa using hfail)
      simp [Rejected, hrejected]

end Loops

/-! ## Courses -/

/-- The stages after the commit. -/
def Stage.isLate : Stage → Bool
  | .postProcess .afterCommit => true
  | .postProcess .afterNotify => true
  | .postProcess .finalCleanup => true
  | .notify => true
  | .unnotified => true
  | _ => false

/-- The stages between the duplicate check and the commit. -/
def Stage.isEarly : Stage → Bool
  | .attachmentCopier => true
  | .postProcess .beforeCommit => true
  | _ => false

/-- A visit of some loop among those of the given stages, with the event's
records in one object. -/
def Visit.Within (stages : Stage → Bool) (v : Visit) : Prop :=
  stages v.stage = true ∧ v.FromLoop v.stage []

/-- The visits up to the duplicate check. -/
structure Opening (captured : Diagnostics) where
  deferred : List Visit
  filters : List Visit
  deferred_from : ∀ v ∈ deferred, v.FromLoop .deferred captured
  filters_from : ∀ v ∈ filters, v.FromLoop .filter []

def Opening.steps {captured : Diagnostics} (o : Opening captured) : List Step :=
  o.deferred.map .reached ++ .began (.ok ()) :: o.filters.map .reached

/-- The steps of a finalization, by the place it returned from. -/
inductive Course (enabled : Bool) (captured : Diagnostics) : List Step → Prop where
  | disabled (h : enabled = false) : Course enabled captured []
  | rootUnresolved (h : enabled = true) (error : String) :
      Course enabled captured [.rootUnresolved error]
  | notBegun (h : enabled = true) (error : String) (deferred : List Visit)
      (hdeferred : ∀ v ∈ deferred, v.FromLoop .deferred captured) :
      Course enabled captured (deferred.map .reached ++ [.began (.error error)])
  | rejected (h : enabled = true) (o : Opening captured)
      (hrejected : ∃ v ∈ o.filters, v.Rejected) : Course enabled captured o.steps
  | duplicate (h : enabled = true) (o : Opening captured)
      (hpassed : ∀ v ∈ o.filters, ¬ v.Rejected) (pre : List Visit)
      (hpre : ∀ v ∈ pre, v.FromLoop .preProcess []) :
      Course enabled captured (o.steps ++ (pre.map .reached ++ [.duplicateCheck true]))
  | uncommitted (h : enabled = true) (o : Opening captured)
      (hpassed : ∀ v ∈ o.filters, ¬ v.Rejected) (pre early : List Visit)
      (hpre : ∀ v ∈ pre, v.FromLoop .preProcess []) (hearly : ∀ v ∈ early, v.Within isEarly)
      (error : String) :
      Course enabled captured (o.steps ++ (pre.map .reached ++ .duplicateCheck false ::
        (early.map .reached ++ [.commit (.error error)])))
  | committed (h : enabled = true) (o : Opening captured)
      (hpassed : ∀ v ∈ o.filters, ¬ v.Rejected) (pre early late : List Visit)
      (hpre : ∀ v ∈ pre, v.FromLoop .preProcess []) (hearly : ∀ v ∈ early, v.Within isEarly)
      (hlate : ∀ v ∈ late, v.Within isLate) (report : CommittedReport) :
      Course enabled captured (o.steps ++ (pre.map .reached ++ .duplicateCheck false ::
        (early.map .reached ++ .commit (.ok report) :: late.map .reached)))

section Course

variable (pipeline : Pipeline W E) (services : Services W E) {s : Progress W E}

section

variable (event : CrashEvent) (rawShm : Option RawShmSnapshot) {kind : Visit → Prop}
  {captured : Diagnostics} {o : Opening captured} (staging : Path)

theorem Visit.FromLoop.within {v : Visit} {stage stages}
    (h : v.FromLoop stage []) (hstage : stages stage = true) : v.Within stages :=
  ⟨by rw [h.stage_eq, hstage], h.stage_eq.symm ▸ h⟩

/-- Recording a status is not a step. -/
theorem extends_recordWarnings (report : CommittedReport)
    (s : Progress W E) : Extends kind s (recordWarnings report s) := by
  unfold recordWarnings
  induction report.durabilityWarnings generalizing s with
  | nil => exact .refl s
  | cons warning rest ih =>
    have hrecord : Extends kind s (s.record "ArtifactDurability" (.error warning)) := .of_eq rfl rfl
    exact hrecord.trans (ih _)

theorem extends_persistFinalDiagnostics {report s} :
    Extends kind s (persistFinalDiagnostics services report s) := by
  unfold persistFinalDiagnostics
  split
  · exact .refl s
  dsimp only
  split
  · exact .of_eq rfl rfl
  · exact .of_eq rfl rfl

theorem extends_runCommittedStages (hs : s.earlier = []) :
    Extends (Within isLate) s (pipeline.runCommittedStages services event s) := by
  have hpost : ∀ phase (s : Progress W E), isLate (.postProcess phase) = true →
      s.earlier = [] → Extends (Within isLate) s
        (runPostProcessors services event phase pipeline.postProcessors s) :=
    fun phase s hlate hs => (extends_runPostProcessors hs).mono fun v hv => hv.within hlate
  have hnotify : ∀ s, s.earlier = [] → Extends (Within isLate) s
        (runNotifiers services pipeline.notifiers s) :=
    fun s hs => (extends_runNotifiers hs).mono fun v hv => hv.elim (·.within rfl) (·.within rfl)
  exact (hpost .afterCommit s rfl hs).andThen hs fun hs => (hnotify _ hs).andThen hs
    fun hs => (hpost .afterNotify _ rfl hs).andThen hs fun hs => hpost .finalCleanup _ rfl hs

theorem afterCommit_steps (report : CommittedReport) (hs : s.earlier = []) : ∃ late : List Visit,
      (pipeline.afterCommit services event staging report s).steps =
        s.steps ++ late.map .reached ∧ ∀ v ∈ late, v.Within isLate := by
  have hwarned : Extends (Within isLate) s ((recordWarnings report s).setResult (remapResult
        (recordWarnings report s).locals.result staging (reportDir report))) :=
    (extends_recordWarnings report s).trans (.of_eq rfl rfl)
  have hran := hwarned.trans (extends_runCommittedStages pipeline services event
    (hwarned.earlier.trans hs))
  exact (hran.trans (extends_persistFinalDiagnostics services)).visits

/-- The commit is attempted, and the rest only follows a success. -/
theorem commitReport_steps (hs : s.earlier = []) :
    (∃ error, (pipeline.commitReport services event staging s).steps =
      s.steps ++ [.commit (.error error)]) ∨ ∃ (report : CommittedReport) (late : List Visit),
      (pipeline.commitReport services event staging s).steps =
        s.steps ++ .commit (.ok report) :: late.map .reached ∧ ∀ v ∈ late, v.Within isLate := by
  unfold commitReport
  dsimp only
  cases hcommit : (services.commit s.locals.world).1 with
  | error error => exact .inl ⟨error, rfl⟩
  | ok report =>
    obtain ⟨late, hsteps, hlate⟩ := afterCommit_steps pipeline services event staging report
      (s := (s.setWorld (services.commit s.locals.world).2).note (.commit (.ok report))) hs
    exact .inr ⟨report, late, by simpa [note, setWorld] using hsteps, hlate⟩

/-- The writers of the pipeline reach no plugin. -/
theorem writeStage1_steps : (writeStage1 services rawShm s).2.steps = s.steps := by
  cases rawShm <;> rfl

theorem writeStage1_earlier : (writeStage1 services rawShm s).2.earlier = s.earlier := by
  cases rawShm <;> rfl

theorem extends_beforeCommit (rawPath : Option Path) (hs : s.earlier = []) :
    Extends (Within isEarly) s
      (runPostProcessors services event .beforeCommit pipeline.postProcessors
        (writeStage2 services event rawPath
          (runAttachmentCopier services event pipeline.preProcessors s))) := by
  have hcopied : Extends (Within isEarly) s
      (runAttachmentCopier services event pipeline.preProcessors s) :=
    (extends_runAttachmentCopier hs).mono fun v hv => hv.within rfl
  have hwritten : Extends (Within isEarly) s (writeStage2 services event rawPath
      (runAttachmentCopier services event pipeline.preProcessors s)) :=
    hcopied.trans (.of_eq rfl rfl)
  exact hwritten.andThen hs fun hs => (extends_runPostProcessors hs).mono fun v hv => hv.within rfl

section

variable (hpassed : ∀ v ∈ o.filters, ¬ v.Rejected) {pre : List Visit}
  (hpre : ∀ v ∈ pre, v.FromLoop .preProcess []) (event : CrashEvent) (staging : Path)
  (rawPath : Option Path) (hs : s.earlier = [])
include hpassed hpre hs

theorem course_publish
    (hsteps : s.steps = o.steps ++ (pre.map .reached ++ [.duplicateCheck false])) :
    Course true captured (pipeline.publish services event staging rawPath s).steps := by
  have hbefore := extends_beforeCommit pipeline services event rawPath hs
  obtain ⟨early, hearlySteps, hearly⟩ := hbefore.visits
  rcases commitReport_steps pipeline services event staging (hbefore.earlier.trans hs) with
    ⟨error, hcommit⟩ | ⟨report, late, hcommit, hlate⟩
  · rw [hearlySteps, hsteps] at hcommit
    have hcourse := Course.uncommitted rfl o hpassed pre early hpre hearly error
    simp only [publish, hcommit]
    simpa using hcourse
  · rw [hearlySteps, hsteps] at hcommit
    have hcourse := Course.committed rfl o hpassed pre early late hpre hearly hlate report
    simp only [publish, hcommit]
    simpa using hcourse

theorem course_publishUnlessDuplicate (hsteps : s.steps = o.steps ++ pre.map .reached) :
    Course true captured
      (pipeline.publishUnlessDuplicate services event staging rawPath s).steps := by
  unfold publishUnlessDuplicate
  cases s.locals.data.duplicateDetected with
  | true =>
    have hcourse : Course true captured _ := .duplicate rfl o hpassed pre hpre
    simpa [note, leave, hsteps] using hcourse
  | false =>
    exact course_publish pipeline services hpassed hpre event staging rawPath hs
      (by simp [note, hsteps])

end

end

variable (captured : CapturedEvent E)

theorem course_finalizeTransaction {staging} {deferred : List Visit}
    (hdeferred : ∀ v ∈ deferred, v.FromLoop .deferred captured.diagnostics)
    (hs : s.earlier = []) (hsteps : s.steps = deferred.map .reached ++ [.began (.ok ())]) :
    Course true captured.diagnostics
      (pipeline.finalizeTransaction services captured staging s).steps := by
  unfold finalizeTransaction
  dsimp only
  have hfiltered : Filtered (writeStage1 services captured.rawShm s).2
      (runFilters services captured.event pipeline.filters
        (writeStage1 services captured.rawShm s).2) :=
    filtered_runFilters services captured.event pipeline.filters _
  generalize runFilters services captured.event pipeline.filters
    (writeStage1 services captured.rawShm s).2 = filtered at hfiltered ⊢
  have hs' : filtered.1.earlier = [] :=
    hfiltered.earlier.trans ((writeStage1_earlier ..).trans hs)
  obtain ⟨filters, hfilterSteps, hfilters, hpass⟩ := hfiltered.visits
  rw [writeStage1_steps, hsteps] at hfilterSteps
  rw [writeStage1_earlier, hs] at hfilters
  let o : Opening captured.diagnostics := ⟨deferred, filters, hdeferred, hfilters⟩
  have hopening : filtered.1.steps = o.steps := by simpa [Opening.steps, o] using hfilterSteps
  split
  · next hanswer =>
      have hran : Extends (FromLoop · .preProcess []) filtered.1
          (runPreProcessors services captured.event pipeline.preProcessors filtered.1) :=
        extends_runPreProcessors services captured.event _ hs'
      obtain ⟨pre, hpreSteps, hpre⟩ := hran.visits
      exact course_publishUnlessDuplicate pipeline services (hpass.mp hanswer) hpre
        captured.event staging _ (hran.earlier.trans hs') (hopening ▸ hpreSteps)
  · next hanswer =>
      have hrejected : ∃ v ∈ o.filters, v.Rejected := by
        by_contra hnone
        exact hanswer (hpass.mpr fun v hv hr => hnone ⟨v, hv, hr⟩)
      have hcourse : Course true captured.diagnostics _ := .rejected rfl o hrejected
      simpa [leave, hopening] using hcourse

/-- A collection reaches its collectors in one loop. -/
theorem collectSnapshotByAccess_steps {stage} (hstage : stage.asks = true) (event : CrashEvent)
    (task : Nat) (cancelled : W → Bool × W) (snapshot : Option Shm.OwnedShmSnapshot)
    (access : Option CollectorAccess) (earlier : Diagnostics) (world : W) : ∃ visits : List Visit,
      (pipeline.collectSnapshotByAccess services stage event task cancelled snapshot access
        earlier world).1.steps = visits.map .reached ∧ ∀ v ∈ visits, v.FromLoop stage earlier := by
  unfold collectSnapshotByAccess
  split
  · exact ⟨[], rfl, by simp⟩
  have hloop : Extends (FromLoop · stage earlier) (.start world .empty earlier [])
      (collectLoop services stage event task cancelled snapshot access
        pipeline.collectors (.start world .empty earlier [])) := extends_collectLoop hstage rfl
  exact hloop.visits

/-- The collectors left to the finalization continue the records of the
capture in an object of their own. -/
theorem runDeferredCollectors_steps (world : W) : ∃ deferred : List Visit,
      (pipeline.runDeferredCollectors services captured
        (.start world captured.data [] captured.diagnostics)).steps =
          deferred.map .reached ∧ ∀ v ∈ deferred, v.FromLoop .deferred captured.diagnostics := by
  unfold runDeferredCollectors
  split
  · exact collectSnapshotByAccess_steps pipeline services rfl captured.event 0 _ _ _ _ _
  · exact ⟨[], rfl, by simp⟩

theorem runDeferredCollectors_earlier (s : Progress W E) :
    (pipeline.runDeferredCollectors services captured s).earlier = s.earlier := by
  unfold runDeferredCollectors
  split <;> rfl

/-- Every finalization takes one of the courses. -/
theorem course_finalizeCaptured (world : W) :
    Course (pipeline.reportEnabled captured.event.reportType) captured.diagnostics
      (pipeline.finalizeCaptured services captured world).steps := by
  unfold finalizeCaptured
  cases pipeline.reportEnabled captured.event.reportType with
  | false => exact .disabled rfl
  | true =>
    generalize pipeline.resolveReportContext services captured world = resolved
    obtain ⟨context, world⟩ := resolved
    cases context with
    | error error => exact .rootUnresolved rfl error
    | ok context =>
      obtain ⟨deferred, hsteps, hdeferred⟩ :=
        runDeferredCollectors_steps pipeline services captured world
      have hearlier := runDeferredCollectors_earlier pipeline services captured
        (.start world captured.data [] captured.diagnostics)
      dsimp only
      generalize pipeline.runDeferredCollectors services captured
        (.start world captured.data [] captured.diagnostics) = s at hsteps hearlier ⊢
      cases hbegan : (services.beginShared context s.locals.world).1 with
      | error error =>
        have hcourse : Course true captured.diagnostics _ := .notBegun rfl error deferred hdeferred
        simpa [note, record, setWorld, hsteps] using hcourse
      | ok result =>
        exact course_finalizeTransaction pipeline services captured
          hdeferred hearlier (by simp [note, setWorld, hsteps])

end Course

end CrashMonitor.Pipeline
