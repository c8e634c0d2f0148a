import CrashMonitor.Capture.Worker

/-!
# Task suspension is balanced

Every complete run of a capture, on either path, is one of five: it did not
touch the task; its suspend failed; it suspended and released the task, the
helper being gone; or, with the helper's exit unproven, it terminated the
task instead, suspended or not. What it recorded is what the calls say.
-/

namespace CrashMonitor.Capture

open Interleave EventLoop Shm List

variable {D : Type}

/-- What a capture did to the task, and the failures it recorded. -/
inductive Balanced (task : Nat) : List (CaptureEvent D) → List TaskControlFailure → Prop where
  | untouched {t} (h : taskCalls t = []) : Balanced task t []
  | notSuspended {t error}
      (h : taskCalls t = [.of (.suspendTask task) (.error error)]) : Balanced task t []
  /-- released while the helper was reaped or never started -/
  | released {before calls failures}
      (hbefore : taskCalls before = [.of (.suspendTask task) (.ok ())])
      (hhelper : HelperGone before) (hcalls : Resumes task calls failures) :
      Balanced task (before ++ calls) failures
  /-- terminated without a resume, the helper's exit being unproven -/
  | contained {before calls reason failures}
      (hbefore : taskCalls before = [.of (.suspendTask task) (.ok ())])
      (hhelper : ¬ HelperGone before) (hcalls : Contains task reason calls failures) :
      Balanced task (before ++ calls) failures
  | containedUnsuspended {before calls reason error failures}
      (hbefore : taskCalls before = [.of (.suspendTask task) (.error error)])
      (hhelper : ¬ HelperGone before) (hcalls : Contains task reason calls failures) :
      Balanced task (before ++ calls) failures

/-- A run and its outcome: balanced, and the failures it recorded end the
diagnostics. -/
def Reports (task : Nat) (t : List (CaptureEvent D)) (outcome : CaptureOutcome D) : Prop :=
  ∃ failures : TaskControlFailureSink, Balanced task t failures ∧
    ∃ rest, outcome.diagnostics = failures.drainInto rest

theorem Reports.of_untouched {task t}
    (h : taskCalls t = []) {outcome : CaptureOutcome D} : Reports task t outcome :=
  ⟨[], .untouched h, outcome.diagnostics, (append_nil _).symm⟩

theorem Reports.of_notSuspended {task t error}
    (h : taskCalls t = [.of (.suspendTask task) (.error error)])
    {outcome : CaptureOutcome D} : Reports task t outcome :=
  ⟨[], .notSuspended h, outcome.diagnostics, (append_nil _).symm⟩

/-! ## While the guard is held -/

/-- The suspend call of the history and the guard that came of it. -/
inductive Holds (task : Nat) (h : List (CaptureEvent D)) : Option TaskSuspendGuard → Prop where
  | suspended (hcalls : taskCalls h = [.of (.suspendTask task) (.ok ())]) :
      Holds task h (some ⟨task, true⟩)
  | failed {error} (hcalls : taskCalls h = [.of (.suspendTask task) (.error error)]) :
      Holds task h none

variable {task : Nat} {h t : List (CaptureEvent D)} {guard : Option TaskSuspendGuard}

theorem Holds.of_quiet (hg : Holds task h guard) (hq : Quiet h t) : Holds task t guard := by
  cases hg with
  | suspended hcalls => exact .suspended (hq.calls.trans hcalls)
  | failed hcalls => exact .failed (hq.calls.trans hcalls)

theorem Holds.suspends (hg : Holds task h guard) :
    ∃ answer, taskCalls h = [.of (.suspendTask task) answer] := by
  cases hg with
  | suspended hcalls | failed hcalls => exact ⟨_, hcalls⟩

theorem finishSuspend_from (hg : Holds task h guard) (hgone : HelperGone h) :
    Prog.From h (finishSuspend guard [] : P D _) fun t r => r.1 = none ∧ Balanced task t r.2 := by
  cases hg with
  | suspended hcalls =>
    apply (finish_from rfl).bind
    rintro t sink ⟨calls, failures, rfl, rfl, hresumes⟩
    exact ⟨rfl, .released hcalls hgone hresumes⟩
  | failed hcalls => exact ⟨rfl, .notSuspended hcalls⟩

/-- The guard is given up before a helper is started. -/
theorem finishSuspend_still (hg : Holds task h guard) (hnew : helperStatus h = .notStarted)
    (ht : Still h t) :
    Prog.From t (finishSuspend guard [] : P D _) fun t r => r.1 = none ∧ Balanced task t r.2 :=
  finishSuspend_from (hg.of_quiet ht.quiet) (.inl (ht.helper.trans hnew))

variable (worker : CaptureWorker) (pipeline : Pipeline)

theorem snapshotShmWhileSuspended_from {deadline} :
    Prog.From h (pipeline.snapshotShmWhileSuspended deadline : P D _) fun t _ => Still h t := by
  apply Prog.From.ite
  · intro _
    exact .refl h
  intro _ answer
  have hstill := (Still.refl h).concat
    (e := .of (.snapshotShm deadline pipeline.snapshotPolicy) answer) rfl fun _ => rfl
  cases answer <;> exact hstill

theorem snapshotIfSuspended_from {guard deadline} :
    Prog.From h (pipeline.snapshotIfSuspended guard deadline : P D _) fun t _ => Still h t := by
  apply Prog.From.ite
  · intro _
    exact snapshotShmWhileSuspended_from pipeline
  · intro _
    exact .refl h

variable (decode : Decoder D) (rounds : Nat) (event : CrashEvent)

theorem prepareIsolatedJob_from : Prog.From h (worker.prepareIsolatedJob pipeline event : P D _)
      fun t _ => Still h t := by
  apply Prog.From.ite
  · intro _
    exact .refl h
  intro _
  rcases TaskCaptureRequest.fromPipeline pipeline event with error | (_ | request)
  · exact .refl h
  · exact .refl h
  intro created
  have hcreated := (Still.refl h).concat (e := .of .createResultFile created)
    rfl fun _ => rfl
  cases created <;> exact hcreated

theorem withTaskControlDiagnostics_diagnostics (outcome : CaptureOutcome D)
    (suspendError snapshotError : Option String) (sink : TaskControlFailureSink) :
    ∃ rest, (withTaskControlDiagnostics outcome suspendError snapshotError
      sink).diagnostics = sink.drainInto rest := by
  cases outcome <;> exact ⟨_, rfl⟩

variable [Inhabited D]

section

variable (deadline : Nat) (isolatedJob : Option (Option TaskCaptureRequest))
  (suspendError : Option String)

theorem runIsolatedJob_from {request task} (hnew : helperStatus h = .notStarted) :
    Prog.From h (runIsolatedJob decode rounds request task deadline)
      (Supervised rounds deadline h) := by
  cases request with
  | none => exact ⟨.refl h, .inl hnew⟩
  | some request => exact runIsolatedCapture_from decode rounds deadline request task hnew

theorem concludeIsolated_from {snapshot outcome} (hg : Holds task h guard)
    (hproves : Proves h outcome) :
    Prog.From h (concludeIsolated pipeline event task guard snapshot outcome : P D _)
      fun t r => r.2.1 = none ∧ Balanced task t r.2.2 := by
  cases outcome with
  | completed data plugins => exact (finishSuspend_from hg hproves).bind fun _ _ hr => hr
  | timedOut | failed error => exact (finishSuspend_from hg hproves).bind fun _ _ hr => hr
  | cleanupUnproven error =>
    cases hg with
    | suspended hcalls =>
      apply containWithoutResume_from.bind
      rintro t sink ⟨calls, failures, rfl, rfl, hcontains⟩
      exact ⟨rfl, .contained hcalls hproves hcontains⟩
    | failed hcalls =>
      apply containTaskWithoutResume_from.bind
      rintro t sink ⟨calls, failures, rfl, rfl, hcontains⟩
      exact ⟨rfl, .containedUnsuspended hcalls hproves hcontains⟩

theorem captureInProcess_from {snapshot}
    (hg : Holds task h guard) (hnew : helperStatus h = .notStarted) : Prog.From h
      (worker.captureInProcess pipeline event deadline guard snapshot : P D _)
      fun t s => s.guard = none ∧ Balanced task t s.sink := by
  apply Prog.From.ite
  · intro _
    exact (finishSuspend_still hg hnew (.refl h)).bind fun _ _ hr => hr
  intro _ sent
  have hsent := (Still.refl h).concat (e := .of (.trySend event snapshot) sent)
    rfl fun _ => rfl
  apply Prog.From.ite
  · intro _
    exact (finishSuspend_still hg hnew hsent).bind fun _ _ hr => hr
  intro _ now received
  have hreceived := (hsent.concat (e := .of .now now) rfl fun _ => rfl).concat
    (e := .of (.recvTimeout (deadline - now)) received) rfl fun _ => rfl
  rcases received with (_ | _) | payload
  · intro _
    exact (finishSuspend_still hg hnew (hreceived.concat rfl fun _ => rfl)).bind fun _ _ hr => hr
  · intro _
    exact (finishSuspend_still hg hnew (hreceived.concat rfl fun _ => rfl)).bind fun _ _ hr => hr
  · exact (finishSuspend_still hg hnew hreceived).bind fun _ _ hr => hr

/-- The suspended part: either it has not returned, or the guard is gone and
what it did is balanced. -/
theorem captureSuspended_from (hg : Holds task h guard) (hnew : helperStatus h = .notStarted) :
    Prog.From h (worker.captureSuspended pipeline decode rounds event task
        deadline isolatedJob guard suspendError) fun t r =>
      match r with
      | none => Stalls rounds deadline t ∧ ∃ answer, taskCalls t = [.of (.suspendTask task) answer]
      | some s => s.guard = none ∧ Balanced task t s.sink ∧
          ∃ rest, s.outcome.diagnostics = s.sink.drainInto rest := by
  intro time
  have htime := (Still.refl h).concat (e := .of .now time) rfl fun _ => rfl
  apply Prog.From.ite
  · intro _
    apply (finishSuspend_still hg hnew htime).bind
    rintro t ⟨guard', sink⟩ ⟨hguard, hbalanced⟩
    exact ⟨hguard, hbalanced, withTaskControlDiagnostics_diagnostics ..⟩
  intro _
  apply (snapshotIfSuspended_from pipeline).bind
  rintro t ⟨snapshot, snapshotError⟩ ht again
  have hagain := (htime.trans ht).concat (e := .of .now again) rfl fun _ => rfl
  apply Prog.From.ite
  · intro _
    apply (finishSuspend_still hg hnew hagain).bind
    rintro t ⟨guard', sink⟩ ⟨hguard, hbalanced⟩
    exact ⟨hguard, hbalanced, withTaskControlDiagnostics_diagnostics ..⟩
  intro _
  rcases isolatedJob with _ | request
  · apply (captureInProcess_from worker pipeline event deadline
      (hg.of_quiet hagain.quiet) (hagain.helper.trans hnew)).bind
    rintro t s ⟨hguard, hbalanced⟩
    exact ⟨hguard, hbalanced, withTaskControlDiagnostics_diagnostics ..⟩
  · apply (runIsolatedJob_from decode rounds deadline (hagain.helper.trans hnew)).bind
    rintro u isolatedOutcome ⟨hu, houtcome⟩
    have hheld := (hg.of_quiet hagain.quiet).of_quiet hu
    cases isolatedOutcome with
    | none => exact ⟨houtcome, hheld.suspends⟩
    | some isolatedOutcome =>
      apply (concludeIsolated_from pipeline event hheld houtcome).bind
      rintro v ⟨outcome, guard', sink⟩ ⟨hguard, hbalanced⟩
      exact ⟨hguard, hbalanced, withTaskControlDiagnostics_diagnostics ..⟩

/-! ## Every capture -/

/-- What a worker's capture comes to. -/
def WorkerReports (task rounds deadline : Nat) (t : List (CaptureEvent D)) :
    Option (CaptureOutcome D × CaptureWorker) → Prop
  | none => Stalls rounds deadline t ∧ ∃ answer, taskCalls t = [.of (.suspendTask task) answer]
  | some (outcome, _) => Reports task t outcome

theorem captureOwning_from (hg : Holds task h guard) (hnew : helperStatus h = .notStarted) :
    Prog.From h (worker.captureOwning pipeline decode rounds event task
      deadline isolatedJob guard suspendError) (WorkerReports task rounds deadline) := by
  apply (captureSuspended_from worker pipeline decode rounds event deadline
    isolatedJob suspendError hg hnew).bind
  intro t r hr
  cases r with
  | none => exact hr
  | some s =>
    obtain ⟨outcome, worker', guard', sink⟩ := s
    obtain ⟨hguard, hbalanced, hrest⟩ := hr
    cases hguard
    exact ⟨sink, hbalanced, hrest⟩

end

theorem capture_from {task deadline} : Prog.From []
      (worker.capture pipeline decode rounds event task deadline)
      (WorkerReports task rounds deadline) := by
  apply Prog.From.ite
  · intro _
    exact .of_untouched rfl
  intro _ root
  have hroot := (Still.refl []).concat
    (e := (.of .resolveOutputRoot root : CaptureEvent D)) rfl fun _ => rfl
  rcases root with error | _
  · exact .of_untouched hroot.quiet.calls
  intro time
  have htime := hroot.concat (e := .of .now time) rfl fun _ => rfl
  apply Prog.From.ite
  · intro _
    exact .of_untouched htime.quiet.calls
  intro _
  cases hreason : worker.unavailableReason with
  | some reason => exact .of_untouched htime.quiet.calls
  | none =>
    apply (prepareIsolatedJob_from ..).bind
    intro t prepared hprepared
    have hready := htime.trans hprepared
    rcases prepared with error | isolatedJob
    · exact .of_untouched hready.quiet.calls
    intro answer
    have hcalls : taskCalls (t ++ [CaptureEvent.of (.suspendTask task) answer]) =
        [.of (.suspendTask task) answer] := by
      rw [taskCalls_append, hready.quiet.calls]
      rfl
    have hnew : helperStatus (t ++ [CaptureEvent.of (.suspendTask task) answer]) = .notStarted := by
      rw [helperStatus_concat, hready.helper]
      rfl
    rcases answer with error | _
    · apply Prog.From.ite
      · intro _
        exact .of_notSuspended hcalls
      intro _
      exact captureOwning_from worker pipeline decode rounds event deadline
        isolatedJob _ (.failed hcalls) hnew
    · exact captureOwning_from worker pipeline decode rounds event deadline
        isolatedJob _ (.suspended hcalls) hnew

omit [Inhabited D] in
theorem captureEvent_from {task} : Prog.From [] (pipeline.captureEvent event task : P D _)
      (Reports task) := by
  apply Prog.From.ite
  · intro _
    exact .of_untouched rfl
  intro _ root
  have hroot := (Still.refl []).concat
    (e := (.of .resolveOutputRoot root : CaptureEvent D)) rfl fun _ => rfl
  rcases root with error | _
  · exact .of_untouched hroot.quiet.calls
  intro answer
  have hcalls : taskCalls ([.of .resolveOutputRoot (.ok ()), .of (.suspendTask task) answer] :
        List (CaptureEvent D)) = [.of (.suspendTask task) answer] := rfl
  rcases answer with error | _
  · apply Prog.From.ite
    · intro _
      exact .of_notSuspended hcalls
    intro _ payload
    have hcollected : taskCalls ([.of .resolveOutputRoot (.ok ()),
        .of (.suspendTask task) (.error error), .of (.collectSnapshot event task none) payload] :
          List (CaptureEvent D)) = [.of (.suspendTask task) (.error error)] := rfl
    exact .of_notSuspended hcollected
  · apply (snapshotShmWhileSuspended_from pipeline).bind
    rintro t ⟨snapshot, snapshotError⟩ ht payload
    have hcollected := ht.concat
      (e := .of (.collectSnapshot event task snapshot) payload) rfl fun _ => rfl
    apply (finish_from rfl).bind
    rintro u sink ⟨calls, failures, rfl, hsink, hresumes⟩
    subst hsink
    refine ⟨sink, .released (hcollected.quiet.calls.trans hcalls)
      (.inl hcollected.helper) hresumes, ?_⟩
    exact ⟨_, (append_assoc _ _ _).symm⟩

/-- **Task suspension is balanced.** Whatever the surroundings answer, a
capture that returns has been one of the runs of `Balanced`, with the failures
it recorded in its diagnostics, on the worker's path and on the synchronous
one. A run that has not returned after `rounds` rounds of its poll loops has
only suspended, and has had that many interrupted waits or clock readings
before its deadline. -/
theorem capture_suspension_balanced (pipeline : Pipeline) (decode : Decoder D)
    (rounds : Nat) (event : CrashEvent) (task : Nat) :
    (∀ (worker : CaptureWorker) (deadline : Nat) (t : List (CaptureEvent D))
        (outcome : CaptureOutcome D) (worker' : CaptureWorker),
      (worker.capture pipeline decode rounds event task deadline).Trace t
        (some (outcome, worker')) → Reports task t outcome) ∧
    (∀ (worker : CaptureWorker) (deadline : Nat) (t : List (CaptureEvent D)),
      (worker.capture pipeline decode rounds event task deadline).Trace t
        none → Stalls rounds deadline t ∧
          ∃ answer, taskCalls t = [.of (.suspendTask task) answer]) ∧
    ∀ (t : List (CaptureEvent D)) (outcome : CaptureOutcome D),
      (pipeline.captureEvent event task).Trace t outcome → Reports task t outcome := by
  refine ⟨?_, ?_, ?_⟩
  · intro worker deadline t outcome worker' ht
    exact (capture_from worker pipeline decode rounds event).trace ht
  · intro worker deadline t ht
    exact (capture_from worker pipeline decode rounds event).trace ht
  · intro t outcome ht
    exact (captureEvent_from pipeline event).trace ht

/-- A synchronous snapshot whose first resume attempt fails. -/
def retriedTrace : List (CaptureEvent Unit) :=
  [.of .resolveOutputRoot (.ok ()), .of (.suspendTask 7) (.ok ()),
    .of (.collectSnapshot ⟨.snapshot, none, true⟩ 7 none) ⟨(), []⟩,
    .of (.resumeTask 7) (.error "busy"), .of (.resumeTask 7) (.ok ()),
    .of (.recordTaskControlFailure ⟨7, 2, ["busy"], .resumed, none⟩) ()]

theorem capture_suspension_balanced_retried : ∃ outcome, (Pipeline.captureEvent
        ⟨fun _ => true, ⟨false, false, false, false⟩, [], false⟩
        ⟨.snapshot, none, true⟩ 7).Trace retriedTrace outcome ∧ Reports 7 retriedTrace outcome := by
  have htrace : ∃ outcome, (Pipeline.captureEvent
      ⟨fun _ => true, ⟨false, false, false, false⟩, [], false⟩
      ⟨.snapshot, none, true⟩ 7).Trace retriedTrace outcome := by
    apply Exists.intro
    iterate 6 apply Prog.Trace.call
    exact .ret _
  obtain ⟨outcome, htrace⟩ := htrace
  refine ⟨outcome, htrace, ?_⟩
  exact (capture_suspension_balanced _ (fun _ => .error "") 0 _ 7).2.2 _ _ htrace

end CrashMonitor.Capture
