import CrashMonitor.Capture.TaskControl

/-!
# The capture helper

`pipeline/capture_isolation.rs`: task-facing collectors run in a helper
process that is waited for until the capture deadline, then killed and
reaped. Every exit of the supervisor says either that the helper is gone or
that its exit could not be proven.

The two poll loops and the retry of an interrupted `waitpid` run for a given
number of rounds; `none` is a run that has not returned by then.
-/

namespace CrashMonitor.Capture

open Interleave EventLoop Shm List CaptureEvent

/-! ## Requests -/

inductive CollectorAccess where
  | isolatedTask
  | ownedSnapshot
  deriving DecidableEq, Repr

inductive PluginTimeout where
  | categoryDefault
  | disabled
  | override (timeout : Nat)
  deriving DecidableEq, Repr

def PluginTimeout.resolve (categoryDefault : Nat) : PluginTimeout → Option Nat
  | .categoryDefault => some categoryDefault
  | .disabled => none
  | .override timeout => some timeout

structure Collector where
  name : String
  access : CollectorAccess
  timeout : PluginTimeout
  deriving DecidableEq, Repr

structure CollectionPolicy where
  captureStackMemory : Bool
  persistRawShm : Bool
  captureShmAttachments : Bool
  captureShmScreenshots : Bool
  deriving DecidableEq, Repr

/-- The part of `Pipeline` a capture reads. -/
structure Pipeline where
  reportEnabled : ReportType → Bool
  collectionPolicy : CollectionPolicy
  collectors : List Collector
  /-- whether a mapping is attached -/
  shm : Bool

/-- Times are in nanoseconds. -/
def milliseconds (n : Nat) : Nat := n * 1000000

def captureWireVersion : Nat := 2
def maxCaptureWireBytes : Nat := 64 * 1024 * 1024
def helperPollInterval : Nat := milliseconds 5
def helperReapGrace : Nat := milliseconds 2000
def defaultCollectorTimeout : Nat := milliseconds 5000

def collectorKind (name : String) : Except String TaskCollectorKind :=
  if name = "ThreadCollector" then .ok .thread
  else if name = "MemoryCollector" then .ok .memory
  else if name = "DylibCollector" then .ok .dylib
  else .error ("task-facing collector '" ++ name ++ "' has no capture-helper implementation")

/-- `TaskCaptureRequest::from_pipeline`. -/
def TaskCaptureRequest.fromPipeline (pipeline : Pipeline) (event : CrashEvent) :
    Except String (Option TaskCaptureRequest) := do
  let collectors ← (pipeline.collectors.filter (·.access = .isolatedTask)).mapM fun collector => do
      let kind ← collectorKind collector.name
      return (⟨kind, collector.timeout.resolve defaultCollectorTimeout⟩ :
        TaskCollectorSpec)
  if collectors.isEmpty then return none
  return some
    { version := captureWireVersion
      event
      captureStackMemory := pipeline.collectionPolicy.captureStackMemory
      collectors
      expectCrashedThread := event.crashedThread.isSome }

structure TaskCaptureResult (D : Type) where
  version : Nat
  data : D
  diagnostics : Diagnostics

/-- The wire format: a result and the number of bytes it took. -/
abbrev Decoder (D : Type) := List UInt8 → Except String (TaskCaptureResult D × Nat)

inductive IsolatedCaptureOutcome (D : Type) where
  | completed (data : D) (plugins : Diagnostics)
  | timedOut
  | failed (error : String)
  | cleanupUnproven (error : String)

/-! ## The supervisor -/

inductive CaptureHelperReap where
  | stillRunning
  | exited (status : Int)
  | signaled (signal : Int) (coreDumped : Bool)
  | ownershipLost
  deriving DecidableEq, Repr

structure CaptureHelperProcess where
  pid : Nat
  terminalConsumed : Bool

variable {D : Type}

/-- The `loop` of `poll_reap_with`. -/
def pollReapLoop (helper : CaptureHelperProcess) : (rounds : Nat) →
    P D (Option (Except String CaptureHelperReap × CaptureHelperProcess))
  | 0 => return none
  | rounds + 1 => do
    match ← perform (.waitpid helper.pid) with
    | .ok (.exited status) =>
      return some (.ok (.exited status), { helper with terminalConsumed := true })
    | .ok (.signaled signal coreDumped) =>
      return some (.ok (.signaled signal coreDumped), { helper with terminalConsumed := true })
    | .ok .stillAlive => return some (.ok .stillRunning, helper)
    | .ok .stopped => return some (.ok .stillRunning, helper)
    | .ok .continued => return some (.ok .stillRunning, helper)
    | .error .eintr => pollReapLoop helper rounds
    | .error .echild => return some (.ok .ownershipLost, { helper with terminalConsumed := true })
    | .error error =>
      return some (.error ("cannot wait for capture helper " ++
        toString helper.pid ++ ": " ++ error.display), helper)

/-- `CaptureHelperProcess::poll_reap`. -/
def CaptureHelperProcess.pollReap (helper : CaptureHelperProcess) (rounds : Nat) :
    P D (Option (Except String CaptureHelperReap × CaptureHelperProcess)) := do
  if helper.terminalConsumed then return some (.ok .ownershipLost, helper)
  pollReapLoop helper rounds

/-- The `loop` of `kill_and_reap_timed_out_helper`. -/
def reapKilledHelper (rounds cleanupDeadline : Nat) :
    (left : Nat) → (helper : CaptureHelperProcess) → P D (Option (IsolatedCaptureOutcome D))
  | 0, _ => return none
  | left + 1, helper => do
    let some (reap, helper) ← helper.pollReap rounds | return none
    match reap with
    | .ok (.exited _) => return some .timedOut
    | .ok (.signaled _ _) => return some .timedOut
    | .ok .ownershipLost =>
      return some (.cleanupUnproven ("timed-out capture helper " ++
        toString helper.pid ++ " wait ownership was lost (ECHILD)"))
    | .error error =>
      return some (.cleanupUnproven ("cannot reap timed-out capture helper "
        ++ toString helper.pid ++ ": " ++ error))
    | .ok .stillRunning =>
      if cleanupDeadline ≤ (← perform .now) then
        return some (.cleanupUnproven ("capture helper " ++
          toString helper.pid ++ " was not reaped after SIGKILL"))
      perform (.sleep helperPollInterval)
      reapKilledHelper rounds cleanupDeadline left helper

def killAndReapTimedOutHelper (rounds : Nat) (helper : CaptureHelperProcess) :
    P D (Option (IsolatedCaptureOutcome D)) := do
  let refused : Option Errno :=
    match ← perform (.kill helper.pid) with
    | .ok () => none
    | .error error => if error = .esrch then none else some error
  match refused with
  | some error =>
    return some (.cleanupUnproven ("cannot kill timed-out capture helper " ++
      toString helper.pid ++ ": " ++ error.display))
  | none =>
    let cleanupDeadline := (← perform .now) + helperReapGrace
    reapKilledHelper rounds cleanupDeadline rounds helper

variable (decode : Decoder D)

/-- `decode_result`. -/
def decodeResult : P D (IsolatedCaptureOutcome D) := do
  match ← perform .resultLength with
  | .error error => return .failed ("cannot inspect capture-helper result: " ++ error)
  | .ok length =>
  if length = 0 ∨ length > maxCaptureWireBytes then
    return .failed ("capture-helper result size is invalid: " ++ toString length)
  match ← perform .rewindResult with
  | .error error => return .failed ("cannot rewind capture-helper result: " ++ error)
  | .ok () =>
  match ← perform .readResult with
  | .error error => return .failed ("cannot read capture-helper result: " ++ error)
  | .ok encoded =>
  match decode encoded with
  | .error error =>
    return .failed ("cannot decode " ++ toString length ++ "-byte capture-helper result: " ++ error)
  | .ok (result, consumed) =>
  if consumed ≠ encoded.length then
    return .failed ("capture-helper decoder consumed " ++ toString consumed ++
      " of " ++ toString encoded.length ++ " bytes")
  if result.version ≠ captureWireVersion then
    return .failed ("unsupported capture-helper result version " ++ toString result.version)
  return .completed result.data result.diagnostics

/-- The `loop` of `run_isolated_capture`. -/
def superviseHelper (decode : Decoder D) (rounds deadline : Nat) :
    (left : Nat) → (helper : CaptureHelperProcess) → P D (Option (IsolatedCaptureOutcome D))
  | 0, _ => return none
  | left + 1, helper => do
    let some (reap, helper) ← helper.pollReap rounds | return none
    match reap with
    | .ok (.exited status) =>
      if status = 0 then
        let outcome ← decodeResult decode
        return some outcome
      else
        return some (.failed ("capture helper exited with status " ++ toString status))
    | .ok (.signaled signal coreDumped) =>
      return some (.failed ("capture helper terminated by signal " ++
        toString signal ++ " (core_dumped=" ++ toString coreDumped ++ ")"))
    | .ok .ownershipLost =>
      return some (.cleanupUnproven ("capture helper " ++
        toString helper.pid ++ " wait ownership was lost (ECHILD)"))
    | .error error => return some (.cleanupUnproven error)
    | .ok .stillRunning =>
      if deadline ≤ (← perform .now) then
        killAndReapTimedOutHelper rounds helper
      else
        let now ← perform .now
        perform (.sleep (min helperPollInterval (deadline - now)))
        superviseHelper decode rounds deadline left helper

def runIsolatedCapture (rounds : Nat) (request : TaskCaptureRequest) (task deadline : Nat) :
    P D (Option (IsolatedCaptureOutcome D)) := do
  if deadline ≤ (← perform .now) then return some .timedOut
  match ← perform .currentExe with
  | .error error => return some (.failed ("cannot locate capture-helper executable: " ++ error))
  | .ok executable =>
  match ← perform (.encodeRequest request) with
  | .error error => return some (.failed ("cannot encode capture-helper request: " ++ error))
  | .ok requestJson =>
  let now ← perform .now
  match ← perform (.spawnCaptureHelper executable requestJson task
      request.event.crashedThread (deadline - now)) with
  | .error error =>
    if error.cleanupUnproven then
      return some (.cleanupUnproven error.message)
    else return some (.failed error.message)
  | .ok pid => superviseHelper decode rounds deadline rounds ⟨pid, false⟩

/-! ## What a history shows -/

section

variable (h t : List (CaptureEvent D))

/-- Calls on the target task, and the record of their failures. -/
def Op.onTask : Op → Bool
  | .suspendTask _ => true
  | .resumeTask _ => true
  | .terminateTask _ => true
  | .recordTaskControlFailure _ => true
  | _ => false

def taskCalls : List (CaptureEvent D) := t.filter fun e => e.op.onTask

/-- What is known of the helper. A spawn error that does not say otherwise
means that nothing of the helper is left. -/
inductive HelperStatus where
  | notStarted
  | running
  | reaped
  | unproven
  deriving DecidableEq, Repr

def HelperStatus.next (status : HelperStatus) : CaptureEvent D → HelperStatus
  | ⟨.spawnCaptureHelper _ _ _ _ _, .ok _⟩ => .running
  | ⟨.spawnCaptureHelper _ _ _ _ _, .error error⟩ =>
    if error.cleanupUnproven then .unproven else .notStarted
  | ⟨.waitpid _, .ok (.exited _)⟩ => .reaped
  | ⟨.waitpid _, .ok (.signaled _ _)⟩ => .reaped
  | _ => status

def helperStatus : HelperStatus := t.foldl HelperStatus.next .notStarted

/-- The helper was reaped or never started. -/
def HelperGone : Prop := helperStatus t = .notStarted ∨ helperStatus t = .reaped

/-- A round that gets nowhere: an interrupted wait, or a clock reading before
the time `bound`. -/
def stalled (bound : Nat) : CaptureEvent D → Bool
  | ⟨.waitpid _, .error .eintr⟩ => true
  | ⟨.now, time⟩ => decide (time < bound)
  | _ => false

/-- What a run that has not returned after `rounds` rounds has been through:
that many rounds before its deadline, or before the end of the grace period
that a clock reading of the run started. -/
def Stalls (rounds deadline : Nat) (t : List (CaptureEvent D)) : Prop :=
  ∃ bound, (bound = deadline ∨ ∃ time, .of .now time ∈ t ∧
      bound = time + helperReapGrace) ∧ rounds ≤ t.countP (stalled bound)

@[simp] theorem taskCalls_append (t' : List (CaptureEvent D)) :
    taskCalls (t ++ t') = taskCalls t ++ taskCalls t' := filter_append ..

@[simp] theorem helperStatus_concat (e : CaptureEvent D) :
    helperStatus (t ++ [e]) = (helperStatus t).next e := by
  simp [helperStatus]

/-- The history grew without a call on the task. -/
structure Quiet : Prop where
  grows : h <+: t
  calls : taskCalls t = taskCalls h

theorem Quiet.refl : Quiet h h := ⟨prefix_refl h, rfl⟩

end

variable {h t u : List (CaptureEvent D)} {helper : CaptureHelperProcess}
  {rounds deadline left : Nat}

theorem Quiet.trans (ht : Quiet h t) (hu : Quiet t u) : Quiet h u :=
  ⟨ht.grows.trans hu.grows, hu.calls.trans ht.calls⟩

theorem Quiet.concat (ht : Quiet h t) {e} (he : e.op.onTask = false) : Quiet h (t ++ [e]) := by
  refine ⟨ht.grows.trans (prefix_append t [e]), ?_⟩
  rw [taskCalls_append, ← ht.calls]
  simp [taskCalls, he]

/-- The history grew without a call on the task or the helper. -/
structure Still (h t : List (CaptureEvent D)) : Prop where
  quiet : Quiet h t
  helper : helperStatus t = helperStatus h

theorem Still.refl (h : List (CaptureEvent D)) : Still h h := ⟨.refl h, rfl⟩

theorem Still.trans (ht : Still h t) (hu : Still t u) : Still h u :=
  ⟨ht.quiet.trans hu.quiet, hu.helper.trans ht.helper⟩

theorem Still.concat (ht : Still h t) {e} (he : e.op.onTask = false)
    (hnext : ∀ status : HelperStatus, status.next e = status) : Still h (t ++ [e]) := by
  refine ⟨ht.quiet.concat he, ?_⟩
  rw [helperStatus_concat, hnext, ht.helper]

/-! ## The supervisor proves what it reports -/

/-- What a poll of a running helper tells. -/
def Polled (rounds : Nat) (h : List (CaptureEvent D))
    (helper : CaptureHelperProcess) (t : List (CaptureEvent D)) :
    Option (Except String CaptureHelperReap × CaptureHelperProcess) → Prop
  | none => ∀ bound, h.countP (stalled bound) + rounds ≤ t.countP (stalled bound)
  | some (.ok .stillRunning, helper') => helper' = helper ∧ helperStatus t = .running
  | some (.ok (.exited _), _) => helperStatus t = .reaped
  | some (.ok (.signaled _ _), _) => helperStatus t = .reaped
  | some (.ok .ownershipLost, _) => helperStatus t = .running
  | some (.error _, _) => helperStatus t = .running

theorem pollReapLoop_from {rounds helper} (hrunning : helperStatus h = .running) :
    Prog.From h (pollReapLoop helper rounds : P D _) fun t r =>
      Quiet h t ∧ Polled rounds h helper t r := by
  induction rounds generalizing h with
  | zero => exact ⟨.refl h, fun bound => Nat.le_refl _⟩
  | succ rounds ih =>
    intro answer
    have hquiet : Quiet h (h ++ [.of (.waitpid helper.pid) answer]) := (Quiet.refl h).concat rfl
    have hstatus : helperStatus (h ++ [.of (.waitpid helper.pid) answer]) =
        HelperStatus.running.next (.of (.waitpid helper.pid) answer : CaptureEvent D) := by
      rw [helperStatus_concat, hrunning]
    rcases answer with error | status
    · cases error with
      | eintr =>
        -- an interrupted wait is one more round without an answer
        refine (ih hstatus).mono ?_
        rintro t r ⟨ht, hr⟩
        refine ⟨hquiet.trans ht, ?_⟩
        rcases r with _ | ⟨_ | (_ | _ | _ | _), _⟩ <;> try exact hr
        intro bound
        have hbound := hr bound
        rw [countP_append, countP_singleton,
          if_pos (show stalled bound _ = true from rfl)] at hbound
        omega
      | echild | esrch | other text => exact ⟨hquiet, hstatus⟩
    · cases status with
      | exited status | signaled signal coreDumped => exact ⟨hquiet, hstatus⟩
      | stopped | continued | stillAlive => exact ⟨hquiet, rfl, hstatus⟩

theorem pollReap_from {rounds} (hfresh : helper.terminalConsumed = false)
    (hrunning : helperStatus h = .running) : Prog.From h (helper.pollReap rounds : P D _) fun t r =>
      Quiet h t ∧ Polled rounds h helper t r := by
  unfold CaptureHelperProcess.pollReap
  rw [hfresh]
  exact pollReapLoop_from hrunning

/-- An outcome and what the history shows: the helper is gone, unless the
outcome says that this could not be proven. -/
def Proves (t : List (CaptureEvent D)) : IsolatedCaptureOutcome D → Prop
  | .cleanupUnproven _ => ¬ HelperGone t
  | .completed _ _ => HelperGone t
  | .timedOut => HelperGone t
  | .failed _ => HelperGone t

theorem not_helperGone_of_running (h : helperStatus t = .running) : ¬ HelperGone t := by
  simp [HelperGone, h]

/-- The result of a supervisor run started with the history `h`. -/
def Supervised (rounds deadline : Nat) (h t : List (CaptureEvent D))
    (r : Option (IsolatedCaptureOutcome D)) : Prop :=
  Quiet h t ∧
    match r with
    | none => Stalls rounds deadline t
    | some outcome => Proves t outcome

theorem Supervised.of_quiet {r}
    (hr : Supervised rounds deadline t u r) (hq : Quiet h t) : Supervised rounds deadline h u r :=
  ⟨hq.trans hr.1, hr.2⟩

theorem spent_mono {bound} (hspent : rounds ≤ h.countP (stalled bound) + left)
    (hgrows : h <+: t) : rounds ≤ t.countP (stalled bound) + left :=
  Nat.le_trans hspent (Nat.add_le_add_right hgrows.sublist.countP_le left)

/-- A round that stalls is one round less to go. -/
theorem spent_concat {bound time} (hspent : rounds ≤ h.countP (stalled bound) + (left + 1))
    (hgrows : h <+: t) (htime : time < bound) :
    rounds ≤ (t ++ [of .now time]).countP (stalled bound) +
      left := by
  have hmono := spent_mono hspent hgrows
  have hstalled : stalled bound (.of .now time : CaptureEvent D) = true := decide_eq_true htime
  rw [countP_append, countP_singleton, if_pos hstalled]
  omega

theorem reapKilledHelper_from {cleanupDeadline}
    (hfresh : helper.terminalConsumed = false) (hrunning : helperStatus h = .running)
    (hgrace : ∃ time, of .now time ∈ h ∧ cleanupDeadline = time + helperReapGrace)
    (hspent : rounds ≤ h.countP (stalled cleanupDeadline) + left) :
    Prog.From h (reapKilledHelper rounds cleanupDeadline left helper : P D _)
      (Supervised rounds deadline h) := by
  induction left generalizing h helper with
  | zero => exact ⟨.refl h, cleanupDeadline, .inr hgrace, hspent⟩
  | succ left ih =>
    apply (pollReap_from hfresh hrunning).bind
    rintro t r ⟨ht, hr⟩
    have hgrace' : ∃ time, of .now time ∈ t ∧ cleanupDeadline = time + helperReapGrace := by
      obtain ⟨time, hmem, heq⟩ := hgrace
      exact ⟨time, ht.grows.subset hmem, heq⟩
    rcases r with _ | ⟨_ | (_ | status | _ | _), helper'⟩
    · have hbound := hr cleanupDeadline
      exact ⟨ht, cleanupDeadline, .inr hgrace', by omega⟩
    · exact ⟨ht, not_helperGone_of_running hr⟩
    · -- still there: another round, unless the grace period is over
      obtain ⟨rfl, hrunning'⟩ := hr
      intro time
      show Prog.From _ (if cleanupDeadline ≤ time then _ else _) _
      have hstatus : helperStatus (t ++ [of .now time]) = .running := by
        rw [helperStatus_concat, hrunning']
        rfl
      apply Prog.From.ite
      · intro _
        exact ⟨ht.concat rfl, not_helperGone_of_running hstatus⟩
      intro htime _
      have hspent' := spent_concat hspent ht.grows (Nat.lt_of_not_le htime)
      refine (ih hfresh ?_ ?_ ?_).mono fun u r hu => hu.of_quiet ((ht.concat rfl).concat rfl)
      · rw [helperStatus_concat]
        exact hstatus
      · obtain ⟨started, hmem, heq⟩ := hgrace'
        exact ⟨started, by simp [hmem], heq⟩
      · exact spent_mono hspent' (prefix_append _ _)
    · exact ⟨ht, .inr hr⟩
    · exact ⟨ht, .inr hr⟩
    · exact ⟨ht, not_helperGone_of_running hr⟩

theorem killAndReapTimedOutHelper_from (hfresh : helper.terminalConsumed = false)
    (hrunning : helperStatus h = .running) :
    Prog.From h (killAndReapTimedOutHelper rounds helper : P D _)
      (Supervised rounds deadline h) := by
  intro answer
  have hquiet : Quiet h (h ++ [.of (.kill helper.pid) answer]) := (Quiet.refl h).concat rfl
  have hstatus : helperStatus (h ++ [.of (.kill helper.pid) answer]) = .running := by
    rw [helperStatus_concat, hrunning]
    rfl
  have hreap : ∀ time, Prog.From ((h ++ [.of (.kill helper.pid) answer]) ++ [.of .now time])
      (reapKilledHelper rounds (time + helperReapGrace) rounds helper : P D _)
      (Supervised rounds deadline h) := by
    intro time
    refine (reapKilledHelper_from hfresh ?_ ⟨time, by simp, rfl⟩
      (Nat.le_add_left _ _)).mono fun u r hu => hu.of_quiet (hquiet.concat rfl)
    rw [helperStatus_concat]
    exact hstatus
  rcases answer with error | _
  · by_cases hesrch : error = .esrch
    · subst hesrch
      exact hreap
    dsimp only [Prog.bind]
    rw [if_neg hesrch]
    exact ⟨hquiet, not_helperGone_of_running hstatus⟩
  · exact hreap

/-- Reading the result of a helper that is gone. -/
theorem decodeResult_from (hgone : HelperGone h) :
    Prog.From h (decodeResult decode) fun t outcome => Quiet h t ∧ Proves t outcome := by
  have hstill : ∀ {t : List (CaptureEvent D)} {outcome}, Still h t →
      (∀ error, outcome ≠ .cleanupUnproven error) → Quiet h t ∧ Proves t outcome := by
    intro t outcome ht houtcome
    have hgone' : HelperGone t := by
      unfold HelperGone
      rwa [ht.helper]
    cases outcome with
    | cleanupUnproven error => exact absurd rfl (houtcome error)
    | completed data plugins | timedOut | failed error => exact ⟨ht.quiet, hgone'⟩
  intro length
  have hlength := (Still.refl h).concat (e := .of .resultLength length) rfl fun _ => rfl
  rcases length with error | length
  · exact hstill hlength nofun
  apply Prog.From.ite
  · intro _
    exact hstill hlength nofun
  intro _ rewound
  have hrewound := hlength.concat (e := .of .rewindResult rewound) rfl fun _ => rfl
  rcases rewound with error | _
  · exact hstill hrewound nofun
  intro encoded
  have hencoded := hrewound.concat (e := .of .readResult encoded) rfl fun _ => rfl
  rcases encoded with error | encoded
  · exact hstill hencoded nofun
  dsimp only [Prog.bind]
  rcases decode encoded with error | ⟨result, consumed⟩
  · exact hstill hencoded nofun
  apply Prog.From.ite
  · intro _
    exact hstill hencoded nofun
  intro _
  apply Prog.From.ite
  · intro _
    exact hstill hencoded nofun
  · intro _
    exact hstill hencoded nofun

theorem superviseHelper_from (hfresh : helper.terminalConsumed = false)
    (hrunning : helperStatus h = .running) (hspent : rounds ≤ h.countP (stalled deadline) + left) :
    Prog.From h (superviseHelper decode rounds deadline left helper)
      (Supervised rounds deadline h) := by
  induction left generalizing h helper with
  | zero => exact ⟨.refl h, deadline, .inl rfl, hspent⟩
  | succ left ih =>
    apply (pollReap_from hfresh hrunning).bind
    rintro t r ⟨ht, hr⟩
    rcases r with _ | ⟨_ | (_ | status | _ | _), helper'⟩
    · have hbound := hr deadline
      exact ⟨ht, deadline, .inl rfl, by omega⟩
    · exact ⟨ht, not_helperGone_of_running hr⟩
    · -- still there: another round, unless the deadline has passed
      obtain ⟨rfl, hrunning'⟩ := hr
      intro time
      have hquiet : Quiet h (t ++ [of .now time]) := ht.concat rfl
      have hstatus : helperStatus (t ++ [of .now time]) = .running := by
        rw [helperStatus_concat, hrunning']
        rfl
      apply Prog.From.ite
      · intro _
        exact (killAndReapTimedOutHelper_from hfresh hstatus).mono fun u r hu => hu.of_quiet hquiet
      intro htime again _
      have hspent' := spent_concat hspent ht.grows (Nat.lt_of_not_le htime)
      refine (ih hfresh ?_ ?_).mono fun u r hu => hu.of_quiet ((hquiet.concat rfl).concat rfl)
      · rw [helperStatus_concat, helperStatus_concat]
        exact hstatus
      · exact spent_mono hspent' ((prefix_append _ _).trans (prefix_append _ _))
    · apply Prog.From.ite
      · intro _
        apply (decodeResult_from decode (.inr hr)).bind
        rintro u outcome ⟨hu, houtcome⟩
        exact ⟨ht.trans hu, houtcome⟩
      · intro _
        exact ⟨ht, .inr hr⟩
    · exact ⟨ht, .inr hr⟩
    · exact ⟨ht, not_helperGone_of_running hr⟩

/-- **The helper's exit.** An isolated capture makes no call on the task; when
it returns, the helper was reaped or never started, or the outcome says that
this could not be proven. -/
theorem runIsolatedCapture_from (rounds deadline : Nat) (request : TaskCaptureRequest)
    (task : Nat) (hnew : helperStatus h = .notStarted) :
    Prog.From h (runIsolatedCapture decode rounds request task deadline)
      (Supervised rounds deadline h) := by
  have hgone : ∀ {t : List (CaptureEvent D)}, Still h t → HelperGone t := by
    intro t ht
    exact .inl (ht.helper.trans hnew)
  intro time
  have htime := (Still.refl h).concat (e := .of .now time) rfl fun _ => rfl
  apply Prog.From.ite
  · intro _
    exact ⟨htime.quiet, hgone htime⟩
  intro _ executable
  have hexe := htime.concat (e := .of .currentExe executable) rfl fun _ => rfl
  rcases executable with error | executable
  · exact ⟨hexe.quiet, hgone hexe⟩
  intro encoded
  have hencoded := hexe.concat (e := .of (.encodeRequest request) encoded) rfl fun _ => rfl
  rcases encoded with error | requestJson
  · exact ⟨hencoded.quiet, hgone hencoded⟩
  intro now spawned
  have hquiet := (hencoded.concat (e := .of .now now) rfl fun _ => rfl).quiet
  rcases spawned with ⟨message, cleanupUnproven⟩ | pid
  · -- the spawn error says whether anything is left of the helper
    cases cleanupUnproven with
    | true =>
      refine ⟨hquiet.concat rfl, ?_⟩
      unfold Proves HelperGone
      rw [helperStatus_concat]
      rintro (h | h) <;> cases h
    | false =>
      refine ⟨hquiet.concat rfl, .inl ?_⟩
      rw [helperStatus_concat]
      rfl
  · refine (superviseHelper_from decode rfl ?_ (Nat.le_add_left _ _)).mono
      fun u r hu => hu.of_quiet (hquiet.concat rfl)
    rw [helperStatus_concat]
    rfl

end CrashMonitor.Capture
