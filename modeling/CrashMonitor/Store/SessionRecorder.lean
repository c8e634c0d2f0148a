import CrashMonitor.Store.Retention

/-!
# What runs after the commit of an event

`SessionRecorder` of `postprocessors/session_recorder.rs` adds a line to
`sessions.jsonl` in the output root for a crash that had a session; then
`RetentionManager` prunes the root the report was published in. A failure of
either is reported and goes no further.
-/

namespace CrashMonitor.Store

open Interleave EventLoop

def maxSessionRecordBytes : Nat := 16 * 1024

structure SessionReport where
  id : String
  start : String
  durationS : Nat

/-- A line of `sessions.jsonl`. -/
structure SessionRecord where
  id : String
  start : String
  finish : String
  status : String
  durationS : Nat
  reportId : Option String
  report : Option String
  manifest : Option String

/-- What the two post-processors see of an event: `reportPath` is the report
file relative to the committed directory. -/
structure FinishedEvent where
  transaction : Token
  reportType : ReportType
  session : Option SessionReport
  reportPath : Option String

/-- The settings the two read, and where reports are sent to. -/
structure FinishPolicy where
  recordsSessions : Bool
  retains : Bool
  sentDir : Except String Path
  limits : RetentionLimits

section

variable (codec : Codec) (outputRoot : Path) (render : SessionRecord → String)

/-! ## The session log -/

variable (caller : Caller)

/-- `acquire_session_log_lock`; a lock held elsewhere is polled for. -/
def acquireSessionLogLock : Call Unit := do
  checkpoint caller
  probe caller "open the session log lock"
  checkpoint caller
  probe caller "lock the session log"

/-- `append_session_record_locked`. -/
def appendSessionRecordLocked (line : String) : Call Unit := do
  let path := (outputRoot ++ ["sessions.jsonl"]).display
  if line.utf8ByteSize > maxSessionRecordBytes then
    throw s!"session record exceeds {maxSessionRecordBytes} bytes"
  else
    checkpoint caller
    (probe caller "open the session directory").mapError fun e =>
      s!"cannot prepare private session directory: {e}"
    probe caller "open the session log"
    checkpoint caller
    (appendSession caller outputRoot line).mapError fun e => s!"cannot append '{path}': {e}"
    (probe caller "sync the session log").mapError fun e => s!"cannot sync '{path}': {e}"
    probe caller "sync the directory of a new log"
    checkpoint caller

/-- The record of a crash. -/
def crashRecord (session : SessionReport) (committed : CommittedReport)
    (reportPath : Option String) (finish : String) : SessionRecord where
  id := session.id
  start := session.start
  finish := finish
  status := "crash"
  durationS := session.durationS
  reportId := some committed.reportId.text
  report := reportPath
  manifest := some (committed.root ++ [committed.reportId.text, manifestFileName]).display

/-- `record_crash`. -/
def recordCrash (session : SessionReport) (committed : CommittedReport)
    (reportPath : Option String) : Call Unit := do
  checkpoint caller
  checkpoint caller
  (probe caller "ensure the session directory is private").mapError fun e =>
    s!"cannot prepare private session directory: {e}"
  let finish ← timestamp caller
  acquireSessionLogLock caller
  appendSessionRecordLocked outputRoot caller
    (render (crashRecord session committed reportPath finish))
  removeSessionLock caller outputRoot session.id
  checkpoint caller

/-- The session part of `SessionRecorder::process`. -/
def recordSession (event : FinishedEvent) : Call Unit := do
  match event.session with
  | none => pure ()
  | some session =>
    match ← committedReport caller event.transaction with
    | none => throw "session record requires a committed report"
    | some committed => recordCrash outputRoot render caller session committed event.reportPath

/-- `SessionRecorder::process`. -/
def sessionRecorder (event : FinishedEvent) : Call Unit := do
  checkpoint caller
  if event.reportType ≠ .crash then pure ()
  else
    recordSession outputRoot render caller event
    checkpoint caller

/-! ## Events -/

/-- A post-processor that is left out does nothing. -/
def whenEnabled (enabled : Bool) (body : Call Unit) : Prog storeSig Unit :=
  if enabled then body.run.bind fun _ => .ret () else .ret ()

/-- The post-processors of one event after its commit. -/
def finishEvent (policy : FinishPolicy) (event : FinishedEvent) : Prog storeSig Unit :=
  (whenEnabled policy.recordsSessions (sessionRecorder outputRoot render
    ⟨event.transaction.proc, .other⟩ event)).bind fun _ =>
  whenEnabled policy.retains (retentionManager codec outputRoot
    ⟨event.transaction.proc, .retention⟩ (some event.transaction) policy.sentDir policy.limits)

/-- Events one after the other. -/
def finishEvents (policy : FinishPolicy) : List FinishedEvent → Prog storeSig Unit
  | [] => .ret ()
  | event :: rest =>
    (finishEvent codec outputRoot render policy event).bind fun _ => finishEvents policy rest

end

end CrashMonitor.Store
