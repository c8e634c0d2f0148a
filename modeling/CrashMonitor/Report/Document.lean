import CrashMonitor.Lib.Decode
import CrashMonitor.Store.Names
import CrashMonitor.EventLoop.Machine

/-!
# Report documents

The part of `CrashReport` (`pipeline/report.rs`) that the analysis commands
read, and how `decode_report` takes it from a document. The other members of a
report are ignored here.
-/

namespace CrashMonitor.Report

open Lib Lib.Decode Store EventLoop Decode

/-! ## The structures -/

inductive TerminationEvidence where
  | possibleOom
  | unknownSigkill
  deriving DecidableEq, Repr

structure ReportHeader where
  version : Nat
  reportId : Option ReportId
  timestamp : String
  pid : Nat
  process : String
  collector : String
  reportType : ReportType
  terminationEvidence : Option TerminationEvidence
  trigger : Option String
  hangDurationMs : Option Nat

inductive ReportValueSource where
  | producerSharedMemory
  deriving DecidableEq, Repr

structure CrashContextReport where
  source : ReportValueSource
  annotations : SortedMap String Json
  sessionId : Option String
  sessionStartNs : Option Nat
  heartbeatCounter : Nat

structure BreadcrumbReport where
  timeNs : Nat
  thread : Nat
  cat : String
  sev : String
  file : String
  line : Nat
  msg : String

inductive ExceptionSeverity where
  | fatal
  deriving DecidableEq, Repr

structure ExceptionReport where
  excType : String
  typeCode : Nat
  code : String
  codeName : Option String
  codeValue : String
  subcode : String
  rawCodes : List String
  severity : ExceptionSeverity
  signal : String
  signalIsApproximate : Bool
  faultAddress : Option String

structure StackMemoryReport where
  sp : String
  size : Nat
  hexDump : String
  truncated : Bool

structure BacktraceFrame where
  address : String
  image : Option String
  offset : Option String
  symbol : Option String
  file : Option String
  line : Option Nat
  column : Option Nat

structure ThreadReport where
  index : Nat
  id : Nat
  name : Option String
  crashed : Bool
  registers : SortedMap String String
  backtrace : List BacktraceFrame
  unwindMethod : Option String
  unwindTruncated : Bool
  unwindNote : Option String
  stackMemory : Option StackMemoryReport

structure SessionReport where
  id : String
  start : String
  durationS : Nat

structure CrashReport where
  header : ReportHeader
  termination : Option TerminationReason
  exception : Option ExceptionReport
  crashContext : Option CrashContextReport
  threads : List ThreadReport
  breadcrumbs : Option (List BreadcrumbReport)
  session : Option SessionReport
  fingerprint : Option String
  userFeedback : Option Json
  diagnostics : Option Json

/-- `rsplit('/').next()`, how paths are shortened. -/
def lastSegment (path : String) : String :=
  .ofList (path.toList.reverse.takeWhile (· != '/')).reverse

/-! ## Decoding -/

def decodeReportId : Decoder ReportId := fun value => (text value).bind ReportId.parse

def decodeReportType : Decoder ReportType :=
  variant [("crash", .crash), ("snapshot", .snapshot), ("anr", .anr), ("oom", .oom),
    ("exit_failure", .exitFailure), ("signal_failure", .signalFailure)]

def decodeTerminationEvidence : Decoder TerminationEvidence :=
  variant [("possible_oom", .possibleOom), ("unknown_sigkill", .unknownSigkill)]

def decodeReportValueSource : Decoder ReportValueSource :=
  variant [("producer_shared_memory", .producerSharedMemory)]

def decodeExceptionSeverity : Decoder ExceptionSeverity := variant [("fatal", .fatal)]

def decodeTerminationReason : Decoder TerminationReason := tagged "kind" fun name =>
    if name = "exited" then some do
      let exitCode ← field "exit_code" (signed 31)
      let runtimeMs ← field "runtime_ms" (unsigned 64)
      return .exited exitCode runtimeMs
    else if name = "signaled" then some do
      let signal ← field "signal" (signed 31)
      let coreDumped ← field "core_dumped" boolean
      let runtimeMs ← field "runtime_ms" (unsigned 64)
      return .signaled signal coreDumped runtimeMs
    else none

def decodeHeader : Decoder ReportHeader := structured do
  let version ← field "version" (unsigned 32)
  let reportId ← fieldOr "report_id" (optional decodeReportId) none
  let timestamp ← field "timestamp" text
  let pid ← field "pid" (unsigned 32)
  let process ← field "process" text
  let collector ← field "collector" text
  let reportType ← field "type" decodeReportType
  let terminationEvidence ← fieldOr "termination_evidence" (optional decodeTerminationEvidence) none
  let trigger ← fieldOr "trigger" (optional text) none
  let hangDurationMs ← fieldOr "hang_duration_ms" (optional (unsigned 64)) none
  return {
    version, reportId, timestamp, pid, process, collector, reportType,
    terminationEvidence, trigger, hangDurationMs }

def decodeCrashContext : Decoder CrashContextReport := structured do
  let source ← fieldOr "source" decodeReportValueSource .producerSharedMemory
  let annotations ← fieldOr "annotations" (ordered some) .empty
  let sessionId ← fieldOr "session_id" (optional text) none
  let sessionStartNs ← fieldOr "session_start_ns" (optional (unsigned 64)) none
  let heartbeatCounter ← fieldOr "heartbeat_counter" (unsigned 64) 0
  return { source, annotations, sessionId, sessionStartNs, heartbeatCounter }

def decodeBreadcrumb : Decoder BreadcrumbReport := structured do
  let timeNs ← field "time_ns" (unsigned 64)
  let thread ← field "thread" (unsigned 32)
  let cat ← field "cat" text
  let sev ← field "sev" text
  let file ← field "file" text
  let line ← field "line" (unsigned 32)
  let msg ← field "msg" text
  return { timeNs, thread, cat, sev, file, line, msg }

def decodeException : Decoder ExceptionReport := structured do
  let excType ← field "type" text
  let typeCode ← fieldOr "type_code" (unsigned 32) 0
  let code ← field "code" text
  let codeName ← fieldOr "code_name" (optional text) none
  let codeValue ← fieldOr "code_value" text ""
  let subcode ← field "subcode" text
  let rawCodes ← fieldOr "raw_codes" (sequence text) []
  let severity ← fieldOr "severity" decodeExceptionSeverity .fatal
  let signal ← field "signal" text
  let signalIsApproximate ← fieldOr "signal_is_approximate" boolean false
  let faultAddress ← fieldOr "fault_address" (optional text) none
  return {
    excType, typeCode, code, codeName, codeValue, subcode, rawCodes, severity, signal,
    signalIsApproximate, faultAddress }

def decodeStackMemory : Decoder StackMemoryReport := structured do
  let sp ← field "sp" text
  let size ← field "size" (unsigned 64)
  let hexDump ← field "hex_dump" text
  let truncated ← fieldOr "truncated" boolean false
  return { sp, size, hexDump, truncated }

def decodeFrame : Decoder BacktraceFrame := structured do
  let address ← field "address" text
  let image ← fieldOr "image" (optional text) none
  let offset ← fieldOr "offset" (optional text) none
  let symbol ← fieldOr "symbol" (optional text) none
  let file ← fieldOr "file" (optional text) none
  let line ← fieldOr "line" (optional (unsigned 32)) none
  let column ← fieldOr "column" (optional (unsigned 32)) none
  return { address, image, offset, symbol, file, line, column }

def decodeThread : Decoder ThreadReport := structured do
  let index ← field "index" (unsigned 32)
  let id ← field "id" (unsigned 64)
  let name ← fieldOr "name" (optional text) none
  let crashed ← field "crashed" boolean
  let registers ← fieldOr "registers" (ordered text) .empty
  let backtrace ← fieldOr "backtrace" (sequence decodeFrame) []
  let unwindMethod ← fieldOr "unwind_method" (optional text) none
  let unwindTruncated ← fieldOr "unwind_truncated" boolean false
  let unwindNote ← fieldOr "unwind_note" (optional text) none
  let stackMemory ← fieldOr "stack_memory" (optional decodeStackMemory) none
  return {
    index, id, name, crashed, registers, backtrace, unwindMethod, unwindTruncated,
    unwindNote, stackMemory }

def decodeSession : Decoder SessionReport := structured do
  let id ← field "id" text
  let start ← field "start" text
  let durationS ← field "duration_s" (unsigned 64)
  return { id, start, durationS }

/-- The derived `Deserialize` of `CrashReport`. An array can give the header
alone here, the only array `decode_report` lets through. -/
def decodeCrashReport : Decoder CrashReport := structured do
  let header ← field "header" decodeHeader
  let termination ← fieldOr "termination" (optional decodeTerminationReason) none
  let exception ← fieldOr "exception" (optional decodeException) none
  let crashContext ← fieldOr "crash_context" (optional decodeCrashContext) none
  let threads ← fieldOr "threads" (sequence decodeThread) []
  let breadcrumbs ← fieldOr "breadcrumbs" (optional (sequence decodeBreadcrumb)) none
  let session ← fieldOr "session" (optional decodeSession) none
  let fingerprint ← fieldOr "fingerprint" (optional text) none
  let userFeedback ← fieldOr "user_feedback" (optional some) none
  let diagnostics ← fieldOr "_diagnostics" (optional some) none
  return {
    header, termination, exception, crashContext, threads, breadcrumbs, session,
    fingerprint, userFeedback, diagnostics }

def reportSchemaVersion : Nat := 1

inductive ReportLoadError where
  | invalidJson
  | unsupportedVersion (found supported : Nat)
  deriving DecidableEq, Repr

/-- `VersionEnvelope`: only the version of the header is read. -/
def decodeVersionEnvelope : Decoder Nat :=
  structured (field "header" (structured (field "version" (unsigned 32))))

/-- `decode_report` on the document the bytes hold, if they hold one. -/
def decodeReport (document : Option Json) : Except ReportLoadError CrashReport :=
  match document.bind decodeVersionEnvelope with
  | none => .error .invalidJson
  | some version =>
    if version ≠ reportSchemaVersion then
      .error (.unsupportedVersion version reportSchemaVersion)
    else match document.bind decodeCrashReport with
      | none => .error .invalidJson
      | some report => .ok report

end CrashMonitor.Report
