import CrashMonitor.Report.Document
import CrashMonitor.Lib.Base64
import CrashMonitor.Lib.CompactText

/-!
# Threads in a report

`format_threads` (`preprocessors/report_formatter.rs`) makes the thread reports
of the captured threads, and serialization makes the `threads` member of the
report document.
-/

namespace CrashMonitor.Report

open Lib Lib.CompactText

/-! ## Captured data -/

/-- `RawStackCapture`. -/
structure RawStackCapture where
  sp : Nat
  bytes : List UInt8
  truncated : Bool

/-- `RawThreadData`, without the port that no report shows. -/
structure RawThreadData where
  threadId : Nat
  name : Option String
  crashed : Bool
  registers : Option (SortedMap String Nat)
  backtrace : List Nat
  stackCapture : Option RawStackCapture

/-- `RawImageData`: what an address is resolved with. -/
structure RawImageData where
  path : String
  baseAddress : Nat
  textStart : Option Nat
  textEnd : Option Nat

/-! ## Formatting -/

section

variable (images : List RawImageData) (symbols : SortedMap Nat String) (thread : RawThreadData)
  (n address : Nat)

/-- `{:#x}`. -/
def hex : String := .ofList ('0' :: 'x' :: Nat.toDigits 16 n)

/-- `{:#018x}`. -/
def paddedHex : String :=
  let digits := Nat.toDigits 16 n
  .ofList ('0' :: 'x' :: (List.replicate (16 - digits.length) '0' ++ digits))

def RawImageData.covers (image : RawImageData) (address : Nat) : Bool :=
  match image.textStart, image.textEnd with
  | some start, some stop => start ≤ address && address < stop
  | _, _ => false

def resolveAddress : Option String × Option Nat :=
  match images.find? (·.covers address) with
  | none => (none, none)
  | some image =>
    (some (lastSegment image.path), some (address - image.textStart.getD image.baseAddress))

def formatFrame : BacktraceFrame :=
  let resolved := resolveAddress images address
  { address := paddedHex address
    image := resolved.1
    offset := resolved.2.map hex
    symbol := symbols.entries.lookup address
    file := none
    line := none
    column := none }

def formatStackMemory (capture : RawStackCapture) : StackMemoryReport where
  sp := hex capture.sp
  size := capture.bytes.length
  hexDump := .ofList (Base64.encode capture.bytes)
  truncated := capture.truncated

def unwindNote : String :=
  if thread.registers.isNone then "register_state_unavailable"
  else if thread.backtrace.length ≥ 129 then "frame_pointer_depth_limit"
  else "frame_pointer_only; compact_unwind_fallback_unavailable"

def formatRegisters (registers : SortedMap String Nat) : SortedMap String String :=
  .ofList (registers.entries.map fun entry => (entry.1, paddedHex entry.2))

def formatThread (i : Nat) : ThreadReport where
  index := i % 2 ^ 32
  id := thread.threadId
  name := thread.name
  crashed := thread.crashed
  registers := (thread.registers.map formatRegisters).getD .empty
  -- without registers no backtrace is shown
  backtrace := if thread.registers.isSome then
    thread.backtrace.map (formatFrame images symbols) else []
  unwindMethod := thread.registers.map fun _ => "frame_pointer"
  unwindTruncated := thread.backtrace.length ≥ 129
  unwindNote := some (unwindNote thread)
  stackMemory := thread.stackCapture.map formatStackMemory

end

def formatThreads (threads : List RawThreadData) (images : List RawImageData)
    (symbols : SortedMap Nat String) : List ThreadReport :=
  threads.zipIdx.map fun (thread, i) => formatThread images symbols thread i

/-! ## Serialization -/

def jsonNat (n : Nat) : Json := .number n

/-- An `Option` that is written as `null` when there is none. -/
def jsonOption {α : Type} (encode : α → Json) : Option α → Json
  | none => .null
  | some value => encode value

/-- `skip_serializing_if = "Option::is_none"`. -/
def skipNone {α : Type} (key : String) (encode : α → Json) (value : Option α) :
    List (String × Json) := (value.map fun value => (key, encode value)).toList

def StackMemoryReport.toJson (stack : StackMemoryReport) : Json :=
  .object [("sp", .string stack.sp), ("size", jsonNat stack.size),
    ("hex_dump", .string stack.hexDump), ("truncated", .bool stack.truncated)]

def BacktraceFrame.toJson (frame : BacktraceFrame) : Json :=
  .object ([("address", .string frame.address), ("image", jsonOption .string frame.image),
    ("offset", jsonOption .string frame.offset), ("symbol", jsonOption .string frame.symbol)] ++
    skipNone "file" .string frame.file ++ skipNone "line" jsonNat frame.line ++
    skipNone "column" jsonNat frame.column)

def ThreadReport.toJson (thread : ThreadReport) : Json :=
  .object ([("index", jsonNat thread.index), ("id", jsonNat thread.id),
    ("name", jsonOption .string thread.name), ("crashed", .bool thread.crashed),
    ("registers", .object (thread.registers.entries.map fun entry => (entry.1, .string entry.2))),
    ("backtrace", .array (thread.backtrace.map (·.toJson)))] ++
    skipNone "unwind_method" .string thread.unwindMethod ++
    [("unwind_truncated", .bool thread.unwindTruncated)] ++
    skipNone "unwind_note" .string thread.unwindNote ++
    skipNone "stack_memory" (·.toJson) thread.stackMemory)

/-- The members of a serialized `CrashReport`, in order. -/
def reportFields : List String :=
  ["header", "termination", "build", "exception", "crash_context", "threads", "breadcrumbs",
    "loaded_images", "memory_map", "heap_summary", "session", "producer_extension",
    "fingerprint", "environment", "process_output", "attachments", "user_feedback", "_diagnostics"]

/-- The document of a report: its threads, and for every other member whatever
stands in it, if it is written at all. -/
def reportJson (rest : String → Option Json) (threads : List ThreadReport) : Json :=
  .object (reportFields.filterMap fun name =>
    (if name = "threads" then some (.array (threads.map (·.toJson))) else rest name).map
      fun value => (name, value))

end CrashMonitor.Report
