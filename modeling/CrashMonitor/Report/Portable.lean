import CrashMonitor.Report.Threads
import CrashMonitor.Report.Summary
import CrashMonitor.Lib.Serial
import CrashMonitor.Privacy.Sanitizer

/-!
# The portable report commands

Plain reports in `crash-report-core` and the `stack` command of `crash-report`
(`crates/crash-monitor-cli`). The command looks for the bytes of a stack under
`data`; the monitor writes them under `hex_dump`.
-/

namespace CrashMonitor.Report

open Lib Lib.Decode Lib.CompactText Privacy List

/-! ## Loading -/

/-- `MAX_REPORT_BYTES` of the portable loader. -/
def portableReportBytes : Nat := 32 * 1024 * 1024

inductive PortableLoadError where
  | io (error : String)
  | invalidJson (error : String)
  | invalidArchive (error : String)
  | missingReport
  | oversized (bytes : Nat)
  deriving DecidableEq, Repr

/-- `Display` of `ReportLoadError`. -/
def PortableLoadError.message : PortableLoadError → String
  | .io error => "cannot read report: " ++ error
  | .invalidJson error => "invalid report JSON: " ++ error
  | .invalidArchive error => "invalid report archive: " ++ error
  | .missingReport => "archive contains no top-level JSON report"
  | .oversized bytes =>
    "report exceeds " ++ decimal portableReportBytes ++ " bytes: " ++ decimal bytes

/-- `read_bounded`: at most one byte more than the limit is read. -/
def readBounded (input : List UInt8) : Except PortableLoadError (List UInt8) :=
  let bytes := input.take (portableReportBytes + 1)
  if bytes.length > portableReportBytes then .error (.oversized bytes.length) else .ok bytes

/-- The documents serde_json reads, and the error texts of the others. -/
abbrev JsonParser := List UInt8 → Except String Json

/-- `load_report` on a plain file, which may fail to open. -/
def loadPlainReport (parse : JsonParser) (file : Except String (List UInt8)) :
    Except PortableLoadError Json :=
  match file with
  | .error error => .error (.io error)
  | .ok content =>
    match readBounded content with
    | .error error => .error error
    | .ok bytes =>
      match parse bytes with
      | .error error => .error (.invalidJson error)
      | .ok value => .ok value

/-- `ReportDocument::thread`. -/
def documentThread (document : Json) (index : Nat) : Option Json :=
  match member? "threads" document with
  | some (.array threads) => threads[index]?
  | _ => none

/-! ## The stack command -/

/-- `{:08x}`. -/
def eightHexDigits (n : Nat) : Text :=
  let digits := Nat.toDigits 16 n
  List.replicate (8 - digits.length) '0' ++ digits

/-- One line: the offset of its first byte and the bytes. -/
def dumpLine (offset : Nat) (chunk : List UInt8) : Text :=
  eightHexDigits offset ++ ':' :: chunk.flatMap fun byte => ' ' :: twoHexDigits byte.toNat

/-- `bytes.chunks(16).enumerate()` from the line `row` on; every line takes a
byte, so the number of bytes bounds the number of lines. -/
def dumpFrom : Nat → Nat → List UInt8 → List Text
  | 0, _, _ => []
  | turns + 1, row, bytes =>
    if bytes.isEmpty then []
    else dumpLine (row * 16) (bytes.take 16) :: dumpFrom turns (row + 1) (bytes.drop 16)

/-- The bytes in order, 16 on a line with their offset. -/
def dump (bytes : List UInt8) : List Text := dumpFrom bytes.length 0 bytes

/-- The thread's part of `stack`: find the encoded bytes, decode and print. -/
def stackOfThread (thread : Json) : Except String (List Text) :=
  match (pointer ["stack_memory", "data"] thread).bind Decode.text with
  | none => .error "thread has no stack memory"
  | some encoded =>
    match Base64.decode encoded.toList with
    | none => .error "invalid stack base64"
    | some bytes => .ok (dump bytes)

def stack (parse : JsonParser) (file : Except String (List UInt8)) (thread : Nat) :
    Except String (List Text) :=
  match loadPlainReport parse file with
  | .error error => .error error.message
  | .ok document =>
    match documentThread document thread with
    | none => .error "thread index is out of range"
    | some thread => stackOfThread thread

/-! ## What is printed -/

/-- The lines show the bytes in order, 16 on each with the offset of the first. -/
def Shows (lines : List Text) (bytes : List UInt8) : Prop :=
  ∀ k, lines[k]? =
    if 16 * k < bytes.length then some (dumpLine (16 * k) ((bytes.drop (16 * k)).take 16))
    else none

/-! ## From the captured threads to the printed stack -/

/-- The file holds the document: it is read back as one with the same content.
A writer may sort the members, and a number may be rounded. -/
def Stores (parse : JsonParser) (file : List UInt8) (document : Json) : Prop :=
  ∃ read, parse file = .ok read ∧ Alike document read

/-- For every thread with a stack capture the command prints its bytes. -/
def PrintsStacks (parse : JsonParser) (file : List UInt8) (threads : List RawThreadData) : Prop :=
  ∀ i thread capture, threads[i]? = some thread → thread.stackCapture = some capture →
    ∃ lines, stack parse (.ok file) i = .ok lines ∧ Shows lines capture.bytes

section

variable (sanitizer : Sanitizer) (rest : String → Option Json)

/-- The `threads` of the written report are those of the report, masked. -/
theorem documentThread_reportJson (threads : List ThreadReport) (i : Nat) :
    documentThread (sanitizer.sanitizeJsonValue (reportJson rest threads)) i =
      threads[i]?.map fun thread => sanitizer.sanitizeJsonValue thread.toJson := by
  have hmember : member? "threads" (reportJson rest threads) =
      some (.array (threads.map (·.toJson))) := by
    rw [reportJson, member?, ← filterMap_reverse, lookup_filterMap _ (by decide)]
    rfl
  have hvalues : ∀ values, Json.mapValues sanitizer.sanitizeStr values =
      values.map (·.mapTexts sanitizer.sanitizeStr) := by
    intro values
    induction values with
    | nil => rfl
    | cons value values ih =>
      rw [map_cons, ← ih]
      rfl
  unfold documentThread Sanitizer.sanitizeJsonValue
  rw [member?_mapTexts, hmember, Option.map_some, Json.mapTexts]
  simp only [hvalues, List.getElem?_map, Option.map_map]
  rfl

theorem member?_stack_memory (thread : ThreadReport) :
    member? "stack_memory" thread.toJson = thread.stackMemory.map (·.toJson) := by
  unfold ThreadReport.toJson member?
  cases thread.stackMemory with
  | none | some stackMemory => cases thread.unwindMethod <;> cases thread.unwindNote <;> rfl

theorem pointer_sanitized (thread : ThreadReport) :
    pointer ["stack_memory", "data"] (sanitizer.sanitizeJsonValue thread.toJson) = none := by
  rw [pointer_cons (by decide), Sanitizer.sanitizeJsonValue, member?_mapTexts, member?_stack_memory]
  cases thread.stackMemory with
  | none => rfl
  | some stackMemory => rfl

/-- Where the command looks for the bytes of a thread. -/
def stackPlaces (i : Nat) : List Place :=
  [.key "threads", .index i, .key "stack_memory", .key "data"]

theorem find?_stackPlaces (document : Json) (i : Nat) :
    find? (stackPlaces i) document =
      (documentThread document i).bind (pointer ["stack_memory", "data"]) := by
  have hpointer : ∀ thread, find? (["stack_memory", "data"].map .key) thread =
      pointer ["stack_memory", "data"] thread := find?_key (by decide)
  show (member? "threads" document).bind (fun value => (descend (.index i) value).bind _) = _
  unfold documentThread
  cases member? "threads" document with
  | none => rfl
  | some value =>
    cases value with
    | array threads => exact Option.bind_congr fun thread _ => hpointer thread
    | _ => rfl

/-- A printed stack stood where the command looks for it. -/
theorem find?_of_stack {parse file read i lines} (hread : parse file = .ok read)
    (h : stack parse (.ok file) i = .ok lines) :
    ∃ encoded, find? (stackPlaces i) read = some (.string encoded) := by
  rw [find?_stackPlaces]
  unfold stack loadPlainReport readBounded at h
  by_cases hsize : file.length ≤ portableReportBytes
  · have htake : file.take (portableReportBytes + 1) = file :=
      take_of_length_le (Nat.le_succ_of_le hsize)
    simp only [htake, if_neg (Nat.not_lt.mpr hsize), hread] at h
    cases hthread : documentThread read i with
    | none => simp [hthread] at h
    | some thread =>
      simp only [hthread, stackOfThread] at h
      rw [Option.bind_some]
      cases hvalue : pointer ["stack_memory", "data"] thread with
      | none => simp [hvalue] at h
      | some value =>
        cases value with
        | string encoded => exact ⟨encoded, rfl⟩
        | _ => simp [hvalue, Decode.text] at h
  · have hlong : (file.take (portableReportBytes + 1)).length > portableReportBytes := by
      rw [length_take]
      omega
    simp only [if_pos hlong] at h
    cases h

/-- No thread of a written report has a member `data` in its stack memory. -/
theorem find?_reportJson (threads : List ThreadReport) (i : Nat) :
    find? (stackPlaces i) (sanitizer.sanitizeJsonValue (reportJson rest threads)) = none := by
  rw [find?_stackPlaces, documentThread_reportJson]
  cases threads[i]? with
  | none => rfl
  | some thread => exact pointer_sanitized sanitizer thread

variable {sanitizer rest} {parse : JsonParser} {file : List UInt8} {threads : List RawThreadData}
  {images : List RawImageData} {symbols : SortedMap Nat String} (hstores : Stores parse file
    (sanitizer.sanitizeJsonValue (reportJson rest (formatThreads threads images symbols))))
include hstores

/-- The command never prints a stack of a report the monitor wrote. -/
theorem stack_fails {i lines} : stack parse (.ok file) i ≠ .ok lines := by
  intro hlines
  obtain ⟨read, hread, halike⟩ := hstores
  obtain ⟨encoded, hencoded⟩ := find?_of_stack hread hlines
  have hwritten := halike.find?_string hencoded
  rw [find?_reportJson] at hwritten
  cases hwritten

/-- The stacks of a written report are printed exactly if there are none. -/
theorem portable_stack_prints_iff :
    PrintsStacks parse file threads ↔ ∀ thread ∈ threads, thread.stackCapture = none := by
  constructor
  · intro hprints thread hmem
    by_contra hsome
    obtain ⟨capture, hcapture⟩ := Option.ne_none_iff_exists'.mp hsome
    obtain ⟨i, hi⟩ := List.getElem?_of_mem hmem
    obtain ⟨lines, hlines, -⟩ := hprints i thread capture hi hcapture
    exact stack_fails hstores hlines
  · intro hnone i thread capture hi hcapture
    rw [hnone thread (mem_of_getElem? hi)] at hcapture
    cases hcapture

end

/-! ## A file of a report -/

/-- A parser for files in the plain format of documents. -/
def plainParse : JsonParser := fun bytes =>
  match Serial.json.read bytes with
  | some document => .ok document
  | none => .error "expected value"

theorem stores_put (document : Json) : Stores plainParse (Serial.json.put document) document := by
  refine ⟨document, ?_, .refl document⟩
  rw [plainParse, Serial.read_put]

/-- A thread, with or without its stack. -/
def crashedThread (stackCapture : Option RawStackCapture) : RawThreadData where
  threadId := 7
  name := none
  crashed := true
  registers := none
  backtrace := []
  stackCapture := stackCapture

/-- The file the monitor writes for that thread. -/
def threadFile (stackCapture : Option RawStackCapture) : List UInt8 :=
  Serial.json.put (Sanitizer.sanitizeJsonValue { username := none, home := none }
    (reportJson (fun _ => none) (formatThreads [crashedThread stackCapture] [] .empty)))

theorem no_stack_printed : PrintsStacks plainParse (threadFile none) [crashedThread none] :=
  (portable_stack_prints_iff (stores_put _)).mpr (by simp [crashedThread])

/-- Three captured bytes are not printed. -/
theorem captured_stack_not_printed :
    ∃ capture, capture.bytes = [1, 2, 3] ∧
      ¬ PrintsStacks plainParse (threadFile (some capture)) [crashedThread (some capture)] := by
  refine ⟨⟨4096, [1, 2, 3], false⟩, rfl, ?_⟩
  intro hprints
  obtain ⟨lines, hlines, -⟩ := hprints 0 _ _ rfl rfl
  exact stack_fails (stores_put _) hlines

end CrashMonitor.Report
