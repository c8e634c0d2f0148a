import CrashMonitor.Staging.Copy
import CrashMonitor.Privacy.Sanitizer
import CrashMonitor.Lib.Decode

/-!
# The attachments of a report

The four steps that deal with the files a report names: `AttachmentCopier`
copies the registered ones, `write_report` adds the screenshots and writes
`report.json`, `PNGConverter` replaces raw screenshots by images, and
`RawCleanup` removes the raw artifacts of the first stage. Encoding to JSON and
to PNG are given functions.
-/

namespace CrashMonitor.Staging

open Lib Lib.Decode Store Interleave Files Privacy

def reportName : String := "report.json"

variable (name : String)

/-- `Path::extension` of a single component. -/
def extension : Option String :=
  match name.toList.reverse.dropWhile (· != '.') with
  | [] | [_] => none
  | _ => some (.ofList (name.toList.reverse.takeWhile (· != '.')).reverse)

/-! ## AttachmentCopier -/

/-- `RawAttachment`. -/
structure Registration where
  label : String
  path : String

/-- `attachment_filename_component`. -/
def attachmentFilenameComponent (value fallback : String) (maxLen : Nat) (allowDot : Bool) :
    String :=
  let sanitized := (value.toList.take maxLen).map fun c =>
    if c.isAlphanum || c = '-' || c = '_' || (allowDot && c = '.') then c else '_'
  if sanitized.isEmpty then fallback else .ofList sanitized

/-- The name of a copy. -/
def attachmentName (attachment : Registration) (nonce : String) : String :=
  let label := attachmentFilenameComponent attachment.label "attachment" 64 true
  let ending := match (pathComponents attachment.path).getLast? with
    | some (.normal name) => (extension name).getD "bin"
    | _ => "bin"
  "attachment-" ++ label ++ "-" ++ nonce ++ "." ++ attachmentFilenameComponent ending "bin" 16 false

def copyAttachments : List Registration → Task Unit
  | [] => pure ()
  | attachment :: rest => do
    checkpoint
    let name := attachmentName attachment (← uuid)
    let temporary := "." ++ (name ++ "." ++ (← uuid) ++ ".attachment.tmp")
    match ← (copyRegisteredAttachment attachment.path name temporary).outcome with
    | .error e => do
      if ← timedOut then throw e else copyAttachments rest
    | .ok found => do
      register name .attachment
      attach ⟨attachment.label, attachment.path, name, found.1⟩
      copyAttachments rest

/-- `AttachmentCopier::process`. -/
def attachmentCopier (registered : List Registration) : Task Unit := do
  checkpoint
  if registered.isEmpty then pure ()
  else
    copyAttachments registered
    checkpoint

/-! ## write_report -/

structure Screenshot where
  rgba : Bytes
  width : Nat
  height : Nat
  tier : Nat
  timestampNs : Nat

/-- A report, with its attachments apart from its other members. -/
structure StagedReport where
  others : List (String × Json)
  attachments : List Json

def StagedReport.document (report : StagedReport) : Json :=
  .object (report.others ++ [("attachments", .array report.attachments)])

structure ReportCodec where
  encode : StagedReport → Bytes
  decode : Bytes → Option StagedReport
  /-- What can be read back has the content of what was written. -/
  decode_encode : ∀ report found, decode (encode report) = some found →
    Alike found.document report.document

/-- `format_attachments`. -/
def formatAttachment (attachment : CopiedAttachment) : Json :=
  .object [("label", .string attachment.label), ("file", .string attachment.copiedPath),
    ("original_path", .string attachment.originalPath), ("size", .number attachment.size)]

/-- `{i:03}`. -/
def threeDigits (i : Nat) : String :=
  let digits := Nat.toDigits 10 i
  .ofList (List.replicate (3 - digits.length) '0' ++ digits)

def rgbaName (i : Nat) : String := "screenshot-" ++ threeDigits i ++ ".rgba"

/-- `rgba_attachment` with the time of the screenshot. -/
def rgbaAttachment (i : Nat) (shot : Screenshot) : Json :=
  .object [("label", .string ("screenshot_" ++ threeDigits i)), ("file", .string (rgbaName i)),
    ("format", .string "rgba"), ("width", .number shot.width), ("height", .number shot.height),
    ("size", .number shot.rgba.length), ("tier", .number shot.tier),
    ("timestamp_ns", .number shot.timestampNs)]

/-- A temporary file is written chunk by chunk, flushed and synchronised. -/
def fillFile (check : Task Unit) (report : String → String → String) (temporary : String) :
    List Bytes → Task Unit
  | [] => do
    (probe "flush the file").mapError (report "flush")
    (probe "sync the file").mapError (report "sync")
  | chunk :: chunks => do
    check
    (writeAll temporary chunk).mapError (report "write")
    fillFile check report temporary chunks

/-- A new file, made under a hidden name and published. -/
def publishNew (temporary name : String) (createError publishError : String → String)
    (body : Task Unit) : Task Unit := do
  (create temporary).mapError createError
  publishThrough temporary name publishError body

/-- `write_artifact` from the temporary file on. -/
def storeArtifact (kind : ArtifactKind) (data : Bytes) : Task Unit := do
  let temporary := "." ++ (name ++ "." ++ (← uuid) ++ ".artifact.tmp")
  publishNew temporary name (fun e => s!"cannot create temporary artifact '{temporary}': {e}")
    (fun e => s!"cannot publish artifact '{temporary}' as '{name}': {e}")
    (fillFile (pure ()) (fun verb e => s!"cannot {verb} artifact '{name}': {e}") temporary [data])
  insert name kind
  let _ ← (probe "sync the directory").outcome

/-- `ArtifactTransaction::write_bytes`. -/
def writeBytes (kind : ArtifactKind) (data : Bytes) : Task Unit := do
  probe "begin an operation"
  if !validateArtifactName name then throw s!"invalid report artifact name: {name}"
  else match ← (fileSize name).outcome with
    | .ok _ => throw s!"artifact already exists: '{name}'"
    | .error _ => storeArtifact name kind data

/-- The screenshot loop; one that cannot be written is left out. -/
def writeScreenshots : Nat → List Screenshot → List Json → Task (List Json)
  | _, [], attachments => pure attachments
  | i, shot :: shots, attachments => do
    match ← (writeBytes (rgbaName i) .screenshotRgba shot.rgba).outcome with
    | .ok _ => writeScreenshots (i + 1) shots (attachments ++ [rgbaAttachment i shot])
    | .error _ => writeScreenshots (i + 1) shots attachments

section

variable (codec : ReportCodec) (sanitizer : Sanitizer)

section

variable (report : StagedReport) (shots : List Screenshot)

/-- `sanitize_to_value` of a report. -/
def sanitizeReport : StagedReport :=
  ⟨report.others.map fun member => (member.1, sanitizer.sanitizeJsonValue member.2),
    report.attachments.map sanitizer.sanitizeJsonValue⟩

/-- `write_report`. -/
def writeReport : Task Unit := do
  let attachments ← writeScreenshots 0 shots report.attachments
  probe "encode the report"
  (writeBytes reportName .report
    (codec.encode (sanitizeReport sanitizer ⟨report.others, attachments⟩))).mapError fun e =>
      s!"Failed to write report: {e}"

/-- The stage of the pipeline around `write_report`, which sets the result. -/
def reportStage : Task Unit := do
  let written ← (writeReport codec sanitizer report shots).outcome
  let late ← timedOut
  let result ← reportResult
  let registered ← artifacts
  setResult ⟨registered.map Prod.fst, result.rawPath,
    if late || written.toOption.isNone then none else some reportName⟩

end

end

/-! ## PNGConverter -/

def maxRgbaDimension : Nat := 8192
def maxRgbaBytes : Nat := 128 * 1024 * 1024
def maxRgbaFilenameBytes : Nat := 255
def maxReportJsonBytes : Nat := 256 * 1024 * 1024

/-- A string member of an object. -/
def textOf (key : String) (value : Json) : Option String := (member? key value).bind text

/-- `as_u64` of a member, if it fits in 32 bits. -/
def sizeOf (key : String) (value : Json) : Option Nat := (member? key value).bind (unsigned 32)

/-- `is_safe_rgba_basename`. -/
def isSafeRgbaBasename : Bool :=
  !name.isEmpty && name.utf8ByteSize ≤ maxRgbaFilenameBytes && !name.toList.contains '\x00' &&
    match pathComponents name with
    | [.normal base] => extension base = some "rgba"
    | _ => false

/-- `checked_rgba_len`. -/
def checkedRgbaLen (width height : Nat) : Option Nat :=
  if width = 0 ∨ height = 0 ∨ width > maxRgbaDimension ∨ height > maxRgbaDimension ∨
    width * height * 4 > maxRgbaBytes then none
  else some (width * height * 4)

/-- `strip_suffix(".rgba")`. -/
def stripRgba : Option String :=
  if ".rgba".toList.isSuffixOf name.toList then
    some (.ofList (name.toList.take (name.toList.length - 5)))
  else none

/-- What is to be converted: the file, its size in pixels and in bytes. -/
def conversionOf (attachment : Json) : Option (String × Nat × Nat × Nat) :=
  if textOf "format" attachment ≠ some "rgba" then none
  else do
    let file ← textOf "file" attachment
    if !isSafeRgbaBasename file then none
    else
      let width ← sizeOf "width" attachment
      let height ← sizeOf "height" attachment
      let expected ← checkedRgbaLen width height
      pure (file, width, height, expected)

/-- The entry of a converted screenshot. -/
def pngAttachment (file : String) (size : Nat) : Json → Json
  | .object members => .object
    ((Json.insertMember "size" (.number size) (Json.insertMember "format" (.string "png")
      (Json.insertMember "file" (.string file) members))).filter fun member =>
        member.1 ≠ "width" && member.1 ≠ "height")
  | value => value

/-- `read_rgba_exact`. -/
def readRgbaExact (file : String) (expected : Nat) : Task Bytes := do
  checkpoint
  let size ← (fileSize file).mapError fun e => s!"RGBA input is not private: {e}"
  checkpoint
  if size ≠ expected then
    throw s!"RGBA size mismatch: expected {expected} bytes, found {size}"
  else
    let data ← readAll file
    if data.length ≠ expected then
      throw s!"RGBA size mismatch: expected {expected} bytes, read {data.length}"
    else pure data

def rgbaReadChunkBytes : Nat := 64 * 1024

/-- `chunks`; there are at most as many as bytes. -/
def chunksOf (size : Nat) : Nat → Bytes → List Bytes
  | _, [] | 0, _ => []
  | rounds + 1, data => data.take size :: chunksOf size rounds (data.drop size)

/-- The temporary file of `publish_bytes_atomically`. -/
def fillBytes (check : Task Unit) (kind temporary : String) (data : Bytes) : Task Unit :=
  fillFile check (fun verb e => s!"Failed to {verb} {kind} temporary file: {e}") temporary
    (chunksOf rgbaReadChunkBytes data.length data)

/-- The hidden name it has in the meantime. -/
def pendingName (nonce : String) : String := "." ++ (name ++ ".png-converter-" ++ nonce ++ ".tmp")

/-- `publish_png`. -/
def publishPng (data : Bytes) : Task Unit := do
  let temporary := pendingName name (← uuid)
  publishNew temporary name (fun e => s!"Failed to create PNG temporary file: {e}")
    (fun e => s!"Failed to publish PNG: {e}") do
      fillBytes checkpoint "PNG" temporary data
      checkpoint
  let _ ← (probe "sync the directory").outcome

/-- `replace_report_atomically`. -/
def replaceReport (data : Bytes) : Task Unit := do
  let temporary := pendingName name (← uuid)
  (create temporary).mapError fun e => s!"Failed to create report temporary file: {e}"
  removingOnError temporary do
    fillBytes (pure ()) "report" temporary data
    (replace temporary name).mapError fun e => s!"Failed to replace report: {e}"
  let _ ← (probe "sync the directory").outcome

/-- `load_report_for_conversion`. -/
def loadReport (codec : ReportCodec) (name : String) : Task StagedReport := do
  checkpoint
  let size ← (fileSize name).mapError fun e => s!"report '{name}' is not private: {e}"
  if size > maxReportJsonBytes then
    throw s!"report '{name}' exceeds {maxReportJsonBytes} bytes"
  else
    let data ← readAll name
    match codec.decode data with
    | none => throw s!"invalid report JSON in '{name}'"
    | some report => pure report

/-- `ConvertedRgba`. -/
structure ConvertedRgba where
  path : String
  pngPath : String

section

variable (encodePng : Bytes → Nat → Nat → Option Bytes)

/-- `convert_one` once the image is encoded. -/
def publishConverted (attachment : Json) (file : String) (png : Bytes) :
    Task (Option (Json × ConvertedRgba)) := do
  if ← timedOut then pure none
  else match stripRgba file with
    | none => pure none
    | some stem =>
      match ← (publishPng (stem ++ ".png") png).outcome with
      | .error _ => pure none
      | .ok _ => pure (some (pngAttachment (stem ++ ".png") png.length attachment,
          ⟨file, stem ++ ".png"⟩))

/-- `convert_one` of a screenshot. -/
def convertScreenshot (attachment : Json) (file : String) (width height expected : Nat) :
    Task (Option (Json × ConvertedRgba)) := do
  match ← (readRgbaExact file expected).outcome with
  | .error _ => pure none
  | .ok rgba =>
    if ← timedOut then pure none
    else match encodePng rgba width height with
      | none => pure none
      | some png => publishConverted attachment file png

/-- `convert_one`. -/
def convertOne (attachment : Json) : Task (Option (Json × ConvertedRgba)) := do
  if ← timedOut then pure none
  else match conversionOf attachment with
    | none => pure none
    | some (file, width, height, expected) =>
      convertScreenshot encodePng attachment file width height expected

/-- A new path of the result. -/
def addPath (path : String) : Task Unit := do
  let result ← reportResult
  setResult { result with artifactPaths :=
    if path ∈ result.artifactPaths then result.artifactPaths
    else result.artifactPaths ++ [path] }

/-- Cancellation is observed only while nothing has been published. -/
def checkpointIf (condition : Bool) : Task Unit :=
  if condition then checkpoint else pure ()

/-- The conversion loop: the entries so far, and what has been converted. -/
def convertAll : List Json → List Json → List ConvertedRgba → Task (List Json × List ConvertedRgba)
  | [], done, converted => pure (done, converted)
  | attachment :: rest, done, converted => do
    checkpointIf converted.isEmpty
    match ← convertOne encodePng attachment with
    | none => convertAll rest (done ++ [attachment]) converted
    | some found => do
      register found.2.pngPath .screenshotPng
      addPath found.2.pngPath
      convertAll rest (done ++ [found.1]) (converted ++ [found.2])

/-- `remove_if_unchanged`. -/
def removeIfUnchanged (path : String) : Task (Except Failure Bool) := do
  match ← unchanged path with
  | .error .missing => pure (.ok true)
  | .error e => pure (.error e)
  | .ok false => pure (.ok false)
  | .ok true =>
    match ← remove path with
    | .ok _ | .error .missing => pure (.ok true)
    | .error e => pure (.error e)

def removeConverted : List ConvertedRgba → Task Unit
  | [] => pure ()
  | rgba :: rest => do
    match ← removeIfUnchanged rgba.path with
    | .ok true => do
      forget rgba.path
      removeConverted rest
    | _ => removeConverted rest

/-- `PNGConverter::process`. -/
def pngConverter (codec : ReportCodec) : Task Unit := do
  checkpoint
  match (← reportResult).jsonPath with
  | none => pure ()
  | some json =>
    probe "open the directory"
    let report ← loadReport codec json
    let found ← convertAll encodePng report.attachments [] []
    if found.2.isEmpty then checkpoint
    else
      (probe "encode the report").mapError fun e => s!"JSON serialization failed: {e}"
      replaceReport json (codec.encode ⟨report.others, found.1⟩)
      removeConverted found.2
      checkpoint

end

/-! ## RawCleanup -/

/-- The kinds of the raw artifacts of the first stage. -/
def isRaw : ArtifactKind → Bool
  | .threadRaw | .breadcrumbsRaw | .contextRaw => true
  | _ => false

def removeRaw : List String → Task Unit
  | [] => pure ()
  | raw :: rest => do
    match ← remove raw with
    | .ok _ | .error .missing => do
      forget raw
      removeRaw rest
    | .error e => throw ("RawCleanup failed to remove sensitive raw artifact " ++
        s!"'{raw}': {e.text}")

/-- `RawCleanup::process`. -/
def rawCleanup : Task Unit := do
  checkpoint
  match (← reportResult).jsonPath with
  | none => checkpoint
  | some _ =>
    let registered ← artifacts
    removeRaw ((registered.filter fun artifact => isRaw artifact.2).map Prod.fst)
    let result ← reportResult
    setResult { result with rawPath := none }
    checkpoint

end CrashMonitor.Staging
