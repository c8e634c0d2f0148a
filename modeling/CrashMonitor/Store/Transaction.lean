import CrashMonitor.Store.Paths
import CrashMonitor.Lib.MachineInt

/-!
# Artifact transactions

`ArtifactTransaction` of `pipeline/artifact.rs`: a report is assembled in a
hidden staging directory, every artifact is registered, the manifest is
written last, and the directory is published with one rename. Several threads
may work on one transaction; each short section under its mutex is one call.
-/

namespace CrashMonitor.Store

open Lib Interleave EventLoop MachineInt

def maxRecoveryRootEntries : Nat := 10000
def maxRecoveryArtifacts : Nat := 10000
def maxRecoveryReportEntries : Nat := maxRecoveryArtifacts + 1

section

variable (codec : Codec) (outputRoot : Path)

/-! ## Validation -/

variable (caller : Caller) (root : Path) (directory : String)

section

variable (t : Token) (sealed : CommitSeal) (registered : Registry)

/-- `ensure_before_deadline`; commit has no deadline. -/
def ensureBeforeDeadline (deadline : Bool) : Call Unit := do
  if deadline then
    if ← deadlineElapsed caller then
      throw "prepared report recovery deadline elapsed"
    else pure ()
  else pure ()

/-- The scan of `validate_exact_directory_bounded`: the artifacts seen and
whether the manifest was. -/
def scanEntries (caller : Caller) (root : Path) (directory : String)
    (manifestExpected : Bool) (maxEntries : Nat) (deadline : Bool) :
    List String → Nat → SortedMap String Nat → Bool → Call (SortedMap String Nat × Bool)
  | [], _, actual, sawManifest => pure (actual, sawManifest)
  | name :: rest, inspected, actual, sawManifest => do
    ensureBeforeDeadline caller deadline
    if inspected ≥ maxEntries then
      throw s!"report directory contains more than {maxEntries} entries"
    else
      (probe caller "read the directory entry").mapError fun e =>
        s!"cannot read report directory entry: {e}"
      let size ← (fileSize caller root directory name).mapError fun e =>
        if manifestExpected && name = manifestFileName then
          s!"cannot safely inspect report manifest: {e}"
        else s!"cannot safely inspect report artifact {name}: {e}"
      if manifestExpected && name = manifestFileName then
        scanEntries caller root directory manifestExpected maxEntries deadline
          rest (inspected + 1) actual true
      else
        scanEntries caller root directory manifestExpected maxEntries deadline
          rest (inspected + 1) (actual.insert name size) sawManifest

/-- `validate_exact_directory_bounded`. -/
def validateExactDirectoryBounded (manifestExpected : Bool)
    (maxEntries : Nat) (deadline : Bool) : Call Unit := do
  let listing ← (listDirectory caller root directory).mapError fun e =>
    s!"cannot enumerate report directory: {e}"
  let (actual, sawManifest) ← scanEntries caller root directory manifestExpected
    maxEntries deadline listing 0 .empty false
  if registered.keys ≠ actual.keys then
    throw (s!"report artifact set differs from manifest: expected " ++
      s!"{registered.keys}, found {actual.keys}")
  else if manifestExpected && !sawManifest then
    throw "prepared report has no manifest"
  else pure ()

/-- `validate_manifest_sizes`. -/
def validateManifestSizes (caller : Caller) (root : Path) (directory : String)
    (deadline : Bool) : List ManifestArtifact → Call Unit
  | [] => pure ()
  | artifact :: rest => do
    ensureBeforeDeadline caller deadline
    let size ← (fileSize caller root directory artifact.path).mapError fun e =>
      s!"cannot safely open manifest artifact: {e}"
    if size ≠ artifact.size then
      throw (s!"manifest size mismatch for {artifact.path}: expected " ++
        s!"{artifact.size}, found {size}")
    else validateManifestSizes caller root directory deadline rest

/-- `read_manifest_file`; a missing file is `none`. -/
def readManifestFile : Call (Option Bytes) := do
  match ← (readFile caller root directory manifestFileName).mapError fun e =>
      s!"manifest cannot be opened safely: {e}" with
  | none => pure none
  | some bytes =>
    if bytes.length > maxManifestBytes then
      throw s!"manifest exceeds size limit ({bytes.length} > {maxManifestBytes})"
    else pure (some bytes)

/-- `revalidate_prepared_report`. -/
def revalidatePreparedReport (manifest : ReportManifest)
    (expected : Bytes) (maxEntries : Nat) (deadline : Bool) : Call Unit := do
  ensureBeforeDeadline caller deadline
  match ← readManifestFile caller root directory with
  | none => throw "prepared report has no manifest"
  | some current =>
    if current ≠ expected then
      throw "prepared report manifest changed before publication"
    else
      validateExactDirectoryBounded caller root directory registered true maxEntries deadline
      validateManifestSizes caller root directory deadline manifest.artifacts

/-! ## Commit -/

/-- The artifact loop of `build_manifest`, from the byte total so far. -/
def measureArtifacts (caller : Caller) (staging : String) (byteBudget : Nat) :
    List (String × ArtifactKind) → Nat → Call (List ManifestArtifact)
  | [], _ => pure []
  | (name, kind) :: rest, total => do
    let size ← (fileSize caller outputRoot staging name).mapError fun e =>
      s!"manifest artifact '{(outputRoot ++ [staging, name]).display}' is missing: {e}"
    if total + size > u64Max then
      throw "artifact byte total overflowed u64"
    else if total + size > byteBudget then
      throw (s!"report artifact byte budget exceeded ({total + size} > " ++ s!"{byteBudget})")
    else
      (probe caller "sync the artifact").mapError fun e =>
        s!"cannot sync artifact '{(outputRoot ++ [staging, name]).display}': {e}"
      let artifacts ← measureArtifacts caller staging byteBudget rest (total + size)
      pure (⟨name, kind, size⟩ :: artifacts)

/-- `build_manifest`. -/
def buildManifest : Call ReportManifest := do
  let staging := stagingName sealed.context.reportId
  validateExactDirectoryBounded caller outputRoot staging sealed.registered false
    maxRecoveryReportEntries false
  let artifacts ← measureArtifacts outputRoot caller staging
    sealed.context.byteBudget sealed.registered.entries 0
  let committedAt ← timestamp caller
  let destination ← Attempt.done (destinationPolicy outputRoot sealed.destinationRoot)
  pure {
    schemaVersion := manifestSchemaVersion
    reportId := sealed.context.reportId
    reportType := sealed.context.reportType
    pid := sealed.context.pid
    process := sealed.context.processName
    committedAt := committedAt
    destination := destination
    artifacts := artifacts
    finalDiagnostics := none }

/-- The part of `commit` whose failure removes the temporary manifest. -/
def prepareManifest (staging temporary : String) (bytes : Bytes) (d : Nat) : Call Unit := do
  (writeFile caller d temporary bytes).mapError fun e => s!"cannot write report manifest: {e}"
  (probe caller "flush the manifest").mapError fun e => s!"cannot flush report manifest: {e}"
  (probe caller "sync the manifest").mapError fun e => s!"cannot sync report manifest: {e}"
  (publishPrivateFile caller outputRoot staging temporary manifestFileName).mapError
    fun e => s!"cannot commit report manifest: {e}"
  setPrepared caller t
  syncDirectory caller (outputRoot ++ [staging])

/-- Durability failures after the rename are only recorded. -/
def syncAfterPublication (path : Path) (warnings : List String) : Call (List String) := do
  match ← (syncDirectory caller path).outcome with
  | .ok _ => pure warnings
  | .error e => pure (warnings ++ [e])

/-- The output root is synced too when the report left it. -/
def syncOutputRoot (warnings : List String) : Call (List String) :=
  if root = outputRoot then pure warnings
  else syncAfterPublication caller outputRoot warnings

/-- `commit` from the published manifest on. -/
def publishPrepared (manifest : ReportManifest) (bytes : Bytes) : Call CommittedReport := do
  let staging := stagingName sealed.context.reportId
  let id := sealed.context.reportId
  let root := sealed.destinationRoot
  ensureRealDirectory caller root
  match ← (inspectEntry caller root id.text).mapError fun e =>
      s!"cannot inspect report destination: {e}" with
  | some _ => throw s!"report destination already exists: '{(root ++ [id.text]).display}'"
  | none =>
    revalidatePreparedReport caller outputRoot staging sealed.registered manifest
      bytes maxRecoveryReportEntries false
    (publishPrivateDirectory caller outputRoot staging root id.text).mapError
      fun e => "cannot publish report directory " ++
        s!"'{(outputRoot ++ [staging]).display}' as " ++ s!"'{(root ++ [id.text]).display}': {e}"
    registerLease caller root id
    let warnings ← durabilityWarnings caller t
    setCommitted caller t ⟨id, root, warnings⟩
    let warnings ← syncAfterPublication caller root warnings
    let warnings ← syncOutputRoot outputRoot caller root warnings
    setReport caller t ⟨id, root, warnings⟩
    pure ⟨id, root, warnings⟩

/-- `commit` once the transaction is sealed. -/
def commitSealed : Call CommittedReport := do
  let staging := stagingName sealed.context.reportId
  let manifest ← buildManifest outputRoot caller sealed
  let bytes := codec.encode manifest
  if bytes.length > maxManifestBytes then
    throw (s!"report manifest exceeds size limit ({bytes.length} > " ++ s!"{maxManifestBytes})")
  else
    let nonce ← uuid caller
    let temporary := s!".{manifestFileName}.{nonce}.tmp"
    let d ← (createPrivateFile caller outputRoot staging temporary).mapError fun e =>
      s!"cannot create temporary report manifest: {e}"
    match ← (prepareManifest outputRoot caller t staging temporary bytes d).outcome with
    | .error e =>
      let _ ← (removeFile caller outputRoot staging temporary).outcome
      throw e
    | .ok _ => publishPrepared outputRoot caller t sealed manifest bytes

end

/-- `commit`. -/
def commit (t : Token) : Call CommittedReport := do
  let sealed ← beginCommit caller t
  let result ← (commitSealed codec outputRoot caller t sealed).outcome
  returnBorrow caller t sealed.borrow
  Attempt.done result

/-! ## Removal -/

/-- Remove the files of a directory one by one; the first failure ends it. -/
def removeFiles (caller : Caller) (root : Path) (directory : String) : List String → Call Unit
  | [] => pure ()
  | name :: rest => do
    removeFile caller root directory name
    removeFiles caller root directory rest

end

end CrashMonitor.Store
