import CrashMonitor.Store.Transaction

/-!
# Startup recovery and scavenging

What a starting monitor does with the staging directories it finds
(`pipeline/artifact.rs`): recovery publishes a prepared report that was
interrupted before the rename, scavenging deletes old abandoned ones. Both
take the advisory lock of a directory first, and skip it when a live monitor
has it.
-/

namespace CrashMonitor.Store

open Lib Interleave

section

variable (codec : Codec) (outputRoot : Path)

/-! ## Recovery -/

variable (caller : Caller) (name : String)

/-- `recover_prepared_entry` from the validated manifest on. -/
def publishRecovered (id : ReportId) (registered : Registry) (manifest : ReportManifest)
    (bytes : Bytes) : Call Bool := do
  revalidatePreparedReport caller outputRoot name registered manifest bytes
    maxRecoveryReportEntries true
  let root ← Attempt.done (destinationFromPolicy outputRoot manifest.destination)
  ensureRealDirectory caller root
  match ← (inspectEntry caller root id.text).mapError fun e =>
      s!"cannot inspect report destination: {e}" with
  | some _ => throw s!"report destination already exists: '{(root ++ [id.text]).display}'"
  | none =>
    ensureBeforeDeadline caller true
    revalidatePreparedReport caller outputRoot name registered manifest bytes
      maxRecoveryReportEntries true
    (publishPrivateDirectory caller outputRoot name root id.text).mapError fun e =>
      s!"cannot publish prepared directory as '{(root ++ [id.text]).display}': {e}"
    -- a durability failure does not take the recovered report back
    let _ ← (syncDirectory caller root).outcome
    let _ ← syncOutputRoot outputRoot caller root []
    pure true

/-- `recover_prepared_entry` once the directory is locked. -/
def recoverLocked (id : ReportId) : Call Bool := do
  match ← readManifestFile caller outputRoot name with
  | none => pure false
  | some bytes =>
    match codec.decode bytes with
    | none => throw "malformed prepared manifest"
    | some manifest =>
      if manifest.schemaVersion ≠ manifestSchemaVersion ∨ manifest.reportId ≠ id then
        throw "prepared manifest identity mismatch"
      else if manifest.artifacts.length > maxRecoveryArtifacts then
        throw (s!"prepared manifest contains more than {maxRecoveryArtifacts} " ++ "artifacts")
      else
        let registered ← Attempt.done (manifestRegistry manifest)
        publishRecovered outputRoot caller name id registered manifest bytes

/-- `recover_prepared_entry` of a staging name. -/
def recoverStaging (id : ReportId) : Call Bool := do
  match ← tryLockReportDirectory caller outputRoot name with
  | none => pure false
  | some (t, d) => holding caller t d (recoverLocked codec outputRoot caller name id)

/-- `recover_prepared_entry`. -/
def recoverPreparedEntry (kind : EntryKind) : Call Bool := do
  if ← deadlineElapsed caller then pure false
  else
    (probe caller "read the entry's type").mapError fun e =>
      s!"cannot inspect staging entry type: {e}"
    if kind ≠ .directory then pure false
    else
      match stagingReportId name with
      | none => pure false
      | some id => recoverStaging codec outputRoot caller name id

/-- A candidate that failed is logged and left where it is. -/
def recoverEntry (kind : EntryKind) : Call Nat := do
  match ← (probe caller "read the root entry").outcome with
  | .error _ => pure 0
  | .ok _ =>
    match ← (recoverPreparedEntry codec outputRoot caller name kind).outcome with
    | .ok true => pure 1
    | _ => pure 0

/-- The loop of `recover_prepared_reports_with_limits`. -/
def recoverEntries (caller : Caller) : List (String × EntryKind) → Nat → Nat → Call Nat
  | [], _, recovered => pure recovered
  | (name, kind) :: rest, inspected, recovered => do
    if inspected ≥ maxRecoveryRootEntries then pure recovered
    else if ← deadlineElapsed caller then pure recovered
    else
      let count ← recoverEntry codec outputRoot caller name kind
      recoverEntries caller rest (inspected + 1) (recovered + count)

/-- `recover_prepared_reports`. -/
def recoverPreparedReports : Call Nat := do
  (probe caller "inspect the output root").mapError fun e =>
    s!"cannot inspect report output root '{outputRoot.display}': {e}"
  let listing ← (listRoot caller outputRoot).mapError fun e =>
    s!"cannot scan report output root '{outputRoot.display}': {e}"
  recoverEntries codec outputRoot caller listing 0 0

/-! ## Scavenging -/

/-- The children of a stale directory, each checked. -/
def collectChildren (caller : Caller) : List String → Nat → Call Unit
  | [], _ => pure ()
  | _ :: rest, index => do
    if index ≥ maxRecoveryReportEntries then
      throw "stale pending entry limit exceeded"
    else
      (probe caller "read the child's entry and type").mapError fun e =>
        s!"cannot read stale child: {e}"
      collectChildren caller rest (index + 1)

/-- The deletion of a stale directory whose lock is held. -/
def scavengeLocked : Call Unit := do
  let children ← (listDirectory caller outputRoot name).mapError fun e =>
    s!"cannot scan stale pending entry: {e}"
  collectChildren caller children 0
  (removeFiles caller outputRoot name children).mapError fun e =>
    s!"cannot remove stale artifact: {e}"
  (removeDirectory caller outputRoot name).mapError fun e =>
    s!"cannot remove stale pending directory: {e}"

/-- One staging directory: how many were removed. -/
def scavengeEntry (maxAge : Nat) : Call Nat := do
  if !(← (staleEntry caller outputRoot name maxAge).mapError fun e =>
      s!"cannot inspect pending entry: {e}") then pure 0
  else
    match ← tryLockReportDirectory caller outputRoot name with
    | none => pure 0
    | some (t, d) =>
      holding caller t d (scavengeLocked outputRoot caller name)
      pure 1

/-- Entries that are no staging directories are passed over. -/
def scavengeNamed (kind : EntryKind) (maxAge : Nat) : Call Nat :=
  if stagingReportId name = none ∨ kind ≠ .directory then pure 0
  else scavengeEntry outputRoot caller name maxAge

/-- The loop of `scavenge_stale_pending_inner`. -/
def scavengeEntries (caller : Caller) (maxAge : Nat) :
    List (String × EntryKind) → Nat → Nat → Call Nat
  | [], _, removed => pure removed
  | (name, kind) :: rest, index, removed => do
    if index ≥ maxRecoveryRootEntries then
      throw "pending scavenger root entry limit exceeded"
    else
      (probe caller "read the root entry").mapError fun e => s!"cannot read pending entry: {e}"
      let count ← scavengeNamed outputRoot caller name kind maxAge
      scavengeEntries caller maxAge rest (index + 1) (removed + count)

/-- `scavenge_stale_pending`. -/
def scavengeStalePending (maxAge : Nat) : Call Nat := do
  (probe caller "inspect the output root").mapError fun e =>
    s!"cannot inspect pending root '{outputRoot.display}': {e}"
  let listing ← (listRoot caller outputRoot).mapError fun e => s!"cannot scan pending root: {e}"
  let removed ← scavengeEntries outputRoot caller maxAge listing 0 0
  syncDirectory caller outputRoot
  pure removed

end

end CrashMonitor.Store
