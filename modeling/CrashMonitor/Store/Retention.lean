import CrashMonitor.Store.Recovery
import CrashMonitor.Lib.MachineInt
import Mathlib.Data.List.Sort

/-!
# Retention

`RetentionManager` of `postprocessors/retention.rs`: under the lock file of a
report root it deletes leftover tombstones, takes the inventory of the
committed reports, and removes the oldest ones past its limits. A report is
hidden under a tombstone name by one rename before any file of it goes.
-/

namespace CrashMonitor.Store

open Lib Interleave MachineInt

def maxRetentionScanEntries : Nat := 10000
def maxReportEntries : Nat := 10000

/-- `ReportEntry`: a file of the root, or a report directory with its inode. -/
inductive EntryTarget where
  | legacyFile (name : String)
  | committedDirectory (id : ReportId) (inode : Nat)

structure ReportEntry where
  target : EntryTarget
  size : Nat
  modified : Nat

section

variable (codec : Codec)

/-! ## Inventory -/

/-- The loop of `manifest_artifact_sizes`. -/
def manifestSizesFrom : List ManifestArtifact → SortedMap String Nat →
    Except String (SortedMap String Nat)
  | [], expected => .ok expected
  | artifact :: rest, expected =>
    if !validateRetainedName artifact.path then
      .error s!"invalid manifest artifact name: {artifact.path}"
    else if artifact.path ∈ expected.keys then
      .error "manifest contains a duplicate artifact"
    else manifestSizesFrom rest (expected.insert artifact.path artifact.size)

variable (caller : Caller) (root : Path)

/-- `read_manifest_no_follow`. -/
def readManifestNoFollow (directory : String) : Call Bytes := do
  match ← (readFile caller root directory manifestFileName).mapError fun e =>
      s!"cannot safely open manifest: {e}" with
  | none => throw "cannot safely open manifest: not found"
  | some bytes =>
    if bytes.length > maxManifestBytes then
      throw s!"manifest exceeds size limit ({bytes.length} > {maxManifestBytes})"
    else pure bytes

/-- `manifest_artifact_sizes`. -/
def manifestArtifactSizes (id : ReportId) : Call (SortedMap String Nat) := do
  let bytes ← readManifestNoFollow caller root id.text
  match codec.decode bytes with
  | none => throw "invalid report manifest"
  | some manifest =>
    if manifest.schemaVersion ≠ manifestSchemaVersion then
      throw s!"unsupported manifest schema version: {manifest.schemaVersion}"
    else if manifest.reportId ≠ id then
      throw "manifest report id does not match its directory"
    else Attempt.done (manifestSizesFrom manifest.artifacts .empty)

/-- The recorded size of a name still expected. -/
def expectedSize (expected : SortedMap String Nat) (name : String) : Option Nat :=
  (expected.entries.find? fun e => e.1 = name).map Prod.snd

/-- The loop of `inspect_committed_report`: the total size and what was not
seen. -/
def inventoryEntries (caller : Caller) (root : Path) (directory : String) :
    List String → Nat → SortedMap String Nat → Bool → Nat → Call (SortedMap String Nat × Bool × Nat)
  | [], _, expected, sawManifest, total => pure (expected, sawManifest, total)
  | name :: rest, inspected, expected, sawManifest, total => do
    checkpoint caller
    if inspected ≥ maxReportEntries then
      throw s!"report contains more than {maxReportEntries} entries"
    else
      (probe caller "read the report entry").mapError fun e => s!"cannot read report entry: {e}"
      let size ← (fileSize caller root directory name).mapError fun e =>
        s!"cannot validate report entry {name}: {e}"
      if name = manifestFileName then
        if sawManifest then throw "report contains duplicate manifest entries"
        else
          inventoryEntries caller root directory rest (inspected + 1) expected true
            (saturatingAdd total size)
      else
        match expectedSize expected name with
        | none => throw s!"unmanifested report artifact: {name}"
        | some recorded =>
          if size ≠ recorded then
            throw (s!"manifest size mismatch for {name}: expected {recorded}, " ++ s!"found {size}")
          else
            inventoryEntries caller root directory rest (inspected + 1)
              (expected.erase name) sawManifest (saturatingAdd total size)

/-- The end of `inspect_committed_report`: the directory is still the one
opened first. -/
def confirmEntry (id : ReportId) (d total : Nat) : Call ReportEntry := do
  match ← (inspectEntry caller root id.text).mapError fun e =>
      s!"cannot re-inspect report directory: {e}" with
  | none => throw "cannot re-inspect report directory: not found"
  | some d' =>
    if d' ≠ d then throw "report directory changed while it was inspected"
    else
      let modified ← modifiedTime caller root id.text
      pure ⟨.committedDirectory id d, total, modified⟩

/-- `inspect_committed_report`. -/
def inspectCommittedReport (id : ReportId) : Call ReportEntry := do
  checkpoint caller
  match ← (inspectEntry caller root id.text).mapError fun e =>
      s!"cannot inspect report directory: {e}" with
  | none => throw "cannot inspect report directory: not found"
  | some _ =>
    (ensureDirectory caller root id.text).mapError fun e => s!"report directory is not private: {e}"
    let d ← openDirectory caller root id.text
    (probe caller "inspect the opened directory").mapError fun e =>
      s!"cannot inspect opened report directory: {e}"
    let sizes ← manifestArtifactSizes codec caller root id
    let listing ← (listDirectory caller root id.text).mapError fun e =>
      s!"cannot enumerate report directory: {e}"
    let (missing, sawManifest, total) ← inventoryEntries caller root id.text listing 0 sizes false 0
    if !sawManifest then throw "report has no manifest"
    else if missing.keys ≠ [] then
      throw s!"manifest artifacts are missing from report: {missing.keys}"
    else confirmEntry caller root id d total

/-! ## Deletion -/

/-- The artifact loop of `remove_flat_tombstone`. -/
def removeArtifacts (caller : Caller) (root : Path) (tombstone : String) : List String → Call Unit
  | [] => pure ()
  | name :: rest => do
    checkpoint caller
    let _ ← (fileSize caller root tombstone name).mapError fun e =>
      s!"cannot inspect tombstoned artifact {name}: {e}"
    (removeFile caller root tombstone name).mapError fun e =>
      s!"cannot remove tombstoned artifact {name}: {e}"
    removeArtifacts caller root tombstone rest

/-- `remove_flat_tombstone`. -/
def removeFlatTombstone (tombstone : String) (names : List String) : Call Unit := do
  removeArtifacts caller root tombstone names
  checkpoint caller
  let _ ← (fileSize caller root tombstone manifestFileName).mapError fun e =>
    s!"cannot inspect tombstoned manifest: {e}"
  (removeFile caller root tombstone manifestFileName).mapError fun e =>
    s!"cannot remove tombstoned manifest: {e}"
  checkpoint caller
  let remaining ← (listDirectory caller root tombstone).mapError fun e =>
    s!"cannot verify tombstone is empty: {e}"
  if remaining ≠ [] then throw "tombstone contains an unexpected entry"
  else
    (removeDirectory caller root tombstone).mapError fun e =>
      s!"cannot remove empty report tombstone: {e}"

/-- The deletion of a report once it is hidden; failures leave a tombstone. -/
def deleteHidden (tombstone : String) (names : List String) : Call Unit := do
  let _ ← (syncDirectory caller root).outcome
  match ← (removeFlatTombstone caller root tombstone names).outcome with
  | .ok _ =>
    let _ ← (syncDirectory caller root).outcome
    pure ()
  | .error _ => pure ()

/-- The part of `remove_entry` that runs under the report's lock. -/
def removeLocked (id : ReportId) (inode : Nat) : Call Unit := do
  let current ← inspectCommittedReport codec caller root id
  match current.target with
  | .legacyFile _ => throw "committed report changed before deletion"
  | .committedDirectory _ d =>
    if d ≠ inode then throw "committed report changed before deletion"
    else
      let sizes ← manifestArtifactSizes codec caller root id
      let nonce ← uuid caller
      let tombstone := tombstoneName id.text nonce
      (publishPrivateDirectory caller root id.text root tombstone).mapError fun e =>
        s!"cannot atomically hide committed report before deletion: {e}"
      deleteHidden caller root tombstone sizes.keys

/-- `remove_entry` of a report directory; the report of the running finalizer
is already locked by it. -/
def removeCommitted (id : ReportId) (inode : Nat) (current : Option (Path × ReportId)) :
    Call Unit := do
  (ensureDirectory caller root id.text).mapError fun e =>
    s!"committed report directory is not private: {e}"
  if current = some (root, id) then removeLocked codec caller root id inode
  else
    match ← tryLockReportDirectory caller root id.text with
    | none => throw "committed report is owned by another live monitor"
    | some (t, d) => holding caller t d (removeLocked codec caller root id inode)

variable (entry : ReportEntry) (current : Option (Path × ReportId))

/-- The body of `remove_entry`. -/
def removeEntryBody : Call Unit := do
  checkpoint caller
  match entry.target with
  | .legacyFile name =>
    (probe caller "re-inspect the legacy report").mapError fun e =>
      s!"cannot re-inspect retention entry: {e}"
    (removeLegacy caller root name).mapError fun e => s!"cannot remove legacy report: {e}"
    syncDirectory caller root
  | .committedDirectory id inode =>
    match ← (inspectEntry caller root id.text).mapError fun e =>
        s!"cannot re-inspect retention entry: {e}" with
    | none => throw "cannot re-inspect retention entry: not found"
    | some d =>
      if d ≠ inode then throw "entry changed after retention scan"
      else removeCommitted codec caller root id inode current

/-- `remove_entry`. -/
def removeEntry : Call Bool := do
  match ← (removeEntryBody codec caller root entry current).outcome with
  | .ok _ => pure true
  | .error _ => pure false

/-- `entry_is_leased`. -/
def entryIsLeased : Call Bool :=
  match entry.target with
  | .legacyFile _ => pure false
  | .committedDirectory id _ =>
    if current = some (root, id) then pure true else isLeased caller root id

/-! ## Tombstones left behind -/

/-- The file loop of `remove_stale_tombstone`. -/
def removeTombstoneFiles (caller : Caller) (root : Path) (tombstone : String) :
    List String → Nat → Call Unit
  | [], _ => pure ()
  | name :: rest, inspected => do
    checkpoint caller
    if inspected ≥ maxReportEntries then
      throw s!"retention tombstone contains more than {maxReportEntries} entries"
    else
      (probe caller "read the tombstone entry").mapError fun e =>
        s!"cannot read tombstone entry: {e}"
      (removeFile caller root tombstone name).mapError fun e =>
        s!"cannot remove stale tombstone entry: {e}"
      removeTombstoneFiles caller root tombstone rest (inspected + 1)

/-- `remove_stale_tombstone`. -/
def removeStaleTombstone (tombstone : String) : Call Unit := do
  let listing ← (listDirectory caller root tombstone).mapError fun e =>
    s!"cannot enumerate stale retention tombstone: {e}"
  removeTombstoneFiles caller root tombstone listing 0
  checkpoint caller
  (removeDirectory caller root tombstone).mapError fun e =>
    s!"cannot remove stale retention tombstone: {e}"

end

/-! ## The run over its calls -/

/-- The calls of a retention run on its root. -/
structure RetentionCalls (m : Type → Type) where
  checkpoint : m Unit
  /-- `fs::read_dir` of the root, in `cleanup_retention_tombstones`. -/
  scanTombstones : m (List (String × EntryKind))
  readTombstone : m Unit
  inspectTombstone : String → m Unit
  removeStaleTombstone : String → m Unit
  syncRoot : m Unit
  validateRoot : m Unit
  /-- `fs::read_dir` of the root, in `collect_entries_bounded`. -/
  scanEntries : m (List (String × EntryKind))
  readEntry : m Unit
  inspectKind : String → m Unit
  inspectLegacy : String → m (Nat × Nat)
  inspectReport : ReportId → m ReportEntry
  now : m Nat
  entryIsLeased : ReportEntry → m Bool
  removeEntry : ReportEntry → m Bool

structure RetentionLimits where
  maxCount : Nat
  maxTotalBytes : Nat
  maxAge : Nat

section Run

variable {m : Type → Type} [Monad m] [MonadExcept String m] (calls : RetentionCalls m)

/-- One entry in `cleanup_retention_tombstones`, with whether it was removed;
what is no tombstone is passed over. -/
def cleanupTombstone (name : String) (kind : EntryKind) : m Bool := do
  if !isRetentionTombstoneName name then pure false
  else
    calls.inspectTombstone name
    if kind ≠ .directory then pure false
    else
      calls.removeStaleTombstone name
      pure true

/-- The loop of `cleanup_retention_tombstones`. -/
def cleanupTombstones : List (String × EntryKind) → Nat → Bool → m Bool
  | [], _, removedAny => pure removedAny
  | (name, kind) :: rest, inspected, removedAny => do
    calls.checkpoint
    if inspected ≥ maxRetentionScanEntries then
      throw ("retention tombstone scan exceeds the bounded limit of " ++
        s!"{maxRetentionScanEntries} entries")
    else
      calls.readTombstone
      let removed ← cleanupTombstone calls name kind
      cleanupTombstones rest (inspected + 1) (removedAny || removed)

/-- `cleanup_retention_tombstones`. -/
def cleanupRetentionTombstones : m Unit := do
  let listing ← calls.scanTombstones
  if ← cleanupTombstones calls listing 0 false then calls.syncRoot else pure ()

/-- One entry of the root in `collect_entries_bounded`. -/
def collectEntry (name : String) (kind : EntryKind) : m (List ReportEntry) := do
  if name.toList.head? = some '.' then pure []
  else
    calls.inspectKind name
    match kind, ReportId.parse name with
    | .file, _ =>
      let (size, modified) ← calls.inspectLegacy name
      pure [⟨.legacyFile name, size, modified⟩]
    | .directory, some id =>
      let entry ← calls.inspectReport id
      pure [entry]
    | .directory, none => pure []
    | .symlink, _ => throw s!"retention root contains a symlink entry: {name}"

/-- The loop of `collect_entries_bounded`. -/
def collectEntriesFrom : List (String × EntryKind) → Nat → m (List ReportEntry)
  | [], _ => pure []
  | (name, kind) :: rest, inspected => do
    calls.checkpoint
    if inspected ≥ maxRetentionScanEntries then
      throw ("retention scan exceeds the bounded limit of " ++
        s!"{maxRetentionScanEntries} entries")
    else
      calls.readEntry
      let entry ← collectEntry calls name kind
      let entries ← collectEntriesFrom rest (inspected + 1)
      pure (entry ++ entries)

/-- `collect_entries`. -/
def collectEntries : m (List ReportEntry) := do
  calls.checkpoint
  calls.validateRoot
  let listing ← calls.scanEntries
  collectEntriesFrom calls listing 0

/-- Remove the oldest entry unless it is leased. -/
def removeOldest (entry : ReportEntry) : m Bool := do
  if ← calls.entryIsLeased entry then pure false
  else calls.removeEntry entry

/-- `sort_by_key(|e| e.modified)`, a stable sort. -/
def sortByModified (entries : List ReportEntry) : List ReportEntry :=
  entries.insertionSort fun a b => a.modified ≤ b.modified

/-- Pass 1: reports older than the age limit; it stops at the first one that
stays. -/
def agePass (now maxAge : Nat) : List ReportEntry → m (List ReportEntry)
  | [] => pure []
  | entry :: rest => do
    calls.checkpoint
    if now - entry.modified ≤ maxAge then pure (entry :: rest)
    else if ← removeOldest calls entry then agePass now maxAge rest
    else pure (entry :: rest)

/-- Pass 2: more reports than the count limit. -/
def countPass (maxCount : Nat) : List ReportEntry → m (List ReportEntry)
  | [] => pure []
  | entry :: rest => do
    if (entry :: rest).length ≤ maxCount then pure (entry :: rest)
    else
      calls.checkpoint
      if ← removeOldest calls entry then countPass maxCount rest
      else pure (entry :: rest)

/-- The size total of pass 3. -/
def totalSize : List ReportEntry → Nat → m Nat
  | [], total => pure total
  | entry :: rest, total => do
    calls.checkpoint
    totalSize rest (saturatingAdd total entry.size)

/-- Pass 3: more bytes than the size limit. -/
def sizePass (maxTotalBytes : Nat) : List ReportEntry → Nat → m (List ReportEntry × Nat)
  | [], total => pure ([], total)
  | entry :: rest, total => do
    if total ≤ maxTotalBytes then pure (entry :: rest, total)
    else
      calls.checkpoint
      if ← removeOldest calls entry then
        sizePass maxTotalBytes rest (total - entry.size)
      else pure (entry :: rest, total)

/-- The passes over an inventory, and the check of what remains. -/
def enforceLimits (limits : RetentionLimits) (entries : List ReportEntry) : m Unit := do
  if entries.isEmpty then pure ()
  else
    let now ← calls.now
    let entries ← agePass calls now limits.maxAge (sortByModified entries)
    let entries ← countPass calls limits.maxCount entries
    let total ← totalSize calls entries 0
    let (entries, total) ← sizePass calls limits.maxTotalBytes entries total
    calls.checkpoint
    let overAge := entries.head?.any fun entry => now - entry.modified > limits.maxAge
    if entries.length > limits.maxCount ∨ total > limits.maxTotalBytes ∨ overAge = true then
      throw ("retention quota is deferred by a live lease or failed oldest deletion " ++
        s!"(count {entries.length}/{limits.maxCount}, bytes {total}/{limits.maxTotalBytes}, " ++
        s!"oldest_over_age={overAge})")
    else pure ()

/-- `RetentionManager::process` under the retention lock. -/
def retainLocked (limits : RetentionLimits) : m Unit := do
  cleanupRetentionTombstones calls
  let entries ← collectEntries calls
  enforceLimits calls limits entries

end Run

/-! ## The run on the store -/

section

variable (codec : Codec) (caller : Caller) (root : Path) (current : Option (Path × ReportId))

/-- The calls of a retention run on the store. -/
def storeCalls : RetentionCalls Call where
  checkpoint := checkpoint caller
  scanTombstones := (listRoot caller root).mapError fun e =>
    s!"cannot scan retention tombstones: {e}"
  readTombstone := (probe caller "read the root entry").mapError fun e =>
    s!"cannot read retention tombstone: {e}"
  inspectTombstone name := (probe caller "read the entry's type").mapError fun e =>
    s!"cannot inspect retention tombstone {name}: {e}"
  removeStaleTombstone name := removeStaleTombstone caller root name
  syncRoot := syncDirectory caller root
  validateRoot := probe caller "validate the retention root"
  scanEntries := (listRoot caller root).mapError fun e => s!"cannot read '{root.display}': {e}"
  readEntry := (probe caller "read the root entry").mapError fun e =>
    s!"cannot read retention entry: {e}"
  inspectKind name := (probe caller "read the entry's type").mapError fun e =>
    s!"cannot inspect retention entry {name}: {e}"
  inspectLegacy name := (inspectLegacy caller root name).mapError fun e =>
    s!"cannot validate legacy retention entry {name}: {e}"
  inspectReport id := (inspectCommittedReport codec caller root id).mapError fun e =>
    "cannot safely inventory committed report " ++ s!"'{(root ++ [id.text]).display}': {e}"
  now := currentTime caller
  entryIsLeased entry := entryIsLeased caller root entry current
  removeEntry entry := removeEntry codec caller root entry current

/-- The scavenging that comes first when a transaction is there. -/
def scavengeForRetention (outputRoot : Path) (caller : Caller) (t : Option Token)
    (maxAge : Nat) : Call Nat :=
  match t with
  | none => pure 0
  | some _ => scavengeStalePending outputRoot ⟨caller.proc, .scavenger⟩ maxAge

/-- The report of the finalizer that runs the retention. -/
def currentReport : Option Token → Call (Option (Path × ReportId))
  | none => pure none
  | some t => do
    let report ← committedReport caller t
    pure (report.map fun report => (report.root, report.reportId))

/-- `RetentionManager::process` on a known root. -/
def retainIn (outputRoot : Path) (caller : Caller) (t : Option Token) (root : Path)
    (limits : RetentionLimits) : Call Unit := do
  let _ ← scavengeForRetention outputRoot caller t limits.maxAge
  let current ← currentReport caller t
  probe caller "validate the retention root"
  checkpoint caller
  probe caller "open the retention lock file"
  let lock ← acquireRetention caller root
  let result ← (retainLocked (storeCalls codec caller root current) limits).outcome
  releaseRetention caller lock root
  Attempt.done result

/-- `target_dir`: beside the report of the running finalizer, else where
reports are sent to. -/
def targetDir (t : Option Token) (sent : Except String Path) : Call Path := do
  match ← currentReport caller t with
  | some (root, _) => pure root
  | none => (Attempt.done sent).mapError fun e => s!"sent_dir: {e}"

/-- `RetentionManager::process`. -/
def retentionManager (outputRoot : Path) (caller : Caller) (t : Option Token)
    (sent : Except String Path) (limits : RetentionLimits) : Call Unit := do
  checkpoint caller
  let root ← targetDir caller t sent
  retainIn codec outputRoot caller t root limits

end

end CrashMonitor.Store
