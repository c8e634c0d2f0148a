import CrashMonitor.Store.State

/-!
# Private files and directories

The helpers of `utils/paths.rs` over the calls of the store: exclusive
creation, and publication by one exclusive rename with the containment that
follows when the published entry cannot be verified.
-/

namespace CrashMonitor.Store

open Interleave Attempt ExceptT

abbrev Call := Attempt storeSig

def perform (caller : Caller) (o : StoreOp) : Prog storeSig o.Res := @Prog.op storeSig (caller, o)

section

variable (caller : Caller)

/-! ## Calls that can fail -/

def probe (what : String) : Call Unit := mk (perform caller (.probe what))

def checkpoint : Call Unit := mk (perform caller .checkpoint)

variable (root : Path) (name : String)

def removeDirectory : Call Unit := mk (perform caller (.removeDirectory root name))

def ensureDirectory : Call Unit := mk (perform caller (.ensureDirectory root name))

def openDirectory : Call Nat := mk (perform caller (.openDirectory root name))

def inspectEntry : Call (Option Nat) := mk (perform caller (.inspectEntry root name))

variable (d : Nat)

def matchesHandle : Call Bool := mk (perform caller (.matchesHandle root name d))

def verifyEntry : Call Bool := mk (perform caller (.verifyEntry root name d))

def verifyPrivate (kind : EntryKind) : Call Unit :=
  mk (perform caller (.verifyPrivate kind))

def renameDirectory (root' : Path) (name' : String) : Call Unit :=
  mk (perform caller (.renameDirectory root name root' name'))

def listRoot : Call (List (String × EntryKind)) := mk (perform caller (.listRoot root))

def staleEntry (maxAge : Nat) : Call Bool :=
  mk (perform caller (.staleEntry root name maxAge))

def inspectLegacy : Call (Nat × Nat) := mk (perform caller (.inspectLegacy root name))

def removeLegacy : Call Unit := mk (perform caller (.removeLegacy root name))

def appendSession (line : String) : Call Unit :=
  mk (perform caller (.appendSession root line))

def removeSessionLock (owner : String) : Call Unit :=
  mk (perform caller (.removeSessionLock root owner))

def createFile (name : String) : Call Unit := mk (perform caller (.createFile d name))

def writeFile (name : String) (data : Bytes) : Call Unit :=
  mk (perform caller (.writeFile d name data))

def openFile (name : String) : Call Unit := mk (perform caller (.openFile d name))

def renameFile (name : String) (d' : Nat) (name' : String) : Call Unit :=
  mk (perform caller (.renameFile d name d' name'))

def matchesFile (name : String) : Call Bool := mk (perform caller (.matchesFile d name))

def verifyFile (name : String) : Call Bool := mk (perform caller (.verifyFile d name))

def unlinkFile (name : String) : Call Unit := mk (perform caller (.unlinkFile d name))

def removeFile (directory name : String) : Call Unit :=
  mk (perform caller (.removeFile root directory name))

def listDirectory (directory : String) : Call (List String) :=
  mk (perform caller (.listDirectory root directory))

/-- `open_private_file` and the size in its metadata. -/
def fileSize (directory name : String) : Call Nat :=
  mk (perform caller (.fileSize root directory name))

def readFile (directory name : String) : Call (Option Bytes) :=
  mk (perform caller (.readFile root directory name))

def lockDirectory : Call (Option Token) := mk (perform caller (.lockDirectory d))

def acquireRetention : Call Token := mk (perform caller (.acquireRetention root))

variable (t : Token)

def beginCommit : Call CommitSeal := mk (perform caller (.beginCommit t))

/-! ## Calls that cannot fail -/

def uuid : Call String := always (perform caller .uuid)

def timestamp : Call String := always (perform caller .timestamp)

def currentTime : Call Nat := always (perform caller .currentTime)

def deadlineElapsed : Call Bool := always (perform caller .deadlineElapsed)

def modifiedTime : Call Nat := always (perform caller (.modifiedTime root name))

section

variable (directory name : String)

def unlockDirectory (d : Nat) : Call Unit := always (perform caller (.unlockDirectory t d))

def releaseRetention (root : Path) : Call Unit := always (perform caller (.releaseRetention t root))

def registerLease (id : ReportId) : Call Unit := always (perform caller (.registerLease root id))

def isLeased (id : ReportId) : Call Bool := always (perform caller (.isLeased root id))

def durabilityWarnings : Call (List String) := always (perform caller (.durabilityWarnings t))

def setPrepared : Call Unit := always (perform caller (.setPrepared t))

def setCommitted (report : CommittedReport) : Call Unit :=
  always (perform caller (.setCommitted t report))

def setReport (report : CommittedReport) : Call Unit :=
  always (perform caller (.setReport t report))

def returnBorrow (borrow : Nat) : Call Unit := always (perform caller (.returnBorrow t borrow))

def committedReport : Call (Option CommittedReport) := always (perform caller (.committedReport t))

/-! ## Creation -/

/-- `create_private_file`; the answer is the directory the file is in. -/
def createPrivateFile : Call Nat := do
  let d ← openDirectory caller root directory
  (createFile caller d name).mapError fun e =>
    s!"cannot create private file '{(root ++ [directory, name]).display}': {e}"
  match ← (probe caller "validate the new file").outcome with
  | .ok _ => pure d
  | .error e =>
    let _ ← (unlinkFile caller d name).outcome
    throw e

/-- `ensure_real_directory` of a report root. -/
def ensureRealDirectory : Call Unit := do
  (probe caller "inspect the root").mapError fun e =>
    s!"cannot inspect report destination '{root.display}': {e}"
  probe caller "ensure the root is private"
  probe caller "sync the root's parent"

/-- `sync_directory`. -/
def syncDirectory (path : Path) : Call Unit := (probe caller "sync a directory").mapError fun e =>
    s!"cannot sync directory '{path.display}': {e}"

/-! ## Publication -/

/-- The calls on a published entry, a file of a directory or a directory of a
root. -/
structure PublishEntry where
  kind : EntryKind
  parent : String
  moveAside : String → Call Unit
  moveBack : Call Unit
  remove : Call Unit
  hasHandle : Call Bool
  verify : Call Bool

variable (entry : PublishEntry)

/-- `quarantine_publish_entry`: moved aside, or else removed. -/
def quarantinePublishEntry : Call String := do
  let nonce ← uuid caller
  match ← (entry.moveAside (quarantineName nonce)).outcome with
  | .ok _ =>
    let _ ← (probe caller s!"sync the {entry.parent}").outcome
    pure s!"; entry was contained as '{quarantineName nonce}'"
  | .error quarantineError =>
    match ← entry.remove.outcome with
    | .ok _ =>
      let _ ← (probe caller s!"sync the {entry.parent}").outcome
      pure (s!"; quarantine rename failed ({quarantineError}); " ++ "entry was unlinked")
    | .error removeError =>
      pure (s!"; quarantine rename failed ({quarantineError}) and " ++
        s!"containment unlink failed ({removeError})")

/-- `restore_validated_or_quarantine_publish_entry`. -/
def restoreValidatedOrQuarantinePublishEntry : Call String := do
  match ← entry.moveBack.outcome with
  | .ok _ =>
    let _ ← (probe caller s!"sync the {entry.parent}").outcome
    let _ ← (probe caller s!"sync the source {entry.parent}").outcome
    pure ""
  | .error restoreError =>
    let containment ← quarantinePublishEntry caller entry
    pure s!"; source restoration failed ({restoreError}){containment}"

/-- What follows a failed permission check of the published entry. -/
def containPublishEntry : Call String := do
  match ← (probe caller "repair the entry's mode").outcome with
  | .error repairError =>
    let containment ← quarantinePublishEntry caller entry
    pure s!"; private permission repair failed ({repairError}){containment}"
  | .ok _ =>
    match ← entry.hasHandle.outcome with
    | .ok true => restoreValidatedOrQuarantinePublishEntry caller entry
    | _ => quarantinePublishEntry caller entry

/-- The checks of the published entry, and its containment. -/
def settlePublishEntry (source destination : Path) : Call Unit := do
  match ← entry.verify.outcome with
  | .ok true =>
    match ← (verifyPrivate caller entry.kind).outcome with
    | .ok _ => pure ()
    | .error e =>
      let containment ← containPublishEntry caller entry
      throw ("private publish source permissions changed during publication: " ++
        s!"{e}{containment}")
  | .ok false =>
    let containment ← quarantinePublishEntry caller entry
    throw ("private publish source changed after validation: " ++
      s!"'{source.display}'{containment}")
  | .error e =>
    let containment ← quarantinePublishEntry caller entry
    throw ("cannot verify private publish destination " ++
      s!"'{destination.display}': {e}{containment}")

/-- A file that was renamed from one directory to another. -/
def fileEntry (d : Nat) (name : String) (d' : Nat) (name' : String) : PublishEntry where
  kind := .file
  parent := "directory"
  moveAside := renameFile caller d' name' d'
  moveBack := renameFile caller d' name' d name
  remove := unlinkFile caller d' name'
  hasHandle := matchesFile caller d' name'
  verify := verifyFile caller d' name'

/-- A directory that was renamed from one root to another. -/
def directoryEntry (d : Nat) (root : Path) (name : String) (root' : Path) (name' : String) :
    PublishEntry where
  kind := .directory
  parent := "root"
  moveAside := renameDirectory caller root' name' root'
  moveBack := renameDirectory caller root' name' root name
  remove := removeDirectory caller root' name'
  hasHandle := matchesHandle caller root' name' d
  verify := verifyEntry caller root' name' d

/-- `publish_private_path` of a file within one directory. -/
def publishPrivateFile (source destination : String) : Call Unit := do
  let sourceParent ← openDirectory caller root directory
  let destinationParent ← openDirectory caller root directory
  probe caller "validate the source directory"
  probe caller "validate the destination directory"
  openFile caller sourceParent source
  probe caller "validate the source"
  if !(← matchesFile caller sourceParent source) then
    throw ("private publish source changed during validation: " ++
      s!"'{(root ++ [directory, source]).display}'")
  else
    (renameFile caller sourceParent source destinationParent destination).mapError
      fun e => "cannot exclusively publish private path " ++
        s!"'{(root ++ [directory, source]).display}' as " ++
        s!"'{(root ++ [directory, destination]).display}': {e}"
    settlePublishEntry caller (fileEntry caller sourceParent source destinationParent destination)
      (root ++ [directory, source]) (root ++ [directory, destination])

/-- `publish_private_path` of a directory. -/
def publishPrivateDirectory (sourceRoot : Path) (source : String) (root : Path) (name : String) :
    Call Unit := do
  probe caller "open and validate the source root"
  probe caller "open and validate the destination root"
  let d ← openDirectory caller sourceRoot source
  probe caller "validate the source"
  if !(← matchesHandle caller sourceRoot source d) then
    throw ("private publish source changed during validation: " ++
      s!"'{(sourceRoot ++ [source]).display}'")
  else
    (renameDirectory caller sourceRoot source root name).mapError fun e =>
      "cannot exclusively publish private path " ++
        s!"'{(sourceRoot ++ [source]).display}' as '{(root ++ [name]).display}': {e}"
    settlePublishEntry caller (directoryEntry caller d sourceRoot source root name)
      (sourceRoot ++ [source]) (root ++ [name])

end

/-! ## Locks -/

/-- `try_lock_report_directory`: the lock with the directory it is on. -/
def tryLockReportDirectory : Call (Option (Token × Nat)) := do
  let d ← openDirectory caller root name
  (probe caller "inspect the directory").mapError fun e =>
    s!"cannot inspect report directory '{(root ++ [name]).display}': {e}"
  match ← (lockDirectory caller d).mapError fun e =>
      s!"cannot lock report directory '{(root ++ [name]).display}': {e}" with
  | some t => pure (some (t, d))
  | none => pure none

/-- A part that runs while a directory lock is held. -/
def holding {α : Type} (d : Nat) (body : Call α) : Call α := do
  let result ← body.outcome
  unlockDirectory caller t d
  done result

end

end CrashMonitor.Store
