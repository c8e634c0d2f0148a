import CrashMonitor.Store.Manifest
import CrashMonitor.Lib.Attempt

/-!
# The report store and its atomic calls

The report roots as the monitors see them: directories by name, their files,
the advisory locks on them, and the transactions living in the memory of the
monitor processes. Every call is atomic and may be interleaved with the calls
of other threads and processes. A call that reaches the operating system may
fail; a failed call has no effect unless its rule says so.

A directory is known by its inode, so that a lock and an open handle follow it
through renames. The roots themselves always exist.
-/

namespace CrashMonitor.Store

open Lib Interleave EventLoop Function

/-! ## Transactions in memory -/

/-- The owner of a lock: one open file description of one process. -/
structure Token where
  proc : Nat
  serial : Nat
  deriving DecidableEq

/-- `ReportContext`; the output root is the one all monitors share. -/
structure ReportContext where
  reportId : ReportId
  reportType : ReportType
  pid : Nat
  processName : String
  byteBudget : Nat

/-- `ArtifactTransactionState`. -/
inductive TransactionState where
  | opened
  | preparing
  | prepared
  | committed
  deriving DecidableEq, Repr

/-- `CommittedReport`; `report_dir` is the id below `root`. -/
structure CommittedReport where
  reportId : ReportId
  root : Path
  durabilityWarnings : List String

/-- `ArtifactTransaction`: the guarded core with the context beside it.
`directory` is what `_owner_lock` holds open. `borrowers` are the calls of
`commit` that run on it: the transaction is not dropped before they return. -/
structure TransactionCore where
  context : ReportContext
  directory : Nat
  artifacts : Registry
  durabilityWarnings : List String
  destinationRoot : Path
  state : TransactionState
  activeOperations : Nat
  committedReport : Option CommittedReport
  publicationLease : Option (Path × ReportId)
  borrowers : List Nat

/-! ## The shared state -/

structure World where
  /-- Directories of a root, by name. -/
  names : Path → String → Option Nat
  files : Nat → Content
  locks : Nat → Option Token
  cores : Token → Option TransactionCore
  /-- Who holds the lock file of a root's retention. -/
  retention : Path → Option Token
  /-- Publication leases of a process. -/
  leases : Nat → Path → ReportId → Bool
  nextInode : Nat
  nextSerial : Nat
  alive : Nat → Bool

namespace World

variable (s : World)

section

variable (t : Token) (root : Path) (name : String) (d : Nat) (owner : Option Token)

def setName (entry : Option Nat) : World :=
  { s with names := fun r n => if r = root ∧ n = name then entry else s.names r n }

def setFile (name : String) (data : Option Bytes) : World :=
  { s with files := update s.files d (update (s.files d) name data) }

def setLock : World := { s with locks := update s.locks d owner }

def setCore (core : Option TransactionCore) : World :=
  { s with cores := update s.cores t core }

/-- Change a live transaction. -/
def modifyCore (f : TransactionCore → TransactionCore) : World :=
  s.setCore t ((s.cores t).map f)

def setRetention : World :=
  { s with retention := update s.retention root owner }

def setLease (p : Nat) (root : Path) (id : ReportId) (held : Bool) : World :=
  { s with leases := update s.leases p fun r i =>
      if r = root ∧ i = id then held else s.leases p r i }

/-- A new empty directory under a free name. -/
def addDirectory : World := { s with
    names := fun r n => if r = root ∧ n = name then some s.nextInode else s.names r n
    files := update s.files s.nextInode fun _ => none
    nextInode := s.nextInode + 1 }

def moveDirectory (root' : Path) (name' : String) (d : Nat) : World :=
  (s.setName root name none).setName root' name' (some d)

end

/-- A serial number no token has yet. -/
def takeSerial : World := { s with nextSerial := s.nextSerial + 1 }

end World

/-! ## Calls -/

/-- On whose behalf a call is made. -/
inductive Role where
  | commit (t : Token)
  | recovery
  | scavenger
  | retention
  | other
  deriving DecidableEq

structure Caller where
  proc : Nat
  role : Role
  deriving DecidableEq

inductive EntryKind where
  | file
  | directory
  | symlink
  deriving DecidableEq, Repr

/-- What a call of `begin_commit` takes with it. -/
structure CommitSeal where
  context : ReportContext
  registered : Registry
  destinationRoot : Path
  borrow : Nat

inductive StoreOp where
  | uuid
  | timestamp
  | currentTime
  | deadlineElapsed
  | checkpoint
  /-- A system call that changes nothing modelled here: opening an ancestor,
  a permission check or repair, flushing, synchronising. -/
  | probe (what : String)
  | removeDirectory (root : Path) (name : String)
  | ensureDirectory (root : Path) (name : String)
  | openDirectory (root : Path) (name : String)
  | inspectEntry (root : Path) (name : String)
  | matchesHandle (root : Path) (name : String) (d : Nat)
  | verifyEntry (root : Path) (name : String) (d : Nat)
  | verifyPrivate (kind : EntryKind)
  | renameDirectory (root : Path) (name : String) (root' : Path) (name' : String)
  | listRoot (root : Path)
  | staleEntry (root : Path) (name : String) (maxAge : Nat)
  | modifiedTime (root : Path) (name : String)
  /-- Size and modification time of a plain file in the root. -/
  | inspectLegacy (root : Path) (name : String)
  /-- `fs::remove_file` of a plain file in the root. -/
  | removeLegacy (root : Path) (name : String)
  /-- A line added to `sessions.jsonl`, a plain file in the root. -/
  | appendSession (root : Path) (line : String)
  /-- The removal of `session.lock` in the root, if that session owns it. -/
  | removeSessionLock (root : Path) (owner : String)
  | createFile (d : Nat) (name : String)
  | writeFile (d : Nat) (name : String) (data : Bytes)
  | openFile (d : Nat) (name : String)
  | renameFile (d : Nat) (name : String) (d' : Nat) (name' : String)
  | matchesFile (d : Nat) (name : String)
  | verifyFile (d : Nat) (name : String)
  | unlinkFile (d : Nat) (name : String)
  | removeFile (root : Path) (directory name : String)
  | listDirectory (root : Path) (directory : String)
  | fileSize (root : Path) (directory name : String)
  | readFile (root : Path) (directory name : String)
  | lockDirectory (d : Nat)
  | unlockDirectory (t : Token) (d : Nat)
  | acquireRetention (root : Path)
  | releaseRetention (t : Token) (root : Path)
  | registerLease (root : Path) (id : ReportId)
  | isLeased (root : Path) (id : ReportId)
  | durabilityWarnings (t : Token)
  | beginCommit (t : Token)
  | setPrepared (t : Token)
  | setCommitted (t : Token) (report : CommittedReport)
  | setReport (t : Token) (report : CommittedReport)
  | returnBorrow (t : Token) (borrow : Nat)
  | committedReport (t : Token)

def StoreOp.Res : StoreOp → Type
  | .uuid => String
  | .timestamp => String
  | .currentTime => Nat
  | .deadlineElapsed => Bool
  | .openDirectory .. => Except String Nat
  | .inspectEntry .. => Except String (Option Nat)
  | .matchesHandle .. => Except String Bool
  | .verifyEntry .. => Except String Bool
  | .listRoot .. => Except String (List (String × EntryKind))
  | .staleEntry .. => Except String Bool
  | .modifiedTime .. => Nat
  | .inspectLegacy .. => Except String (Nat × Nat)
  | .matchesFile .. => Except String Bool
  | .verifyFile .. => Except String Bool
  | .listDirectory .. => Except String (List String)
  | .fileSize .. => Except String Nat
  | .readFile .. => Except String (Option Bytes)
  | .lockDirectory .. => Except String (Option Token)
  | .unlockDirectory .. => Unit
  | .acquireRetention .. => Except String Token
  | .releaseRetention .. => Unit
  | .registerLease .. => Unit
  | .isLeased .. => Bool
  | .durabilityWarnings .. => List String
  | .beginCommit .. => Except String CommitSeal
  | .setPrepared .. => Unit
  | .setCommitted .. => Unit
  | .setReport .. => Unit
  | .returnBorrow .. => Unit
  | .committedReport .. => Option CommittedReport
  | _ => Except String Unit

/-- Some answer to a call that a run does not make. -/
def StoreOp.unasked (o : StoreOp) : o.Res := by
  cases o <;> first
    | exact (Except.error "refused" : Except String _)
    | exact ""
    | exact (0 : Nat)
    | exact false
    | exact ()
    | exact (none : Option _)
    | exact ([] : List String)

def storeSig : Sig := ⟨Caller × StoreOp, fun o => o.2.Res⟩

/-! ## What a call does -/

/-- A call that changes nothing when it fails. -/
def Answers {α : Type} (s s' : World) (ok : α → Prop) : Except String α → Prop
  | .ok a => ok a
  | .error _ => s' = s

/-- `begin_commit` while the transaction is sealed or busy. -/
def TransactionState.refusal (busy : String) : TransactionState → String
  | .opened => busy
  | .preparing => "report transaction is preparing"
  | .prepared => "report transaction is already prepared"
  | .committed => "report transaction is already committed"

/-- The effect of a call of a live process. -/
def effect (caller : Caller) (s : World) : (o : StoreOp) → o.Res → World → Prop
  | .uuid, _, s' => s' = s
  | .timestamp, _, s' => s' = s
  | .currentTime, _, s' => s' = s
  | .deadlineElapsed, _, s' => s' = s
  | .checkpoint, _, s' => s' = s
  | .probe _, _, s' => s' = s
  | .removeDirectory root name, r, s' => Answers s s' (fun _ =>
    (∃ d, s.names root name = some d ∧ s.files d = fun _ => none) ∧ s' = s.setName root name none) r
  | .ensureDirectory root name, r, s' =>
    match r with
    | .ok _ =>
      if (s.names root name).isSome then s' = s else s' = s.addDirectory root name
    -- a directory that was just made can still fail its checks
    | .error _ => s' = s ∨ (s.names root name = none ∧ s' = s.addDirectory root name)
  | .openDirectory root name, r, s' => Answers s s' (fun d => s.names root name = some d ∧ s' = s) r
  | .inspectEntry root name, r, s' => Answers s s' (fun found =>
    found = s.names root name ∧ s' = s) r
  | .matchesHandle root name d, r, s' => Answers s s' (fun same =>
    (same = true ↔ s.names root name = some d) ∧ s' = s) r
  | .verifyEntry root name d, r, s' => Answers s s' (fun same =>
    (same = true ↔ s.names root name = some d) ∧ s' = s) r
  | .verifyPrivate _, r, s' => Answers s s' (fun _ => s' = s) r
  | .renameDirectory root name root' name', r, s' => Answers s s' (fun _ =>
    s.names root' name' = none ∧
      ∃ d, s.names root name = some d ∧ s' = s.moveDirectory root name root' name' d) r
  | .listRoot root, r, s' => Answers s s' (fun listing =>
    (listing.map Prod.fst).Nodup ∧
    (∀ name, (s.names root name).isSome ↔ (name, EntryKind.directory) ∈ listing) ∧ s' = s) r
  | .staleEntry .., r, s' => Answers s s' (fun _ => s' = s) r
  | .modifiedTime .., _, s' => s' = s
  -- plain files in a root are no part of the modelled state
  | .inspectLegacy .., _, s' => s' = s
  | .removeLegacy .., _, s' => s' = s
  | .appendSession .., _, s' => s' = s
  | .removeSessionLock .., _, s' => s' = s
  | .createFile d name, r, s' => Answers s s' (fun _ =>
    s.files d name = none ∧ isFlat name = true ∧ s' = s.setFile d name (some [])) r
  | .writeFile d name data, r, s' =>
    match r with
    | .ok _ => (s.files d name).isSome ∧ s' = s.setFile d name (some data)
    -- a failed write leaves what was written before the failure
    | .error _ => s' = s ∨ (s.files d name).isSome ∧
        ∃ part, part <+: data ∧ s' = s.setFile d name (some part)
  | .openFile d name, r, s' => Answers s s' (fun _ => (s.files d name).isSome ∧ s' = s) r
  | .renameFile d name d' name', r, s' => Answers s s' (fun _ =>
    s.files d' name' = none ∧ isFlat name' = true ∧
      ∃ data, s.files d name = some data ∧
        s' = (s.setFile d name none).setFile d' name' (some data)) r
  | .matchesFile d name, r, s' => Answers s s' (fun same =>
    (same = true ↔ (s.files d name).isSome) ∧ s' = s) r
  | .verifyFile d name, r, s' => Answers s s' (fun same =>
    (same = true ↔ (s.files d name).isSome) ∧ s' = s) r
  | .unlinkFile d name, r, s' => Answers s s' (fun _ =>
    (s.files d name).isSome ∧ s' = s.setFile d name none) r
  | .removeFile root directory name, r, s' => Answers s s' (fun _ =>
    ∃ d, s.names root directory = some d ∧ (s.files d name).isSome ∧ s' = s.setFile d name none) r
  | .listDirectory root directory, r, s' => Answers s s' (fun listing =>
    ∃ d, s.names root directory = some d ∧ listing.Nodup ∧
      (∀ name, (s.files d name).isSome ↔ name ∈ listing) ∧ s' = s) r
  | .fileSize root directory name, r, s' => Answers s s' (fun size =>
    ∃ d data, s.names root directory = some d ∧ s.files d name = some data ∧
      size = data.length ∧ s' = s) r
  | .readFile root directory name, r, s' => Answers s s' (fun data =>
    ∃ d, s.names root directory = some d ∧ data = s.files d name ∧ s' = s) r
  | .lockDirectory d, r, s' => Answers s s' (fun owner =>
    match owner with
    | some t => s.locks d = none ∧ t = ⟨caller.proc, s.nextSerial⟩ ∧
        s' = (s.setLock d (some t)).takeSerial
    | none => s.locks d ≠ none ∧ s' = s) r
  | .unlockDirectory t d, _, s' => s' = if s.locks d = some t then s.setLock d none else s
  | .acquireRetention root, r, s' => Answers s s' (fun t =>
    s.retention root = none ∧ t = ⟨caller.proc, s.nextSerial⟩ ∧
      s' = (s.setRetention root (some t)).takeSerial) r
  | .releaseRetention t root, _, s' =>
    s' = if s.retention root = some t then s.setRetention root none else s
  | .registerLease root id, _, s' => s' = s.setLease caller.proc root id true
  | .isLeased root id, r, s' => r = s.leases caller.proc root id ∧ s' = s
  | .durabilityWarnings t, r, s' => r = ((s.cores t).map (·.durabilityWarnings)).getD [] ∧ s' = s
  | .beginCommit t, r, s' =>
    match s.cores t with
    | some core =>
      if core.state = .opened ∧ core.activeOperations = 0 then
        r = .ok ⟨core.context, core.artifacts, core.destinationRoot,
          s.nextSerial⟩ ∧
        s' = (s.modifyCore t fun core => { core with
          state := .preparing
          borrowers := s.nextSerial :: core.borrowers }).takeSerial
      else r = .error (core.state.refusal
        "report transaction still has an active operation") ∧ s' = s
    | none => (∃ e, r = .error e) ∧ s' = s
  | .setPrepared t, _, s' => s' = s.modifyCore t fun core => { core with state := .prepared }
  | .setCommitted t report, _, s' =>
    s' = s.modifyCore t fun core => { core with
      state := .committed
      committedReport := some report
      publicationLease := some (report.root, report.reportId) }
  | .setReport t report, _, s' =>
    s' = s.modifyCore t fun core => { core with committedReport := some report }
  | .returnBorrow t borrow, _, s' =>
    s' = s.modifyCore t fun core => { core with
      borrowers := core.borrowers.filter (· ≠ borrow) }
  | .committedReport t, r, s' => r = (s.cores t).bind (·.committedReport) ∧ s' = s

/-- What is assumed about the answers of calls. -/
abbrev Conditions := Caller → (o : StoreOp) → World → o.Res → Prop

/-- The steps of the store under conditions on the answers. -/
def storeStep (conditions : Conditions) : Steps storeSig World :=
  fun o s r s' => s.alive o.1.proc = true ∧ conditions o.1 o.2 s r ∧ effect o.1 s o.2 r s'

end CrashMonitor.Store
