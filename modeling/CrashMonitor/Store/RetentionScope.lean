import CrashMonitor.Store.Codec
import CrashMonitor.Store.PublishScope
import CrashMonitor.Store.SessionRecorder

/-!
# What a retention run touches

The calls a retention run makes on a root, whatever the root answers. As long
as no plain file shows up in the inventory and no staging directory is stale,
it counts and deletes committed report directories only, each taken away as a
whole by one rename to a tombstone. A plain file in the root, such as the
session log when reports are not moved to another root, is counted as a report
and deleted in its turn.
-/

namespace CrashMonitor.Store

open Lib Interleave EventLoop List

/-! ## The calls in question -/

def isTombstone (name : String) : Bool := ".retention-".toList.isPrefixOf name.toList

/-- A call that counts, ages and deletes nothing but committed reports: it does
not look at plain files of the root, measures and empties no other directory
than a report or a tombstone, and takes a report away as a whole. -/
def StoreOp.onReportsOnly : StoreOp → Bool
  | .inspectLegacy .. | .removeLegacy .. => false
  | .appendSession .. | .removeSessionLock .. => false
  | .createFile .. | .writeFile .. | .renameFile .. | .unlinkFile .. => false
  | .fileSize _ directory _ => isReportId directory || isTombstone directory
  | .modifiedTime _ name => isReportId name
  | .removeFile _ directory _ => isTombstone directory
  | .removeDirectory _ name => isTombstone name
  | .renameDirectory _ name _ name' =>
    isReportId name && isTombstone name' || isTombstone name
  | _ => true

/-- On behalf of a retention run, or of the scavenging that is part of it. -/
def Role.retains : Role → Bool
  | .retention | .scavenger => true
  | _ => false

def isVisible (name : String) : Bool := name.toList.head? ≠ some '.'

/-- A listing without a visible plain file. -/
def showsNoFile : Except String (List (String × EntryKind)) → Bool
  | .ok listing => listing.all fun entry => entry.2 ≠ .file || !isVisible entry.1
  | .error _ => true

/-- The answers under which retention keeps to reports: its listings show no
visible plain file, and no staging directory is stale. -/
def reportsAlone (o : Caller × StoreOp) (r : o.2.Res) : Bool :=
  match o.2, r with
  | .listRoot _, listing => o.1.role ≠ .retention || showsNoFile listing
  | .staleEntry .., stale => !stale.toOption.getD false
  | _, _ => true

/-- The calls of retention are all on reports. -/
def KeepsToReports (o : Caller × StoreOp) : Prop :=
  o.1.role.retains = true → o.2.onReportsOnly = true

/-- They are throughout a run. -/
def RetainsReportsOnly (t : List (Event storeSig)) : Prop := ∀ e ∈ t, KeepsToReports e.op

/-- A program that makes only such calls, with what is known of its successes. -/
abbrev Spares {α : Type} (x : Call α) (Q : α → Prop) : Prop :=
  Confines (S := storeSig) (fun o r => reportsAlone o r = true) KeepsToReports x Q

/-- The same when nothing is to be known of the result. -/
abbrev Quiet {α : Type} (x : Call α) : Prop := Spares x fun _ => True

namespace Quiet

variable {α β : Type} {x : Call α}

theorem bind {f} {R : β → Prop} (hx : Quiet x)
    (hf : ∀ a, Spares (f a) R) : Spares (x >>= f) R := .bind hx fun a _ => hf a

theorem seq {y} {R : β → Prop} (hx : Quiet x) (hy : Spares y R) :
    Spares (x >>= fun _ => y) R := hx.bind fun _ => hy

theorem mapError {g} (hx : Quiet x) : Quiet (x.mapError g) := Confines.mapError hx

theorem pure (a : α) : Quiet (.pure a : Call α) := Confines.pure trivial

theorem done (r : Except String α) : Quiet (.done r : Call α) := Confines.done fun _ _ => trivial

theorem outcome (hx : Quiet x) : Quiet x.outcome := (Confines.outcome hx).mono fun _ _ => trivial

/-- A program of a single allowed call. -/
theorem call {o} {f : storeSig.Res o → Except String α}
    (h : o.2.onReportsOnly = true) : Quiet (.mk (.call o fun r => .ret (f r)) : Call α) :=
  ⟨fun _ => h, fun _ _ _ _ => trivial⟩

/-- A call of somebody else. -/
theorem foreign {o} {f : storeSig.Res o → Except String α}
    (h : o.1.role.retains = false) : Quiet (.mk (.call o fun r => .ret (f r)) : Call α) :=
  ⟨fun hrole => absurd hrole (by simp [h]), fun _ _ _ _ => trivial⟩

end Quiet

section

variable {caller : Caller} {root : Path}

/-! ## Shared helpers -/

theorem quiet_syncDirectory {path} : Quiet (syncDirectory caller path) := .mapError (.call rfl)

theorem quiet_currentReport {t} : Quiet (currentReport caller t) := by
  cases t with
  | none => exact .pure _
  | some t =>
    apply Quiet.bind (.call rfl)
    intro report
    exact Quiet.pure _

/-! ## Scavenging -/

/-- Nothing is stale, so nothing is scavenged. -/
theorem quiet_scavengeEntry {name maxAge} : Quiet (scavengeEntry root caller name maxAge) := by
  have hstale : Spares (staleEntry caller root name maxAge) fun stale => stale = false :=
    ⟨fun _ => rfl, fun r hr a ha => by
      cases a with
      | false => rfl
      | true =>
        have hno : (!r.toOption.getD false) = true := hr
        rw [ha] at hno
        exact absurd hno (by decide)⟩
  apply Confines.bind (.mapError hstale)
  rintro stale rfl
  exact Quiet.pure _

theorem quiet_scavengeNamed {name kind maxAge} :
    Quiet (scavengeNamed root caller name kind maxAge) := by
  unfold scavengeNamed
  split
  · exact .pure _
  · exact quiet_scavengeEntry

theorem quiet_scavengeEntries {maxAge} {listing : List (String × EntryKind)} :
    ∀ index removed, Quiet (scavengeEntries root caller maxAge listing index removed) := by
  induction listing with
  | nil => exact fun _ removed => .pure removed
  | cons entry rest ih =>
    intro index removed
    unfold scavengeEntries
    split
    · exact .throw
    apply Quiet.seq (.mapError (.call rfl))
    apply Quiet.bind quiet_scavengeNamed
    intro count
    exact ih _ _

theorem quiet_scavengeStalePending {maxAge} : Quiet (scavengeStalePending root caller maxAge) := by
  apply Quiet.seq (.mapError (.call rfl))
  apply Quiet.bind (.mapError (.call rfl))
  intro listing
  apply Quiet.bind (quiet_scavengeEntries _ _)
  intro removed
  apply Quiet.seq quiet_syncDirectory
  exact Quiet.pure removed

theorem quiet_scavengeForRetention {outputRoot t maxAge} :
    Quiet (scavengeForRetention outputRoot caller t maxAge) := by
  cases t with
  | none => exact .pure _
  | some t => exact quiet_scavengeStalePending

/-! ## Tombstones -/

theorem isTombstone_tombstoneName (id nonce : String) :
    isTombstone (tombstoneName id nonce) = true := by
  unfold isTombstone
  rw [List.isPrefixOf_iff_prefix, toList_tombstoneName]
  exact prefix_append _ _

theorem isTombstone_of_isRetentionTombstoneName {name}
    (h : isRetentionTombstoneName name = true) : isTombstone name = true :=
  isPrefixOf_iff_prefix.mpr (isRetentionTombstoneName_start h)

section

variable {tombstone : String} (htombstone : isTombstone tombstone = true)

include htombstone

theorem quiet_tombstoneSize {name} : Quiet (fileSize caller root tombstone name) :=
  .call (by simp [StoreOp.onReportsOnly, htombstone])

theorem quiet_removeFile {name} : Quiet (removeFile caller root tombstone name) := .call htombstone

theorem quiet_removeDirectory : Quiet (removeDirectory caller root tombstone) := .call htombstone

theorem quiet_removeTombstoneFiles {names} :
    ∀ inspected, Quiet (removeTombstoneFiles caller root tombstone names inspected) := by
  induction names with
  | nil => exact fun _ => .pure ()
  | cons name rest ih =>
    intro inspected
    apply Quiet.seq (.call rfl)
    split
    · exact .throw
    apply Quiet.seq (.mapError (.call rfl))
    apply Quiet.seq (.mapError (quiet_removeFile htombstone))
    exact ih _

theorem quiet_removeStaleTombstone : Quiet (removeStaleTombstone caller root tombstone) := by
  apply Quiet.bind (.mapError (.call rfl))
  intro listing
  apply Quiet.seq (quiet_removeTombstoneFiles htombstone _)
  apply Quiet.seq (.call rfl)
  exact .mapError (quiet_removeDirectory htombstone)

theorem quiet_removeArtifacts {names} : Quiet (removeArtifacts caller root tombstone names) := by
  induction names with
  | nil => exact .pure ()
  | cons name rest ih =>
    apply Quiet.seq (.call rfl)
    apply Quiet.seq (.mapError (quiet_tombstoneSize htombstone))
    apply Quiet.seq (.mapError (quiet_removeFile htombstone))
    exact ih

theorem quiet_removeFlatTombstone {names} :
    Quiet (removeFlatTombstone caller root tombstone names) := by
  apply Quiet.seq (quiet_removeArtifacts htombstone)
  apply Quiet.seq (.call rfl)
  apply Quiet.seq (.mapError (quiet_tombstoneSize htombstone))
  apply Quiet.seq (.mapError (quiet_removeFile htombstone))
  apply Quiet.seq (.call rfl)
  apply Quiet.bind (.mapError (.call rfl))
  intro remaining
  split
  · exact .throw
  · exact .mapError (quiet_removeDirectory htombstone)

theorem quiet_deleteHidden {names} : Quiet (deleteHidden caller root tombstone names) := by
  apply Quiet.seq (.outcome quiet_syncDirectory)
  apply Quiet.bind (.outcome (quiet_removeFlatTombstone htombstone))
  intro result
  cases result with
  | error e => exact Quiet.pure ()
  | ok _ =>
    apply Quiet.seq (.outcome quiet_syncDirectory)
    exact Quiet.pure ()

/-! ## Hiding a report -/

/-- A report is moved as a whole, under a tombstone. -/
theorem retention_allowsPublish {id : ReportId} :
    AllowsPublish (fun o r => reportsAlone o r = true) KeepsToReports caller root id.text root
      tombstone True where
  probe := fun _ _ => rfl
  uuid := fun _ => rfl
  openSource := fun _ => rfl
  matchesSource := fun _ _ => rfl
  matchesEntry := fun _ _ => rfl
  verifyEntry := fun _ _ => rfl
  verifyPrivate := fun _ => rfl
  publish := fun _ => by simp [StoreOp.onReportsOnly, id.valid, htombstone]
  restore := fun _ _ => by simp [StoreOp.onReportsOnly, htombstone]
  quarantine := fun _ _ _ => by simp [StoreOp.onReportsOnly, htombstone]
  remove := fun _ _ => htombstone
  same := fun hnot => absurd trivial hnot
  isPrivate := fun hnot => absurd trivial hnot

end

/-! ## Tombstones left behind -/

variable {codec : Codec} {current : Option (Path × ReportId)}

theorem quiet_cleanupTombstone {name} {kind : EntryKind} :
    Quiet (cleanupTombstone (storeCalls codec caller root current) name kind) := by
  unfold cleanupTombstone
  split
  · exact .pure _
  next hname =>
  apply Quiet.seq (.mapError (.call rfl))
  split
  · exact Quiet.pure _
  have htombstone : isTombstone name = true :=
    isTombstone_of_isRetentionTombstoneName (by simpa using hname)
  exact Quiet.seq (quiet_removeStaleTombstone htombstone) (Quiet.pure _)

theorem quiet_cleanupTombstones {listing} : ∀ inspected removedAny,
    Quiet (cleanupTombstones (storeCalls codec caller root current) listing inspected
      removedAny) := by
  induction listing with
  | nil => exact fun _ removedAny => .pure removedAny
  | cons entry rest ih =>
    intro inspected removedAny
    apply Quiet.seq (.call rfl)
    split
    · exact .throw
    apply Quiet.seq (.mapError (.call rfl))
    apply Quiet.bind quiet_cleanupTombstone
    intro removed
    exact ih _ _

theorem quiet_cleanupRetentionTombstones :
    Quiet (cleanupRetentionTombstones (storeCalls codec caller root current)) := by
  apply Quiet.bind (.mapError (.call rfl))
  intro listing
  apply Quiet.bind (quiet_cleanupTombstones _ _)
  intro removedAny
  split
  · exact quiet_syncDirectory
  · exact Quiet.pure ()

/-! ## The inventory -/

/-- An entry of the inventory that is a report directory. -/
def ReportEntry.IsReport (entry : ReportEntry) : Prop :=
  ∃ id inode, entry.target = .committedDirectory id inode

variable (id : ReportId)

theorem quiet_manifestArtifactSizes : Quiet (manifestArtifactSizes codec caller root id) := by
  have hread : Quiet (readManifestNoFollow caller root id.text) := by
    apply Quiet.bind (.mapError (.call rfl))
    intro data
    cases data with
    | none => exact .throw
    | some bytes =>
      show Quiet (if _ then _ else _)
      split
      · exact .throw
      · exact .pure bytes
  apply Quiet.bind hread
  intro bytes
  split
  · exact .throw
  split_ifs
  · exact .throw
  · exact .throw
  · exact Quiet.done _

theorem quiet_reportSize {name} : Quiet (fileSize caller root id.text name) :=
  .call (by simp [StoreOp.onReportsOnly, id.valid])

theorem quiet_inventoryEntries {names} : ∀ inspected expected sawManifest total,
      Quiet (inventoryEntries caller root id.text names inspected expected sawManifest total) := by
  induction names with
  | nil => exact fun _ expected sawManifest total => .pure _
  | cons name rest ih =>
    intro inspected expected sawManifest total
    apply Quiet.seq (.call rfl)
    split
    · exact .throw
    apply Quiet.seq (.mapError (.call rfl))
    apply Quiet.bind (.mapError (quiet_reportSize id))
    intro size
    split
    · split
      · exact .throw
      · exact ih _ _ _ _
    · split
      · exact .throw
      split
      · exact .throw
      · exact ih _ _ _ _

theorem spares_confirmEntry {d total} :
    Spares (confirmEntry caller root id d total) ReportEntry.IsReport := by
  apply Quiet.bind (.mapError (.call rfl))
  intro found
  cases found with
  | none => exact .throw
  | some d' =>
    show Spares (if _ then _ else _) _
    split
    · exact .throw
    have hmodified : Quiet (modifiedTime caller root id.text) := .call id.valid
    apply Quiet.bind hmodified
    intro modified
    exact .pure ⟨id, d, rfl⟩

theorem spares_inspectCommittedReport :
    Spares (inspectCommittedReport codec caller root id) ReportEntry.IsReport := by
  apply Quiet.seq (.call rfl)
  apply Quiet.bind (.mapError (.call rfl))
  intro found
  cases found with
  | none => exact .throw
  | some _ =>
    apply Quiet.seq (.mapError (.call rfl))
    apply Quiet.bind (.call rfl)
    intro d
    apply Quiet.seq (.mapError (.call rfl))
    apply Quiet.bind (quiet_manifestArtifactSizes id)
    intro sizes
    apply Quiet.bind (.mapError (.call rfl))
    intro listing
    apply Quiet.bind (quiet_inventoryEntries _ _ _ _ _)
    rintro ⟨missing, sawManifest, total⟩
    dsimp only
    split_ifs
    · exact .throw
    · exact .throw
    · exact spares_confirmEntry id

theorem spares_collectEntry {name} {kind : EntryKind} (h : kind = .file → isVisible name = false) :
    Spares (collectEntry (storeCalls codec caller root current) name kind) fun entries =>
      ∀ entry ∈ entries, entry.IsReport := by
  have hnone : ∀ entry ∈ ([] : List ReportEntry), entry.IsReport := by simp
  unfold collectEntry
  split
  · exact .pure hnone
  next hdot =>
  apply Quiet.seq (.mapError (.call rfl))
  cases kind with
  | file =>
    have hvisible : isVisible name = true := by simp [isVisible, hdot]
    exact absurd (h rfl) (by simp [hvisible])
  | symlink =>
    cases ReportId.parse name with
    | none | some id => exact .throw
  | directory =>
    cases ReportId.parse name with
    | none => exact .pure hnone
    | some id =>
      apply Confines.bind (.mapError (spares_inspectCommittedReport id))
      intro entry hentry
      apply Confines.pure
      simpa using hentry

theorem spares_collectEntriesFrom {listing}
    (h : ∀ name, (name, .file) ∈ listing → isVisible name = false) :
    ∀ inspected, Spares (collectEntriesFrom (storeCalls codec caller root current) listing
      inspected) fun entries => ∀ entry ∈ entries, entry.IsReport := by
  induction listing with
  | nil => exact fun _ => .pure (by simp)
  | cons first rest ih =>
    obtain ⟨name, kind⟩ := first
    intro inspected
    apply Quiet.seq (.call rfl)
    split
    · exact .throw
    apply Quiet.seq (.mapError (.call rfl))
    have hfirst : kind = .file → isVisible name = false := by
      rintro rfl
      exact h name mem_cons_self
    apply Confines.bind (spares_collectEntry hfirst)
    intro entry hentry
    have hrest := ih fun name hname => h name (mem_cons_of_mem _ hname)
    apply Confines.bind (hrest _)
    intro entries hentries
    exact .pure (forall_mem_append.mpr ⟨hentry, hentries⟩)

theorem spares_collectEntries (hrole : caller.role = .retention) :
    Spares (collectEntries (storeCalls codec caller root current)) fun entries =>
      ∀ entry ∈ entries, entry.IsReport := by
  apply Quiet.seq (.call rfl)
  apply Quiet.seq (.call rfl)
  have hlist : Spares (listRoot caller root) fun listing =>
      ∀ name, (name, .file) ∈ listing → isVisible name = false :=
    ⟨fun _ => rfl, fun r hr listing h name hname => by
      have hshown : (caller.role ≠ .retention || showsNoFile r) = true := hr
      rw [h, hrole] at hshown
      have hall : ∀ entry ∈ listing, (entry.2 ≠ .file || !isVisible entry.1) = true := by
        simpa [showsNoFile] using hshown
      simpa using hall _ hname⟩
  apply Confines.bind (.mapError hlist)
  intro listing h
  exact spares_collectEntriesFrom h 0

/-! ## Removal -/

theorem quiet_removeLocked {inode : Nat} : Quiet (removeLocked codec caller root id inode) := by
  apply Confines.bind (spares_inspectCommittedReport id)
  intro current _
  split
  · exact .throw
  split
  · exact .throw
  apply Quiet.bind (quiet_manifestArtifactSizes id)
  intro sizes
  apply Quiet.bind (.call rfl)
  intro nonce
  have htombstone := isTombstone_tombstoneName id.text nonce
  apply Quiet.seq (.mapError (retention_allowsPublish htombstone).publishes)
  exact quiet_deleteHidden htombstone

theorem quiet_removeCommitted {inode} :
    Quiet (removeCommitted codec caller root id inode current) := by
  apply Quiet.seq (.mapError (.call rfl))
  split
  · exact quiet_removeLocked id
  have hlock : Quiet (tryLockReportDirectory caller root id.text) :=
    confines_tryLockReportDirectory (fun _ _ => rfl) (fun _ => rfl) fun _ _ => rfl
  apply Quiet.bind hlock
  intro owner
  cases owner with
  | none => exact .throw
  | some held => exact confines_holding (quiet_removeLocked id) fun _ => rfl

theorem quiet_removeEntry {entry} (h : entry.IsReport) :
    Quiet (removeEntry codec caller root entry current) := by
  have hbody : Quiet (removeEntryBody codec caller root entry current) := by
    obtain ⟨id, inode, htarget⟩ := h
    apply Quiet.seq (.call rfl)
    rw [htarget]
    apply Quiet.bind (.mapError (.call rfl))
    intro found
    cases found with
    | none => exact .throw
    | some d =>
      show Quiet (if _ then _ else _)
      split
      · exact .throw
      · exact quiet_removeCommitted id
  apply Quiet.bind (.outcome hbody)
  intro result
  cases result with
  | ok _ | error e => exact Quiet.pure _

theorem quiet_removeOldest {entry} (h : entry.IsReport) :
    Quiet (removeOldest (storeCalls codec caller root current) entry) := by
  have hleased : Quiet (entryIsLeased caller root entry current) := by
    unfold entryIsLeased
    split
    · exact .pure _
    split
    · exact .pure _
    · exact .call rfl
  apply Quiet.bind hleased
  intro leased
  split
  · exact Quiet.pure _
  · exact quiet_removeEntry h

/-! ## The passes -/

theorem spares_agePass {now maxAge} {entries : List ReportEntry}
    (h : ∀ entry ∈ entries, entry.IsReport) :
    Spares (agePass (storeCalls codec caller root current) now maxAge entries) fun left =>
      ∀ entry ∈ left, entry.IsReport := by
  induction entries with
  | nil => exact .pure h
  | cons entry rest ih =>
    apply Quiet.seq (.call rfl)
    split
    · exact .pure h
    apply Quiet.bind (quiet_removeOldest (h entry mem_cons_self))
    intro removed
    split
    · exact ih fun e he => h e (mem_cons_of_mem _ he)
    · exact .pure h

theorem spares_countPass {maxCount} {entries : List ReportEntry}
    (h : ∀ entry ∈ entries, entry.IsReport) :
    Spares (countPass (storeCalls codec caller root current) maxCount entries) fun left =>
      ∀ entry ∈ left, entry.IsReport := by
  induction entries with
  | nil => exact .pure h
  | cons entry rest ih =>
    unfold countPass
    split
    · exact .pure h
    apply Quiet.seq (.call rfl)
    apply Quiet.bind (quiet_removeOldest (h entry mem_cons_self))
    intro removed
    split
    · exact ih fun e he => h e (mem_cons_of_mem _ he)
    · exact .pure h

theorem quiet_totalSize {entries} :
    ∀ total, Quiet (totalSize (storeCalls codec caller root current) entries total) := by
  induction entries with
  | nil => exact fun total => .pure total
  | cons entry rest ih =>
    intro total
    apply Quiet.seq (.call rfl)
    exact ih _

theorem quiet_sizePass {maxTotalBytes} {entries : List ReportEntry}
    (h : ∀ entry ∈ entries, entry.IsReport) :
    ∀ total, Quiet (sizePass (storeCalls codec caller root current) maxTotalBytes entries
      total) := by
  induction entries with
  | nil => exact fun total => .pure _
  | cons entry rest ih =>
    intro total
    unfold sizePass
    split
    · exact .pure _
    apply Quiet.seq (.call rfl)
    apply Quiet.bind (quiet_removeOldest (h entry mem_cons_self))
    intro removed
    split
    · exact ih (fun e he => h e (mem_cons_of_mem _ he)) _
    · exact Quiet.pure _

theorem quiet_enforceLimits {limits entries} (hentries : ∀ entry ∈ entries, entry.IsReport) :
    Quiet (enforceLimits (storeCalls codec caller root current) limits entries) := by
  unfold enforceLimits
  split
  · exact Quiet.pure ()
  apply Quiet.bind (.call rfl)
  intro now
  have hsorted : ∀ entry ∈ sortByModified entries, entry.IsReport := by
    intro entry hentry
    exact hentries entry ((perm_insertionSort _ entries).subset hentry)
  apply Confines.bind (spares_agePass hsorted)
  intro young hyoung
  apply Confines.bind (spares_countPass hyoung)
  intro few hfew
  apply Quiet.bind (quiet_totalSize 0)
  intro total
  apply Quiet.bind (quiet_sizePass hfew total)
  rintro ⟨left, total⟩
  apply Quiet.seq (.call rfl)
  dsimp only
  split
  · exact .throw
  · exact Quiet.pure ()

theorem quiet_retainLocked (hrole : caller.role = .retention) {limits} :
    Quiet (retainLocked (storeCalls codec caller root current) limits) := by
  apply Quiet.seq quiet_cleanupRetentionTombstones
  apply Confines.bind (spares_collectEntries hrole)
  intro entries hentries
  exact quiet_enforceLimits hentries

theorem quiet_retentionManager (hrole : caller.role = .retention) (outputRoot : Path)
    (t : Option Token) (sent : Except String Path) (limits : RetentionLimits) :
    Quiet (retentionManager codec outputRoot caller t sent limits) := by
  have htarget : Quiet (targetDir caller t sent) := by
    apply Quiet.bind quiet_currentReport
    intro report
    cases report with
    | none => exact Quiet.mapError (.done sent)
    | some report => exact Quiet.pure _
  apply Quiet.seq (.call rfl)
  apply Quiet.bind htarget
  intro root
  apply Quiet.seq quiet_scavengeForRetention
  apply Quiet.bind quiet_currentReport
  intro current
  apply Quiet.seq (.call rfl)
  apply Quiet.seq (.call rfl)
  apply Quiet.seq (.call rfl)
  apply Quiet.bind (.call rfl)
  intro lock
  apply Quiet.bind (.outcome (quiet_retainLocked hrole))
  intro result
  apply Quiet.seq (.call rfl)
  exact Quiet.done result

end

/-! ## The events of a run -/

section

variable {outputRoot : Path} {render : SessionRecord → String}

theorem quiet_recordCrash {caller} (h : caller.role.retains = false) {session committed path} :
    Quiet (recordCrash outputRoot render caller session committed path) := by
  apply Quiet.seq (.foreign h)
  apply Quiet.seq (.foreign h)
  apply Quiet.seq (.mapError (.foreign h))
  apply Quiet.bind (.foreign h)
  intro finish
  have hlock : Quiet (acquireSessionLogLock caller) := by
    apply Quiet.seq (.foreign h)
    apply Quiet.seq (.foreign h)
    apply Quiet.seq (.foreign h)
    exact Quiet.foreign h
  have happend : ∀ line, Quiet (appendSessionRecordLocked outputRoot caller line) := by
    intro line
    show Quiet (if _ then _ else _)
    split
    · exact .throw
    apply Quiet.seq (.foreign h)
    apply Quiet.seq (.mapError (.foreign h))
    apply Quiet.seq (.foreign h)
    apply Quiet.seq (.foreign h)
    apply Quiet.seq (.mapError (.foreign h))
    apply Quiet.seq (.mapError (.foreign h))
    apply Quiet.seq (.foreign h)
    exact Quiet.foreign h
  apply Quiet.seq hlock
  apply Quiet.seq (happend _)
  apply Quiet.seq (.foreign h)
  exact Quiet.foreign h

theorem quiet_sessionRecorder {caller} (h : caller.role.retains = false)
    {event} : Quiet (sessionRecorder outputRoot render caller event) := by
  have hrecord : Quiet (recordSession outputRoot render caller event) := by
    unfold recordSession
    split
    · exact .pure ()
    apply Quiet.bind (.foreign h)
    intro report
    cases report with
    | none => exact .throw
    | some committed => exact quiet_recordCrash h
  apply Quiet.seq (.foreign h)
  split
  · exact Quiet.pure ()
  · apply Quiet.seq hrecord
    exact Quiet.foreign h

/-- The calls of a program without a result of interest. -/
abbrev AllKept (p : Prog storeSig Unit) : Prop :=
  Confined (S := storeSig) (fun o r => reportsAlone o r = true) KeepsToReports p fun _ => True

theorem kept_whenEnabled {body} (h : Quiet body) {enabled} :
    AllKept (whenEnabled enabled body) := by
  unfold whenEnabled
  split
  · exact .seq h fun _ _ => trivial
  · trivial

end

section

variable (codec : Codec) (outputRoot : Path) (render : SessionRecord → String)
  (policy : FinishPolicy)

theorem kept_finishEvent {event} : AllKept (finishEvent codec outputRoot render policy event) := by
  apply Confined.seq (kept_whenEnabled (quiet_sessionRecorder rfl))
  intro _ _
  exact kept_whenEnabled (quiet_retentionManager rfl ..)

theorem kept_finishEvents {events} :
    AllKept (finishEvents codec outputRoot render policy events) := by
  induction events with
  | nil => trivial
  | cons event rest ih =>
    exact .seq (kept_finishEvent ..) fun _ _ => ih

/-- **Retention keeps to committed reports.** In every run over any events and
settings, with any answers in which the root lists no visible plain file and no
staging directory is stale, the calls of retention are all on reports. -/
theorem retention_keeps_to_reports (events : List FinishedEvent) {t : List (Event storeSig)}
    (ht : (finishEvents codec outputRoot render policy events).Trace t ())
    (halone : ∀ e ∈ t, reportsAlone e.op e.answer = true) : RetainsReportsOnly t :=
  ((kept_finishEvents codec outputRoot render policy).trace ht halone).2

end

/-! ## Two events -/

namespace SessionLog

/-- What of the root changes: the session log, and the second report. -/
structure Disk where
  logged : Bool
  finished : Bool

section

variable (published : Path) (disk : Disk)

def first : ReportId := ⟨"11111111111111111111111111111111", by decide +kernel⟩
def second : ReportId := ⟨"22222222222222222222222222222222", by decide +kernel⟩

def pending : Path := ["data", "crashes", "pending"]
def sent : Path := ["data", "crashes", "sent"]

/-- The transactions of the two events. -/
def early : Token := ⟨0, 1⟩
def late : Token := ⟨0, 2⟩

/-- The session log is in the pending root, the reports where they were
published. -/
def Disk.listing (published root : Path) : List (String × EntryKind) :=
  (if root = published then [(first.text, .directory)] else []) ++
    (if root = pending ∧ disk.logged then [("sessions.jsonl", .file)] else []) ++
    (if root = published ∧ disk.finished then [(second.text, .directory)] else [])

/-- A directory by the report id that names it. -/
def inodeOf (name : String) : Nat := if name = first.text then 1 else 2

/-- The diagnostics written at the end of an event renew the directory. -/
def Disk.modified (name : String) : Nat :=
  if name = first.text then (if disk.finished then 12 else 10) else 20

def manifestBytes (directory : String) : Bytes :=
  plainCodec.encode (.plain (if directory = first.text then first else second))

def reportOf (t : Token) : CommittedReport := ⟨if t = early then first else second, published, []⟩

/-- A system on which every call succeeds; what no call of the run asks for is
refused. -/
def answer (o : Caller × StoreOp) (disk : Disk) : o.2.Res × Disk :=
  match o.2 with
  | .committedReport t =>
    (some (reportOf published t), { disk with finished := disk.finished || t = late })
  | .listRoot root => (.ok (disk.listing published root), disk)
  | .inspectEntry _ name => (.ok (some (inodeOf name)), disk)
  | .openDirectory _ name => (.ok (inodeOf name), disk)
  | .readFile _ directory _ => (.ok (some (manifestBytes directory)), disk)
  | .listDirectory .. => (.ok [manifestFileName], disk)
  | .fileSize _ directory _ => (.ok (manifestBytes directory).length, disk)
  | .modifiedTime _ name => (disk.modified name, disk)
  | .inspectLegacy .. => (.ok (100, 11), disk)
  | .appendSession .. => (.ok (), { disk with logged := true })
  | .removeLegacy .. => (.ok (), { disk with logged := false })
  | .acquireRetention _ => (.ok ⟨0, 3⟩, disk)
  | .currentTime => ((30 : Nat), disk)
  | .timestamp => ("", disk)
  | .checkpoint | .probe _ | .ensureDirectory .. | .removeSessionLock ..
  | .verifyPrivate _ => (.ok (), disk)
  | .staleEntry .. => (.ok false, disk)
  | .isLeased .. => (false, disk)
  | o => (o.unasked, disk)

def policy : FinishPolicy where
  recordsSessions := true
  retains := true
  sentDir := .ok sent
  limits := ⟨2, 64 * 1024 * 1024, 7 * 86400⟩

/-- A crash with a session, and later a snapshot. -/
def events : List FinishedEvent := [⟨early, .crash, some ⟨"session", "", 5⟩, some "report.json"⟩,
    ⟨late, .snapshot, none, some "report.json"⟩]

def program : Prog storeSig Unit :=
  finishEvents plainCodec pending (fun record => record.id) policy events

/-- The run with the reports published in a given root. -/
def run : List (Event storeSig) := program.log (answer published) ⟨false, false⟩

theorem trace_run : program.Trace (run published) () := by
  have h := Prog.trace_log (S := storeSig) (answer published) program ⟨false, false⟩
  exact h

end

end SessionLog

open SessionLog

/-- With the reports moved to the sent root the condition is met. -/
theorem moved_reports_kept_to : RetainsReportsOnly (run sent) := by
  apply retention_keeps_to_reports plainCodec pending (fun record => record.id)
    policy events (trace_run sent)
  exact all_eq_true.mp (by decide +kernel)

/-- With the reports left in the pending root, the session log written for a
crash is counted as a report there, and deleted after the next event. -/
theorem session_log_counted_and_deleted :
    program.Trace (run pending) () ∧
    ((run pending)[14]?.map Event.op =
      some (⟨0, .other⟩, .appendSession pending "session")) ∧
    ((run pending)[108]?.map Event.op =
      some (⟨0, .retention⟩, .inspectLegacy pending "sessions.jsonl")) ∧
    ((run pending)[129]?.map Event.op =
      some (⟨0, .retention⟩, .removeLegacy pending "sessions.jsonl")) ∧
    ¬ RetainsReportsOnly (run pending) := by
  have hdeleted : (run pending)[129]?.map Event.op =
      some (⟨0, .retention⟩, .removeLegacy pending "sessions.jsonl") := rfl
  refine ⟨trace_run pending, rfl, rfl, hdeleted, ?_⟩
  intro hkept
  obtain ⟨e, he, hop⟩ := Option.map_eq_some_iff.mp hdeleted
  have hreports : KeepsToReports e.op := hkept e (mem_of_getElem? he)
  rw [hop] at hreports
  exact absurd (hreports rfl) (by decide)

end CrashMonitor.Store
