import CrashMonitor.Store.Publication
import CrashMonitor.Store.PublishScope
import CrashMonitor.Store.Recovery

/-!
# What recovery touches

Recovery of a prepared report, whatever its manifest and its staging directory
contain. The validators of names let some odd ones through, such as a lone
slash; it is the comparison with the listing of the directory that rejects
them, before any file is opened by a name from the manifest. So the calls stay
inside the staging directory, and the directory is moved to its own id in the
output root or in a sibling of it, and only if it is complete.
-/

namespace CrashMonitor.Store

open Lib Interleave List Confines

/-! ## Single components -/

/-- A single normal path component, as a directory listing gives them. -/
structure NormalName (name : String) : Prop where
  nonempty : name ≠ ""
  flat : isFlat name = true
  notSelf : name ≠ "."
  notParent : name ≠ ".."

/-- No piece of a split text has the separator. -/
theorem not_mem_of_mem_splitOn {separator} {text piece : List Char}
    (h : piece ∈ text.splitOn separator) : separator ∉ piece := by
  induction text generalizing piece with
  | nil =>
    rw [splitOn_nil, mem_singleton] at h
    simp [h]
  | cons c text ih =>
    rw [splitOn_cons_eq_if_modifyHead] at h
    by_cases hc : (c == separator) = true
    · rw [if_pos hc] at h
      rcases mem_cons.mp h with rfl | h
      · simp
      · exact ih h
    · rw [if_neg hc] at h
      cases hsplit : text.splitOn separator with
      | nil =>
        rw [hsplit] at h
        cases h
      | cons first rest =>
        rw [hsplit] at h ih
        rcases mem_cons.mp h with rfl | h
        · have hne : separator ≠ c := fun heq => hc (by simp [heq])
          simp only [mem_cons, not_or]
          exact ⟨hne, ih mem_cons_self⟩
        · exact ih (mem_cons_of_mem first h)

/-- The first piece of a text begins as the text does. -/
theorem splitOn_cons_of_ne {separator c} (text : List Char) (h : c ≠ separator) :
    ∃ first rest, (c :: text).splitOn separator = (c :: first) :: rest := by
  rw [splitOn_cons_eq_if_modifyHead, if_neg (by simpa using h)]
  cases hsplit : text.splitOn separator with
  | nil => exact absurd hsplit (splitOn_ne_nil _ _)
  | cons first rest => exact ⟨first, rest, rfl⟩

/-- A validated directory name is one normal component. -/
theorem components_of_validateDirectoryComponent {directory}
    (h : validateDirectoryComponent directory = true) :
    ∃ name, components directory = [name] ∧ NormalName name := by
  simp only [validateDirectoryComponent, Bool.not_eq_true', Bool.or_eq_false_iff,
    decide_eq_false_iff_not, not_not] at h
  obtain ⟨⟨⟨hempty, hdot⟩, hcount⟩, hslash⟩ := h
  cases htext : directory.toList with
  | nil =>
    have : directory = "" := String.toList_inj.mp htext
    simp [this] at hempty
  | cons c text =>
    rw [htext] at hdot hslash
    have hcslash : c ≠ '/' := by simpa using hslash
    have hcdot : c ≠ '.' := by simpa using hdot
    obtain ⟨first, rest, hsplit⟩ := splitOn_cons_of_ne text hcslash
    have hnodot : (c :: first) ≠ ['.'] := by
      intro heq
      exact hcdot (List.cons.inj heq).1
    have hlength : (components directory).length = 1 := by
      simpa [componentCount, htext, hslash, hcslash] using hcount
    have hall : components directory = .ofList (c :: first) ::
        (rest.filter fun p => p ≠ [] ∧ p ≠ ['.']).map .ofList := by
      simp [components, htext, hsplit, hnodot]
    rw [hall] at hlength ⊢
    have hrest : (rest.filter fun p => p ≠ [] ∧ p ≠ ['.']).map String.ofList = [] := by
      simpa using hlength
    refine ⟨.ofList (c :: first), by rw [hrest], ?_, ?_, ?_, ?_⟩
    · intro heq
      have := congrArg String.toList heq
      simp at this
    · have hmem : (c :: first) ∈ (c :: text).splitOn '/' := by simp [hsplit]
      have := not_mem_of_mem_splitOn hmem
      simpa [isFlat] using this
    · intro heq
      have := congrArg String.toList heq
      simp only [String.toList_ofList] at this
      exact hnodot this
    · intro heq
      have := congrArg String.toList heq
      simp only [String.toList_ofList] at this
      exact hcdot (List.cons.inj this).1

/-! ## The calls of recovery -/

/-- The output root, or a direct sibling of it with a single normal name. -/
def RecoveryRoot (outputRoot root : Path) : Prop :=
  root = outputRoot ∨
    ∃ name, NormalName name ∧ outputRoot ≠ [] ∧ root = outputRoot.dropLast ++ [name]

theorem recoveryRoot_of_destinationFromPolicy {outputRoot root destination}
    (h : destinationFromPolicy outputRoot destination = .ok root) :
    RecoveryRoot outputRoot root := by
  cases destination with
  | outputRoot =>
    cases h
    exact .inl rfl
  | sibling directory =>
    simp only [destinationFromPolicy] at h
    by_cases hvalid : validateDirectoryComponent directory = true
    · by_cases hempty : outputRoot = []
      · simp [hvalid, hempty] at h
      obtain ⟨name, hname, hnormal⟩ := components_of_validateDirectoryComponent hvalid
      simp only [hvalid, Bool.not_true, Bool.false_eq_true, if_false, hempty, hname,
        Except.ok.injEq] at h
      exact .inr ⟨name, hnormal, hempty, h.symm⟩
    · simp [hvalid] at h

section Scope

variable (outputRoot : Path) (name : String) (id : ReportId) (verified : Bool)

/-- The calls on the staging directory `name` of a report. Files are opened in
that directory only; the one thing looked at elsewhere is the destination. The
directory is moved to its id in a recovery root. A move that could not be
verified may be undone, or the entry set aside in the same root. -/
def RecoveryCall : StoreOp → Prop
  | .deadlineElapsed | .probe _ | .uuid | .verifyPrivate _ => True
  | .lockDirectory _ | .unlockDirectory .. => True
  | .openDirectory root directory | .listDirectory root directory =>
    root = outputRoot ∧ directory = name
  | .readFile root directory file => root = outputRoot ∧ directory = name ∧ file = manifestFileName
  | .fileSize root directory file => root = outputRoot ∧ directory = name ∧ NormalName file
  | .inspectEntry root entry => RecoveryRoot outputRoot root ∧ entry = id.text
  | .matchesHandle root entry _ | .verifyEntry root entry _ =>
    root = outputRoot ∧ entry = name ∨ RecoveryRoot outputRoot root ∧ entry = id.text
  | .renameDirectory root entry root' entry' =>
    root = outputRoot ∧ entry = name ∧ RecoveryRoot outputRoot root' ∧ entry' = id.text ∨
      verified = false ∧ RecoveryRoot outputRoot root ∧ entry = id.text ∧
        (root' = outputRoot ∧ entry' = name ∨ root' = root ∧ ∃ nonce, entry' = quarantineName nonce)
  | .removeDirectory root entry => verified = false ∧ RecoveryRoot outputRoot root ∧ entry = id.text
  | _ => False

/-- Listings give normal names; and, where that is assumed, the checks of the
published directory succeed. -/
def recoveryAnswer (o : Caller × StoreOp) (r : o.2.Res) : Prop :=
  match o.2, r with
  | .listDirectory .., listing => ∀ names, listing = .ok names → ∀ n ∈ names, NormalName n
  | .verifyEntry .., same => verified = true → same = .ok true
  | .verifyPrivate _, result => verified = true → result = .ok ()
  | _, _ => True

/-- A part of recovery that makes only such calls. -/
abbrev Recovers {α : Type} (x : Call α) (Q : α → Prop) : Prop :=
  Confines (S := storeSig) (fun o r => recoveryAnswer verified o r)
    (fun o => RecoveryCall outputRoot name id verified o.2) x Q

end Scope

section Calls

variable {outputRoot : Path} {name : String} {id : ReportId} {verified : Bool}
  {caller : Caller} {α β : Type}

theorem recovers_probe {what} :
    Recovers outputRoot name id verified (probe caller what) fun _ => True := call trivial

theorem recovers_syncDirectory {path} :
    Recovers outputRoot name id verified (syncDirectory caller path) fun _ => True :=
  (recovers_probe).mapError

theorem recovers_ensureBeforeDeadline {deadline} :
    Recovers outputRoot name id verified (ensureBeforeDeadline caller deadline) fun _ => True := by
  unfold ensureBeforeDeadline
  split
  · refine .skip (call trivial) fun elapsed => ?_
    split
    · exact .throw
    · exact .pure trivial
  · exact .pure trivial

theorem recovers_listDirectory :
    Recovers outputRoot name id verified (listDirectory caller outputRoot name)
      fun names => ∀ n ∈ names, NormalName n :=
  ⟨⟨rfl, rfl⟩, fun _ hr names hnames => hr names hnames⟩

theorem recovers_fileSize {file} (h : NormalName file) :
    Recovers outputRoot name id verified (fileSize caller outputRoot name file) fun _ => True :=
  .call ⟨rfl, rfl, h⟩

/-- A scan opens the files of the listing. -/
theorem recovers_scanEntries (maxEntries : Nat) (names : List String)
    (hnames : ∀ n ∈ names, NormalName n) (inspected : Nat) (actual : SortedMap String Nat)
    (sawManifest : Bool) (hactual : ∀ n ∈ actual.keys, NormalName n) :
    Recovers outputRoot name id verified
      (scanEntries caller outputRoot name true maxEntries true names inspected actual sawManifest)
      fun found => ∀ n ∈ found.1.keys, NormalName n := by
  induction names generalizing inspected actual sawManifest with
  | nil => exact .pure hactual
  | cons file rest ih =>
    have hfile : NormalName file := hnames file mem_cons_self
    have hrest : ∀ n ∈ rest, NormalName n := fun n hn => hnames n (mem_cons_of_mem file hn)
    refine .skip recovers_ensureBeforeDeadline fun _ => ?_
    split
    · exact .throw
    refine .skip (recovers_probe).mapError fun _ => ?_
    refine .skip (recovers_fileSize hfile).mapError fun size => ?_
    split
    · exact ih hrest _ _ _ hactual
    refine ih hrest _ _ _ fun n hn => ?_
    rcases (SortedMap.mem_keys_insert ..).mp hn with rfl | hn
    · exact hfile
    · exact hactual n hn

/-- A registry that passes the comparison holds names of the listing only. -/
theorem recovers_validateExactDirectoryBounded {registered maxEntries} :
    Recovers outputRoot name id verified
      (validateExactDirectoryBounded caller outputRoot name registered true maxEntries true)
      fun _ => ∀ n ∈ registered.keys, NormalName n := by
  refine .bind recovers_listDirectory.mapError fun names hnames => ?_
  refine .bind (recovers_scanEntries maxEntries names hnames 0 .empty false
    (by simp [SortedMap.keys, SortedMap.empty])) fun found hfound => ?_
  dsimp only
  split
  · exact .throw
  next hkeys =>
  rw [not_not] at hkeys
  split
  · exact .throw
  · exact .pure fun n hn => hfound n (hkeys ▸ hn)

theorem recovers_validateManifestSizes {artifacts}
    (hnames : ∀ artifact ∈ artifacts, NormalName artifact.path) :
    Recovers outputRoot name id verified
      (validateManifestSizes caller outputRoot name true artifacts) fun _ => True := by
  induction artifacts with
  | nil => exact .pure trivial
  | cons artifact rest ih =>
    refine .skip recovers_ensureBeforeDeadline fun _ => ?_
    refine .skip (recovers_fileSize (hnames artifact mem_cons_self)).mapError fun _ => ?_
    split
    · exact .throw
    · exact ih fun other hother => hnames other (mem_cons_of_mem artifact hother)

theorem recovers_readManifestFile :
    Recovers outputRoot name id verified (readManifestFile caller outputRoot name)
      fun _ => True := by
  refine .skip (mapError (call ⟨rfl, rfl, rfl⟩)) fun data => ?_
  split
  · exact .pure trivial
  split
  · exact .throw
  · exact .pure trivial

/-- Files are opened by their names in the manifest only after those have been
compared with the listing. -/
theorem recovers_revalidatePreparedReport {manifest} {registered : Registry}
    (hregistry : manifestRegistry manifest = .ok registered) {expected maxEntries} :
    Recovers outputRoot name id verified
      (revalidatePreparedReport caller outputRoot name registered manifest expected
        maxEntries true) fun _ => True := by
  refine .skip recovers_ensureBeforeDeadline fun _ => ?_
  refine .skip recovers_readManifestFile fun current => ?_
  split
  · exact .throw
  split
  · exact .throw
  refine .bind recovers_validateExactDirectoryBounded
    fun _ hnames => recovers_validateManifestSizes fun artifact hartifact => ?_
  exact hnames _ (((manifestRegistry_ok hregistry).1 _).mpr (mem_map_of_mem hartifact))

/-! ## Publication -/

/-- The directory is moved to its id, and taken back only where its checks may
fail. -/
theorem recovery_allowsPublish {root} (hroot : RecoveryRoot outputRoot root) :
    AllowsPublish (fun o r => recoveryAnswer verified o r)
      (fun o => RecoveryCall outputRoot name id verified o.2) caller outputRoot name root id.text
      (verified = false) where
  probe := fun _ => trivial
  uuid := trivial
  openSource := ⟨rfl, rfl⟩
  matchesSource := fun _ => .inl ⟨rfl, rfl⟩
  matchesEntry := fun _ => .inr ⟨hroot, rfl⟩
  verifyEntry := fun _ => .inr ⟨hroot, rfl⟩
  verifyPrivate := trivial
  publish := .inl ⟨rfl, rfl, hroot, rfl⟩
  restore := fun hverified => .inr ⟨hverified, hroot, rfl, .inl ⟨rfl, rfl⟩⟩
  quarantine := fun hverified nonce => .inr ⟨hverified, hroot, rfl, .inr ⟨rfl, nonce, rfl⟩⟩
  remove := fun hverified => ⟨hverified, hroot, rfl⟩
  same := fun hnot _ _ hr => hr (Bool.eq_true_of_not_eq_false hnot)
  isPrivate := fun hnot _ hr => hr (Bool.eq_true_of_not_eq_false hnot)

theorem recovers_publishRecovered {manifest : ReportManifest} {registered : Registry}
    (hregistry : manifestRegistry manifest = .ok registered) {bytes} :
    Recovers outputRoot name id verified
      (publishRecovered outputRoot caller name id registered manifest bytes) fun _ => True := by
  have hvalidate : Recovers outputRoot name id verified
      (revalidatePreparedReport caller outputRoot name registered manifest bytes
        maxRecoveryReportEntries true) fun _ => True := recovers_revalidatePreparedReport hregistry
  refine .skip hvalidate fun _ => ?_
  refine .bind (.done fun root h => h) fun root hdestination => ?_
  have hroot := recoveryRoot_of_destinationFromPolicy hdestination
  have hensure : Recovers outputRoot name id verified (ensureRealDirectory caller root)
      fun _ => True := by
    refine .skip (recovers_probe).mapError fun _ => ?_
    exact .skip recovers_probe fun _ => recovers_probe
  refine skip hensure fun _ => ?_
  refine skip (mapError (call ⟨hroot, rfl⟩)) fun found => ?_
  split
  · exact .throw
  refine .skip recovers_ensureBeforeDeadline fun _ => ?_
  refine .skip hvalidate fun _ => ?_
  refine .skip (recovery_allowsPublish hroot).publishes.mapError fun _ => ?_
  refine .skip (attempted recovers_syncDirectory) fun _ => ?_
  have hsync : Recovers outputRoot name id verified (syncOutputRoot outputRoot caller root [])
      fun _ => True := by
    unfold syncOutputRoot
    split
    · exact .pure trivial
    refine .skip (attempted recovers_syncDirectory) fun result => ?_
    split
    · exact .pure trivial
    · exact .pure trivial
  exact .skip hsync fun _ => .pure trivial

theorem recovers_recoverLocked {codec} :
    Recovers outputRoot name id verified (recoverLocked codec outputRoot caller name id)
      fun _ => True := by
  refine .skip recovers_readManifestFile fun found => ?_
  split
  · exact .pure trivial
  split
  · exact .throw
  split
  · exact .throw
  split
  · exact .throw
  · exact .bind (.done fun _ h => h) fun registered hregistry => recovers_publishRecovered hregistry

theorem recovers_recoverStaging {codec : Codec} :
    Recovers outputRoot name id verified (recoverStaging codec outputRoot caller name id)
      fun _ => True := by
  refine .skip (confines_tryLockReportDirectory (fun _ => trivial) ⟨rfl, rfl⟩
    fun _ => trivial) fun locked => ?_
  split
  · exact .pure trivial
  · exact confines_holding recovers_recoverLocked trivial

end Calls

/-! ## One entry of the root -/

/-- The calls on an entry of the output root. One that is no staging directory
is not opened at all. -/
def EntryCall (outputRoot : Path) (name : String) (verified : Bool) (o : StoreOp) : Prop :=
  o = .deadlineElapsed ∨ (∃ what, o = .probe what) ∨
    ∃ id, name = stagingName id ∧ RecoveryCall outputRoot name id verified o

/-- A run that makes no other calls. -/
def StaysInScope (outputRoot : Path) (name : String) (verified : Bool)
    (trace : List (Event storeSig)) : Prop := ∀ e ∈ trace, EntryCall outputRoot name verified e.op.2

theorem confines_recoverPreparedEntry (codec : Codec) (outputRoot : Path) (caller : Caller)
    (name : String) (kind : EntryKind) (verified : Bool) :
    Confines (S := storeSig) (fun o r => recoveryAnswer verified o r)
      (fun o => EntryCall outputRoot name verified o.2)
      (recoverPreparedEntry codec outputRoot caller name kind) fun _ => True := by
  refine .skip (call (.inl rfl)) fun elapsed => ?_
  split
  · exact .pure trivial
  refine .skip (mapError (call (.inr (.inl ⟨_, rfl⟩)))) fun _ => ?_
  split
  · exact .pure trivial
  split
  · exact .pure trivial
  next id hid =>
  exact .weaken recovers_recoverStaging (fun _ _ h => h)
    fun o ho => .inr (.inr ⟨id, eq_stagingName hid, ho⟩)

/-! ## The whole root -/

/-- The calls of a recovery of all reports: the root is listed, and the entries
are worked on. -/
def RootCall (outputRoot : Path) (verified : Bool) (o : StoreOp) : Prop :=
  o = .listRoot outputRoot ∨ ∃ name, EntryCall outputRoot name verified o

def StaysInRoot (outputRoot : Path) (verified : Bool) (trace : List (Event storeSig)) : Prop :=
  ∀ e ∈ trace, RootCall outputRoot verified e.op.2

section Root

variable (codec : Codec) (outputRoot : Path) (caller : Caller) (verified : Bool)

theorem confines_recoverEntry {name kind} :
    Confines (S := storeSig) (fun o r => recoveryAnswer verified o r)
      (fun o => RootCall outputRoot verified o.2)
      (recoverEntry codec outputRoot caller name kind) fun _ => True := by
  refine skip (attempted (call (.inr ⟨name, .inr (.inl ⟨_, rfl⟩)⟩))) fun read => ?_
  split
  · exact .pure trivial
  have hentry := Confined.weaken
    (confines_recoverPreparedEntry codec outputRoot caller name kind verified)
    (fun _ _ h => h) fun o ho => (Or.inr ⟨name, ho⟩ : RootCall outputRoot verified o.2)
  refine skip (attempted hentry) fun recovered => ?_
  split
  · exact .pure trivial
  · exact .pure trivial

/-- By induction on the listing. -/
theorem confines_recoverEntries (listing : List (String × EntryKind)) (inspected recovered : Nat) :
    Confines (S := storeSig) (fun o r => recoveryAnswer verified o r)
      (fun o => RootCall outputRoot verified o.2)
      (recoverEntries codec outputRoot caller listing inspected recovered) fun _ => True := by
  induction listing generalizing inspected recovered with
  | nil => exact .pure trivial
  | cons entry rest ih =>
    rw [recoverEntries]
    split
    · exact .pure trivial
    refine skip (call (.inr ⟨entry.1, .inl rfl⟩)) fun elapsed => ?_
    split
    · exact .pure trivial
    exact skip (confines_recoverEntry ..) fun count => ih _ _

theorem confines_recoverPreparedReports :
    Confines (S := storeSig) (fun o r => recoveryAnswer verified o r)
      (fun o => RootCall outputRoot verified o.2)
      (recoverPreparedReports codec outputRoot caller) fun _ => True := by
  refine skip (mapError (call (.inr ⟨"", .inr (.inl ⟨_, rfl⟩)⟩))) fun _ => ?_
  refine skip (mapError (call (.inl rfl))) fun listing => ?_
  exact confines_recoverEntries ..

end Root

end CrashMonitor.Store
